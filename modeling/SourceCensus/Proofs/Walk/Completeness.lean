import Mathlib
import SourceCensus.Proofs.Walk.Visits

/-!
# Walks that go through and walks that are stopped

Links may lead back, and may lead to one directory from several places.  A walk ends all the same, and

> it visits each directory that it can reach once, and finds each file entry of such a directory once, under
> the first route to the directory (`ofRoot_complete`).

This takes for granted that every path it comes upon can be resolved or leads nowhere.  A link to itself is
not such a path: the system refuses to resolve it with another number than that of a missing file, and nobody
catches this.  The guards around the look-up and the listing of a directory do not help, because the entries are
asked what they are one by one outside of them.  So

> a walk is stopped exactly if it comes upon an entry that cannot be resolved for another reason than that
> nothing is there, whether it enters links or not; and the names of the directories in the root are refused
> exactly if there is such an entry in the root, hidden or not (`stopped_iff_obstructed`).

`Trail.visited` grows just before a directory is listed; so it holds a location once for each listing.
-/

set_option autoImplicit false

namespace SourceCensus

open FileSystem

variable {fs : FileSystem} {options : WalkOptions} {globs : List Glob} {root : Path} {top : Location}

namespace Walk

/-- Each path that the walk comes upon can be resolved, or nothing is there. -/
def Clear (fs : FileSystem) (options : WalkOptions) (root : Path) (top : Location) : Prop :=
  ∀ q e, ¬ ComesUpon fs options (fun _ _ path => Obstructs fs path e) root [] top q

/-- The walk goes from a directory to another one along entries. -/
def Reaches (fs : FileSystem) (options : WalkOptions) : Location → Location → Prop :=
  Relation.ReflTransGen fun here there => ∃ name, Enters fs options here name there

/-- The path names an entry by the first route to its directory, and the entry leads to a file that no glob
fits. -/
def ToBeFound (fs : FileSystem) (options : WalkOptions) (globs : List Glob) (root : Path) (top : Location)
    (file : Path) : Prop :=
  ∃ route here name, FirstRoute (Enters fs options) [] top route here ∧ name ∈ fs.namesAt here ∧
    options.sees name = true ∧ LeadsToFile fs here name ∧ Glob.excludes globs file = false ∧
    file = root.under (route ++ [name])

theorem exists_route_iff {there : Location} :
    (∃ route, Route (Enters fs options) [] top route there) ↔ Reaches fs options top there := by
  constructor
  · rintro ⟨route, hroute⟩
    exact hroute.reaches
  · exact Route.exists_of_reaches

theorem through_of_clear (hfs : fs.IsOpen) (hglobs : options.globs = globs.map .ok)
    (hroot : fs.lookUp true root = .ok (top, .directory)) (hclear : Clear fs options root top) :
    Through fs options globs root top {} (ofRoot fs options root) := by
  rcases ofRoot_outcome hfs hglobs hroot with hthrough | ⟨q, e, hcomes, -⟩
  · exact hthrough
  · exact absurd hcomes (hclear q e)

theorem stopped_isSome_iff (hfs : fs.IsOpen) (hglobs : options.globs = globs.map .ok)
    (hroot : fs.lookUp true root = .ok (top, .directory)) :
    (ofRoot fs options root).stopped.isSome ↔ ¬ Clear fs options root top := by
  constructor
  · intro hstopped hclear
    rw [(through_of_clear hfs hglobs hroot hclear).going] at hstopped
    cases hstopped
  · intro hobstructed
    rcases ofRoot_outcome hfs hglobs hroot with hthrough | ⟨_, _, -, hstopped⟩
    · exact absurd hthrough.clear hobstructed
    · rw [hstopped, Option.isSome_some]

theorem Through.mem_files_iff (h : Through fs options globs root top {} (ofRoot fs options root))
    (file : Path) : file ∈ (ofRoot fs options root).files ↔ ToBeFound fs options globs root top file := by
  obtain ⟨found, hfiles, -, hfound⟩ := h.files
  have hmem : file ∈ (ofRoot fs options root).files ↔ ∃ q ∈ found, root.under q = file := by
    rw [hfiles]
    simp
  rw [hmem]
  constructor
  · rintro ⟨q, hq, rfl⟩
    obtain ⟨route, here, name, rfl, hfirst, hname, hseen, hfile, hkept⟩ := (hfound q).mp hq
    exact ⟨route, here, name, hfirst, hname, hseen, hfile, hkept, rfl⟩
  · rintro ⟨route, here, name, hfirst, hname, hseen, hfile, hkept, rfl⟩
    exact ⟨route ++ [name], (hfound _).mpr ⟨route, here, name, rfl, hfirst, hname, hseen, hfile, hkept⟩,
      rfl⟩

/-- A walk that comes upon no obstruction goes to the end of the tree: it visits what it can reach, each
directory once, and finds each file there once, under the first route to its directory. -/
theorem ofRoot_complete (hfs : fs.IsOpen) (hglobs : options.globs = globs.map .ok)
    (hroot : fs.lookUp true root = .ok (top, .directory)) (hclear : Clear fs options root top) :
    let walk := ofRoot fs options root
    walk.stopped = none ∧
    (walk.visited.Nodup ∧ ∀ there, there ∈ walk.visited ↔ Reaches fs options top there) ∧
    (∀ there, Reaches fs options top there →
      ∃! route, FirstRoute (Enters fs options) [] top route there) ∧
    walk.files.Nodup ∧
    ∀ file, file ∈ walk.files ↔ ToBeFound fs options globs root top file := by
  intro walk
  have h := through_of_clear hfs hglobs hroot hclear
  have hvisited : ∀ there, there ∈ walk.visited ↔ Reaches fs options top there := by
    intro there
    rw [h.mem_visited, exists_route_iff]
    simp
  refine ⟨h.going, ⟨h.explored.nodup, hvisited⟩, ?_, ?_, h.mem_files_iff⟩
  · intro there hthere
    obtain ⟨route, hroute⟩ := h.first there ((hvisited there).mpr hthere) List.not_mem_nil
    exact ⟨route, hroute, fun other hother => hother.unique hroute⟩
  · obtain ⟨found, hfiles, horder, -⟩ := h.files
    rw [show walk.files = _ from hfiles]
    exact List.Nodup.map root.under_injective (Before.nodup horder)

/-- A directory with a file, a link that leads up again, a second way to the directory, and a link that leads
nowhere. -/
def ring : FileSystem where
  entries := [(["a"], .directory), (["a", "f"], .file {}), (["a", "u"], .link ".."),
    (["b"], .link "a"), (["c"], .link "d")]

theorem isOpen_ring : ring.IsOpen where
  nodup := by decide +kernel
  named := by decide +kernel
  stat _ := rfl
  list _ := rfl

theorem ofRoot_complete_ring :
    let options : WalkOptions := { followLinks := true }
    let root : Path := ⟨.absolute, []⟩
    let walk := ofRoot ring options root
    Clear ring options root [] ∧ walk.stopped = none ∧ walk.visited.Nodup ∧ walk.files.Nodup ∧
      ∃! route, FirstRoute (Enters ring options) [] [] route ["a"] := by
  intro options root walk
  have hroot : ring.lookUp true root = .ok ([], .directory) := by cbv
  have hglobs : options.globs = ([] : List Glob).map .ok := rfl
  have hgoing : (ofRoot ring { followLinks := true } ⟨.absolute, []⟩).stopped = none := by cbv
  -- Nothing obstructs a walk that was seen to go through.
  have hclear : Clear ring options root [] := by
    by_contra hobstructed
    have hstopped := (stopped_isSome_iff isOpen_ring hglobs hroot).mpr hobstructed
    rw [show (ofRoot ring options root).stopped = none from hgoing] at hstopped
    cases hstopped
  obtain ⟨-, ⟨hnodup, hvisited⟩, hfirst, hfiles, -⟩ :=
    ofRoot_complete isOpen_ring hglobs hroot hclear
  refine ⟨hclear, hgoing, hnodup, hfiles, hfirst ["a"] ((hvisited ["a"]).mp ?_)⟩
  have hboth : (ofRoot ring { followLinks := true } ⟨.absolute, []⟩).visited = [["a"], []] := by cbv
  rw [show (ofRoot ring options root).visited = _ from hboth]
  exact List.mem_cons_self

end Walk

/-! ## The directories in the root -/

namespace Root

open Walk (Obstructs lookUp_of_not_obstructs)

/-- An entry is asked whether it is a directory by looking where its path leads. -/
theorem isDirectory_eq (hfs : fs.IsTree) (hroot : fs.lookUp true root = .ok (top, .directory))
    {e : Listed} (hpath : e.path = root.child e.name)
    (hentry : fs.entryAt? (top ++ [e.name]) = some e.entry) :
    fs.isDirectory true e =
      match fs.lookUp true e.path with
      | .ok (_, x) => .ok (x == .directory)
      | .error .notFound => .ok false
      | .error err => .error (.refused ⟨err, some e.path.render⟩) := by
  cases he : e.entry with
  | link target =>
    rw [isDirectory, he]
    cases hlook : fs.lookUp true e.path with
    | error err => cases err <;> simp [linkSatisfies, hlook]
    | ok found => simp [linkSatisfies, hlook]
  | _ =>
    rw [hpath, lookUp_child_of_ne_link hfs hroot hentry (by simp [he]), isDirectory, he]
    rfl

theorem isDirectory_of_obstructs (hfs : fs.IsTree)
    (hroot : fs.lookUp true root = .ok (top, .directory)) {e : Listed} (he : e ∈ fs.listAt root top)
    {err : Errno} (h : Obstructs fs (root.child e.name) err) :
    ∃ d, fs.isDirectory true e = .error d := by
  obtain ⟨hpath, hentry⟩ := of_mem_listAt he
  rw [isDirectory_eq hfs hroot hpath hentry, hpath, h.1]
  cases err with
  | notFound => exact absurd rfl h.2
  | _ => exact ⟨_, rfl⟩

theorem isDirectory_of_not_obstructs (hfs : fs.IsTree)
    (hroot : fs.lookUp true root = .ok (top, .directory)) {e : Listed} (he : e ∈ fs.listAt root top)
    (h : ∀ err, ¬ Obstructs fs (root.child e.name) err) :
    ∃ is, fs.isDirectory true e = .ok is ∧
      (is = true ↔ ∃ location, fs.follow top e.name = .ok (location, .directory)) := by
  obtain ⟨hpath, hentry⟩ := of_mem_listAt he
  rw [isDirectory_eq hfs hroot hpath hentry, hpath, ← lookUp_of_not_obstructs hroot h]
  cases hlook : fs.lookUp true (root.child e.name) with
  | error err =>
    cases err with
    | notFound => exact ⟨false, rfl, by simp⟩
    | _ => exact absurd ⟨hlook, by decide⟩ (h _)
  | ok found =>
    refine ⟨found.2 == .directory, rfl, ?_⟩
    simp [Prod.ext_iff]

theorem directories_of_ok {entries : List Listed}
    (h : ∀ e ∈ entries, ∃ is, fs.isDirectory true e = .ok is) :
    ∃ found, directories fs entries = .ok found ∧ found.Sublist entries ∧
      ∀ e, e ∈ found ↔ e ∈ entries ∧ fs.isDirectory true e = .ok true := by
  induction entries with
  | nil => exact ⟨[], rfl, .slnil, by simp⟩
  | cons e entries ih =>
    obtain ⟨is, his⟩ := h e List.mem_cons_self
    obtain ⟨found, hfound, hsub, hmem⟩ := ih fun e' he' => h e' (List.mem_cons_of_mem e he')
    have hall : directories fs (e :: entries) = .ok (if is then e :: found else found) := by
      rw [directories, his, hfound]
      rfl
    cases is with
    | true =>
      refine ⟨e :: found, hall, hsub.cons_cons e, fun e' => ?_⟩
      rw [List.mem_cons, List.mem_cons, hmem, or_and_right]
      exact or_congr_left (iff_self_and.mpr fun heq => heq ▸ his)
    | false =>
      refine ⟨found, hall, hsub.cons e, fun e' => ?_⟩
      rw [List.mem_cons, hmem, or_and_right]
      refine (or_iff_right ?_).symm
      rintro ⟨rfl, hyes⟩
      cases his.symm.trans hyes

theorem directories_of_error {entries : List Listed} {e : Listed} (he : e ∈ entries) {d : Defect}
    (hd : fs.isDirectory true e = .error d) : ∃ d', directories fs entries = .error d' := by
  induction entries with
  | nil => cases he
  | cons first entries ih =>
    rw [directories]
    rcases List.mem_cons.mp he with rfl | he
    · exact ⟨d, by rw [hd]; rfl⟩
    · obtain ⟨d', hd'⟩ := ih he
      cases hfirst : fs.isDirectory true first with
      | error d'' => exact ⟨d'', rfl⟩
      | ok is => exact ⟨d', by rw [hd']; rfl⟩

/-- If all entries of the root answer, the names of the directories among them come out in order. -/
theorem exists_namespaces (hfs : fs.IsTree) {entries : List Listed} (hlist : fs.list root = .ok entries)
    (hanswer : ∀ e ∈ entries, ∃ is, fs.isDirectory true e = .ok is) (allowHidden : Bool) :
    ∃ names, namespaces fs allowHidden root = .ok names ∧ names.Pairwise (· < ·) ∧
      ∀ name, name ∈ names ↔ ∃ e ∈ entries, e.name = name ∧ fs.isDirectory true e = .ok true ∧
        (allowHidden || !isHidden name) = true := by
  obtain ⟨found, hfound, hsub, hmem⟩ := directories_of_ok hanswer
  refine ⟨(found.map (·.name)).filter fun name => allowHidden || !isHidden name, ?_, ?_, ?_⟩
  · rw [namespaces, hlist]
    simp only [hfound]
  · obtain ⟨location, -, rfl⟩ := listAt_of_list hlist
    refine List.Pairwise.filter _ (List.Pairwise.sublist (hsub.map (·.name)) ?_)
    rw [listAt_names hfs]
    exact pairwise_namesAt hfs location
  · intro name
    rw [List.mem_filter, List.mem_map]
    constructor
    · rintro ⟨⟨e, he, rfl⟩, hseen⟩
      obtain ⟨hlisted, hyes⟩ := (hmem e).mp he
      exact ⟨e, hlisted, rfl, hyes, hseen⟩
    · rintro ⟨e, hlisted, rfl, hyes, hseen⟩
      exact ⟨⟨e, (hmem e).mpr ⟨hlisted, hyes⟩, rfl⟩, hseen⟩

/-- The names of the directories in the root come out in order, if no entry there obstructs.  One that does,
hidden or not, takes all of them away. -/
theorem namespaces_outcome (hfs : fs.IsOpen) (hroot : fs.lookUp true root = .ok (top, .directory))
    (allowHidden : Bool) :
    ((∃ d, namespaces fs allowHidden root = .error (.defect d)) ↔
      ∃ name ∈ fs.namesAt top, ∃ e, Obstructs fs (root.child name) e) ∧
    ((∀ name ∈ fs.namesAt top, ∀ e, ¬ Obstructs fs (root.child name) e) →
      ∃ names, namespaces fs allowHidden root = .ok names ∧ names.Pairwise (· < ·) ∧
        ∀ name, name ∈ names ↔ name ∈ fs.namesAt top ∧ (allowHidden || !isHidden name) = true ∧
          ∃ location, fs.follow top name = .ok (location, .directory)) := by
  have hnames : ∀ name, name ∈ fs.namesAt top ↔ ∃ e ∈ fs.listAt root top, e.name = name := by
    intro name
    rw [← listAt_names hfs.toIsTree root, List.mem_map]
  have hclear (h : ∀ name ∈ fs.namesAt top, ∀ e, ¬ Obstructs fs (root.child name) e) :
      ∃ names, namespaces fs allowHidden root = .ok names ∧ names.Pairwise (· < ·) ∧
        ∀ name, name ∈ names ↔ name ∈ fs.namesAt top ∧ (allowHidden || !isHidden name) = true ∧
          ∃ location, fs.follow top name = .ok (location, .directory) := by
    have hanswer : ∀ e ∈ fs.listAt root top, ∃ is, fs.isDirectory true e = .ok is ∧
        (is = true ↔ ∃ location, fs.follow top e.name = .ok (location, .directory)) :=
      fun e he => isDirectory_of_not_obstructs hfs.toIsTree hroot he
        (h e.name ((hnames e.name).mpr ⟨e, he, rfl⟩))
    obtain ⟨names, hok, horder, hmem⟩ := exists_namespaces hfs.toIsTree (hfs.list_eq hroot)
      (fun e he => (hanswer e he).imp fun _ his => his.1) allowHidden
    refine ⟨names, hok, horder, fun name => ?_⟩
    rw [hmem, hnames]
    constructor
    · rintro ⟨e, hlisted, rfl, hyes, hseen⟩
      obtain ⟨is, his, hleads⟩ := hanswer e hlisted
      cases his.symm.trans hyes
      exact ⟨⟨e, hlisted, rfl⟩, hseen, hleads.mp rfl⟩
    · rintro ⟨⟨e, hlisted, rfl⟩, hseen, hleads⟩
      obtain ⟨is, his, hiff⟩ := hanswer e hlisted
      exact ⟨e, hlisted, rfl, hiff.mpr hleads ▸ his, hseen⟩
  refine ⟨⟨?_, ?_⟩, hclear⟩
  · rintro ⟨d, hd⟩
    by_contra hnone
    obtain ⟨names, hok, -⟩ := hclear fun name hname e he => hnone ⟨name, hname, e, he⟩
    cases hd.symm.trans hok
  · rintro ⟨name, hname, err, hobstructs⟩
    obtain ⟨e, he, rfl⟩ := (hnames name).mp hname
    obtain ⟨d, hd⟩ := isDirectory_of_obstructs hfs.toIsTree hroot he hobstructs
    obtain ⟨d', hd'⟩ := directories_of_error he hd
    exact ⟨d', by simp only [namespaces, hfs.list_eq hroot, hd']⟩

end Root

/-! ## Obstructions -/

namespace Walk

/-- What stops a walk, and what takes the names of the directories in the root away, is an entry that the
system cannot resolve although something is there, and nothing else.  Without one the names are complete, and a
walk that is not stopped has found every file. -/
theorem stopped_iff_obstructed (hfs : fs.IsOpen) (hglobs : options.globs = globs.map .ok)
    (hroot : fs.lookUp true root = .ok (top, .directory)) :
    ((∃ d, Root.namespaces fs options.allowHidden root = .error (.defect d)) ↔
      ∃ name ∈ fs.namesAt top, ∃ e, Obstructs fs (root.child name) e) ∧
    ((∀ name ∈ fs.namesAt top, ∀ e, ¬ Obstructs fs (root.child name) e) →
      ∃ names, Root.namespaces fs options.allowHidden root = .ok names ∧ names.Pairwise (· < ·) ∧
        ∀ name, name ∈ names ↔ name ∈ fs.namesAt top ∧ options.sees name = true ∧
          ∃ location, fs.follow top name = .ok (location, .directory)) ∧
    ((ofRoot fs options root).stopped.isSome ↔
      ∃ q e, ComesUpon fs options (fun _ _ path => Obstructs fs path e) root [] top q) ∧
    ((ofRoot fs options root).stopped = none →
      ∀ file, file ∈ (ofRoot fs options root).files ↔ ToBeFound fs options globs root top file) := by
  obtain ⟨hrefused, hnames⟩ := Root.namespaces_outcome hfs hroot options.allowHidden
  refine ⟨hrefused, hnames, ?_, fun hgoing file => ?_⟩
  · rw [stopped_isSome_iff hfs hglobs hroot]
    simp only [Clear, not_forall, not_not]
  · rcases ofRoot_outcome hfs hglobs hroot with hthrough | ⟨_, _, -, hstopped⟩
    · exact hthrough.mem_files_iff file
    · cases hgoing.symm.trans hstopped

theorem stopped_iff_obstructed_ring :
    let root : Path := ⟨.absolute, []⟩
    (∃ names, Root.namespaces ring true root = .ok names) ∧
      ∀ name ∈ ring.namesAt [], ∀ e, ¬ Obstructs ring (root.child name) e := by
  intro root
  have hroot : ring.lookUp true root = .ok ([], .directory) := by cbv
  have hglobs : ({} : WalkOptions).globs = ([] : List Glob).map .ok := rfl
  have hnames : Root.namespaces ring true root = .ok ["a", "b"] := by cbv
  refine ⟨⟨_, hnames⟩, ?_⟩
  obtain ⟨hrefused, -⟩ := stopped_iff_obstructed isOpen_ring hglobs hroot
  intro name hname e hobstructs
  obtain ⟨d, hd⟩ := hrefused.mpr ⟨name, hname, e, hobstructs⟩
  cases hd.symm.trans hnames

/-- A directory with a file, and a link to itself. -/
def looped : FileSystem where
  entries := [(["a"], .directory), (["a", "f"], .file {}), (["u"], .link "u")]

/-- A link to itself stops the walk, whether links are entered or not, and leaves no namespaces. -/
theorem stopped_by_self_link :
    let root : Path := ⟨.absolute, []⟩
    let loop : Defect := .refused ⟨.linkLoop, some "/u"⟩
    looped.IsOpen ∧ looped.lookUp true root = .ok ([], .directory) ∧
      Root.namespaces looped true root = .error (.defect loop) ∧
      (ofRoot looped { followLinks := true } root).stopped = some loop ∧
      (ofRoot looped { followLinks := false } root).stopped = some loop := by
  intro root loop
  refine ⟨⟨⟨?_, ?_⟩, fun _ => rfl, fun _ => rfl⟩, ?_, ?_, ?_, ?_⟩
  · decide +kernel
  · decide +kernel
  · cbv
  · cbv
  · cbv
  · cbv

end Walk

end SourceCensus
