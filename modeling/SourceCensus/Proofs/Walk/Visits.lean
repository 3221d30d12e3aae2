import Mathlib.Data.List.Perm.Subperm
import SourceCensus.Proofs.FileSystem.Descent
import SourceCensus.Proofs.Walk.Excluding
import SourceCensus.Proofs.Walk.Routes

/-!
# What a walk comes upon

A walk enters a directory by an entry of the one it is in (`Enters`), and this makes the tree a graph.  Links
give it cycles, and more than one way to a directory.  The walk is a depth-first search of this graph, and

> it looks at an entry of a directory exactly when the path is the first route to the directory with the
> name of the entry behind it (`ComesUpon`).

So what a walk does is settled by what these paths lead to.  If one of them cannot be resolved, then the walk
is stopped by such a path (`Stuck`).  If all can, then it goes through: it has visited all that it can reach,
each directory once, and found the files that it comes upon, in the order of their names (`Through`).
`ofRoot_outcome` says that there is nothing else.

The depth of a walk is bounded by the directories it is in, so its fuel lasts: the directories visited and the
depth that is left add up to more than there are locations.
-/

set_option autoImplicit false

namespace SourceCensus

/-- Whether entries of the name are looked at. -/
def WalkOptions.sees (options : WalkOptions) (name : String) : Bool :=
  options.allowHidden || !isHidden name

/-- A tree whose directories can all be reached and listed. -/
structure FileSystem.IsOpen (fs : FileSystem) : Prop extends fs.IsTree where
  stat : ∀ p, fs.refusal? .stat p = none
  list : ∀ p, fs.refusal? .list p = none

namespace FileSystem.IsOpen

variable {fs : FileSystem} {p : Path} {location : Location}

theorem stat_eq (hfs : fs.IsOpen) {e : Entry} (h : fs.lookUp true p = .ok (location, e)) :
    fs.stat p = .ok (location, e) := by
  unfold FileSystem.stat ask
  rw [hfs.stat p, h]

theorem list_eq (hfs : fs.IsOpen) (h : fs.lookUp true p = .ok (location, .directory)) :
    fs.list p = .ok (fs.listAt p location) := by
  unfold FileSystem.list ask
  rw [hfs.list p, h]

end FileSystem.IsOpen

namespace Walk

variable {fs : FileSystem} {options : WalkOptions} {globs : List Glob} {p : Path}

/-! ## Entries -/

/-- The walk goes from the directory `here` to the directory `there` by the entry `name`. -/
structure Enters (fs : FileSystem) (options : WalkOptions) (here : Location) (name : String)
    (there : Location) : Prop where
  mem : name ∈ fs.namesAt here
  seen : options.sees name = true
  leads : fs.follow here name = .ok (there, .directory)
  allowed : options.followLinks = true ∨ fs.entryAt? (here ++ [name]) = some .directory

theorem Enters.unique {here there there' : Location} {name : String}
    (h : Enters fs options here name there) (h' : Enters fs options here name there') :
    there' = there := by
  have hsame := h'.leads.symm.trans h.leads
  cases hsame
  rfl

/-- The entry `name` of a directory comes next when those in `done` are behind. -/
structure Upcoming (fs : FileSystem) (here : Location) (done : List String) (name : String) : Prop where
  mem : name ∈ fs.namesAt here
  lt : ∀ other ∈ done, other < name
  mem_iff : ∀ other ∈ fs.namesAt here, other ∈ done ↔ other < name

theorem Upcoming.of_eq_append (hfs : fs.IsTree) {here : Location} {done more : List String}
    {name : String} (h : fs.namesAt here = done ++ name :: more) : Upcoming fs here done name := by
  have horder := h ▸ FileSystem.pairwise_namesAt hfs here
  have hmem : ∀ other ∈ fs.namesAt here, other ∈ done ↔ other < name := by
    rw [h]
    exact fun other hother => mem_iff_lt horder hother
  refine ⟨by simp [h], fun other hother => (hmem other ?_).mp hother, hmem⟩
  exact h ▸ List.mem_append_left _ hother

/-- Where names lead to one directory only, the first route by the next name goes on as the first one from
there. -/
theorem Enters.firstRoute_cons_iff {here next there : Location} {name : String} {names done : List String}
    {avoid visited : List Location} (henters : Enters fs options here name next)
    (h : Swept (Enters fs options) avoid here done visited) (hhere : here ∉ avoid)
    (hnext : Upcoming fs here done name) :
    FirstRoute (Enters fs options) avoid here (name :: names) there ↔
      FirstRoute (Enters fs options) visited next names there := by
  refine h.firstRoute_cons_iff hhere (fun other _ hother => hnext.mem_iff other hother.mem) fun other => ?_
  exact ⟨fun hother => henters.unique hother, fun heq => heq ▸ henters⟩

/-- The entry leads to a file. -/
def LeadsToFile (fs : FileSystem) (here : Location) (name : String) : Prop :=
  ∃ location content, fs.follow here name = .ok (location, .file content)

/-- The system cannot resolve the path, although something may be there. -/
def Obstructs (fs : FileSystem) (path : Path) (e : Errno) : Prop :=
  fs.lookUp true path = .error e ∧ e ≠ .notFound

/-- Of a path without obstruction it does not matter by which way its directory was reached. -/
theorem lookUp_of_not_obstructs {here : Location} (hp : fs.lookUp true p = .ok (here, .directory))
    {name : String} (h : ∀ e, ¬ Obstructs fs (p.child name) e) :
    fs.lookUp true (p.child name) = fs.follow here name := by
  rcases FileSystem.lookUp_child hp name with hloop | heq
  · exact absurd ⟨hloop, by decide⟩ (h .linkLoop)
  · exact heq

theorem passFile_of_isFile (hglobs : options.globs = globs.map .ok) {e : Listed} {t : Trail}
    (his : fs.isFile e = .ok true) :
    passFile fs options t e =
      t.note (if Glob.excludes globs e.path then .excluded e.path else .found e.path) := by
  rw [passFile, his, hglobs]
  simp only [Glob.anyFits_map_ok]
  cases Glob.excludes globs e.path <;> rfl

theorem pass_of_sees {enter : Path → Trail → Trail} {e : Listed} {t : Trail}
    (hgoing : t.stopped = none) (hseen : options.sees e.name = true) :
    pass fs options enter t e =
      match fs.isDirectory options.followLinks e with
      | .error d => t.stop d
      | .ok true => enter e.path t
      | .ok false => passFile fs options t e := by
  have hhidden : (!options.allowHidden && isHidden e.name) = false := by
    rw [WalkOptions.sees] at hseen
    cases hallow : options.allowHidden <;> simp_all
  rw [pass, hgoing, hhidden]
  rfl

theorem pass_of_not_sees {enter : Path → Trail → Trail} {e : Listed} {t : Trail}
    (hhidden : ¬ options.sees e.name = true) : pass fs options enter t e = t := by
  have hskip : (!options.allowHidden && isHidden e.name) = true := by
    rw [WalkOptions.sees] at hhidden
    cases hallow : options.allowHidden <;> simp_all
  rw [pass, hskip]
  exact ite_self t

/-- What a walk makes of an entry depends on where its path leads. -/
theorem pass_eq (hfs : fs.IsTree) (hglobs : options.globs = globs.map .ok) {here : Location}
    (hp : fs.lookUp true p = .ok (here, .directory)) {e : Listed} (hpath : e.path = p.child e.name)
    (hentry : fs.entryAt? (here ++ [e.name]) = some e.entry) (enter : Path → Trail → Trail)
    {t : Trail} (hgoing : t.stopped = none) (hseen : options.sees e.name = true) :
    pass fs options enter t e =
      match fs.lookUp true e.path with
      | .ok (_, .directory) =>
        if options.followLinks ∨ e.entry = .directory then enter e.path t else t
      | .ok (_, .file _) =>
        t.note (if Glob.excludes globs e.path then .excluded e.path else .found e.path)
      | .ok _ => t
      | .error .notFound => t
      | .error err => t.stop (.refused ⟨err, some e.path.render⟩) := by
  rw [pass_of_sees hgoing hseen]
  have hfound (h : ∀ target, e.entry ≠ .link target) :
      fs.lookUp true e.path = .ok (here ++ [e.name], e.entry) :=
    hpath ▸ FileSystem.lookUp_child_of_ne_link hfs hp hentry h
  cases he : e.entry with
  | link target =>
    -- When links are entered, a link is asked for twice, and both answers come from the same look-up.
    rw [FileSystem.isDirectory, he]
    cases hlook : fs.lookUp true e.path with
    | error err =>
      cases err <;> cases options.followLinks <;>
        simp [FileSystem.linkSatisfies, FileSystem.isFile, passFile, he, hlook]
    | ok found =>
      obtain ⟨location, x⟩ := found
      have hisFile : fs.isFile e = .ok (FileSystem.isFileEntry x) := by
        rw [FileSystem.isFile, he, FileSystem.linkSatisfies, hlook]
      have hisDirectory : fs.linkSatisfies (· == .directory) e.path = .ok (x == .directory) := by
        rw [FileSystem.linkSatisfies, hlook]
      rw [hisDirectory]
      cases x with
      | file content =>
        cases options.followLinks <;> exact passFile_of_isFile hglobs hisFile
      | directory => cases options.followLinks <;> simp [passFile, hisFile, FileSystem.isFileEntry]
      | _ =>
        have hnothing : passFile fs options t e = t := by
          simp [passFile, hisFile, FileSystem.isFileEntry]
        cases options.followLinks <;> exact hnothing
  | directory =>
    rw [hfound (by simp [he]), FileSystem.isDirectory, he]
    simp
  | file content =>
    rw [hfound (by simp [he]), FileSystem.isDirectory, he]
    exact passFile_of_isFile hglobs (by simp [FileSystem.isFile, FileSystem.isFileEntry, he])
  | pipe =>
    rw [hfound (by simp [he]), FileSystem.isDirectory, he]
    simp [passFile, FileSystem.isFile, FileSystem.isFileEntry, he]

/-! ## What a walk comes upon -/

/-- The walk from `start` looks at an entry under the names `q`, and `P` holds of the entry and its path. -/
def ComesUpon (fs : FileSystem) (options : WalkOptions) (P : Location → String → Path → Prop)
    (p : Path) (avoid : List Location) (start : Location) (q : List String) : Prop :=
  ∃ route here name, q = route ++ [name] ∧
    FirstRoute (Enters fs options) avoid start route here ∧
    name ∈ fs.namesAt here ∧ options.sees name = true ∧ P here name (p.under q)

/-- The entry leads to a file that no glob fits. -/
def Finds (fs : FileSystem) (globs : List Glob) (here : Location) (name : String) (file : Path) :
    Prop :=
  LeadsToFile fs here name ∧ Glob.excludes globs file = false

namespace ComesUpon

variable {P : Location → String → Path → Prop} {avoid : List Location} {start : Location}
  {q rest : List String} {name : String}

theorem singleton (hstart : start ∉ avoid) (hmem : name ∈ fs.namesAt start)
    (hseen : options.sees name = true) (hP : P start name (p.child name)) :
    ComesUpon fs options P p avoid start [name] :=
  ⟨[], start, name, rfl, FirstRoute.nil_iff.mpr ⟨hstart, rfl⟩, hmem, hseen, hP⟩

theorem exists_eq_cons (h : ComesUpon fs options P p avoid start q) :
    ∃ name ∈ fs.namesAt start, ∃ rest, q = name :: rest ∧ options.sees name = true := by
  obtain ⟨route, here, name, rfl, hfirst, hmem, hseen, -⟩ := h
  cases route with
  | nil =>
    obtain ⟨-, rfl⟩ := FirstRoute.nil_iff.mp hfirst
    exact ⟨name, hmem, [], rfl, hseen⟩
  | cons first route =>
    obtain ⟨hroute, -⟩ := hfirst
    cases hroute with
    | step _ henters _ => exact ⟨first, henters.mem, route ++ [name], rfl, henters.seen⟩

/-- Behind a search that is through with the lesser names, the walk comes upon the next entry itself, and
upon what a walk from there comes upon that avoids all that was visited. -/
theorem cons_iff {done : List String} {visited : List Location}
    (h : Swept (Enters fs options) avoid start done visited) (hstart : start ∉ avoid)
    (hnext : Upcoming fs start done name) :
    ComesUpon fs options P p avoid start (name :: rest) ↔
      (rest = [] ∧ name ∈ fs.namesAt start ∧ options.sees name = true ∧ P start name (p.child name)) ∨
      ∃ next, Enters fs options start name next ∧
        ComesUpon fs options P (p.child name) visited next rest := by
  constructor
  · rintro ⟨route, here, last, hq, hfirst, hmem, hseen, hP⟩
    cases route with
    | nil =>
      obtain ⟨rfl, rfl⟩ := List.cons.inj hq
      obtain ⟨-, rfl⟩ := FirstRoute.nil_iff.mp hfirst
      exact .inl ⟨rfl, hmem, hseen, hP⟩
    | cons first route =>
      obtain ⟨rfl, rfl⟩ := List.cons.inj hq
      obtain ⟨next, henters⟩ : ∃ next, Enters fs options start name next := by
        cases hfirst.route with
        | step _ henters _ => exact ⟨_, henters⟩
      refine .inr ⟨next, henters, route, here, last, rfl, ?_, hmem, hseen, ?_⟩
      · exact (henters.firstRoute_cons_iff h hstart hnext).mp hfirst
      · rwa [Path.child_under]
  · rintro (⟨rfl, hmem, hseen, hP⟩ | ⟨next, henters, route, here, last, rfl, hfirst, hmem, hseen, hP⟩)
    · exact singleton hstart hmem hseen hP
    · refine ⟨name :: route, here, last, rfl, ?_, hmem, hseen, ?_⟩
      · exact (henters.firstRoute_cons_iff h hstart hnext).mpr hfirst
      · rwa [Path.child_under] at hP

theorem start_not_mem (h : ComesUpon fs options P p avoid start q) : start ∉ avoid := by
  obtain ⟨_, _, _, -, hfirst, -⟩ := h
  exact hfirst.route.start_not_mem

/-- Nothing is come upon by an entry that is not entered, but the entry. -/
theorem cons_iff_of_not_entered {done : List String} {visited : List Location}
    (h : Swept (Enters fs options) avoid start done visited) (hstart : start ∉ avoid)
    (hnext : Upcoming fs start done name)
    (hnot : ∀ next, Enters fs options start name next → next ∈ visited) :
    ComesUpon fs options P p avoid start (name :: rest) ↔
      rest = [] ∧ name ∈ fs.namesAt start ∧ options.sees name = true ∧ P start name (p.child name) := by
  rw [cons_iff h hstart hnext, or_iff_left_iff_imp]
  rintro ⟨next, henters, hcomes⟩
  exact absurd (hnot next henters) hcomes.start_not_mem

end ComesUpon

/-! ## Trails -/

/-- What a walk has visited: directories, each of them once. -/
structure Explored (fs : FileSystem) (visited : List Location) : Prop where
  nodup : visited.Nodup
  directories : ∀ there ∈ visited, fs.entryAt? there = some .directory

namespace Explored

variable {visited : List Location} {there : Location}

theorem cons (h : Explored fs visited) (hthere : there ∉ visited)
    (hdirectory : fs.entryAt? there = some .directory) : Explored fs (there :: visited) where
  nodup := List.nodup_cons.mpr ⟨hthere, h.nodup⟩
  directories := by
    rintro other (_ | ⟨_, hother⟩)
    · exact hdirectory
    · exact h.directories other hother

/-- There are no more directories than entries, and the top. -/
theorem length_le (h : Explored fs visited) : visited.length ≤ fs.entries.length + 1 := by
  have hsub : visited ⊆ [] :: fs.entries.keys := by
    intro there hthere
    cases there with
    | nil => exact List.mem_cons_self
    | cons name rest =>
      exact List.mem_cons_of_mem _
        (Assoc.mem_keys_of_mem (Assoc.mem_of_get? (h.directories _ hthere)))
  simpa [Assoc.keys] using (List.subperm_of_subset h.nodup hsub).length_le

end Explored

/-- The trail `t'` of a walk that had come as far as `t` and is now through with the directory `start`, which
is at the path `p`. -/
structure Through (fs : FileSystem) (options : WalkOptions) (globs : List Glob) (p : Path)
    (start : Location) (t t' : Trail) : Prop where
  going : t'.stopped = none
  explored : Explored fs t'.visited
  mem_visited : ∀ there, there ∈ t'.visited ↔
    there ∈ t.visited ∨ ∃ route, Route (Enters fs options) t.visited start route there
  first : ∀ there ∈ t'.visited, there ∉ t.visited →
    ∃ route, FirstRoute (Enters fs options) t.visited start route there
  clear : ∀ q e, ¬ ComesUpon fs options (fun _ _ path => Obstructs fs path e) p t.visited start q
  files : ∃ found : List (List String), t'.files = t.files ++ found.map p.under ∧
    found.Pairwise Before ∧ ∀ q, q ∈ found ↔ ComesUpon fs options (Finds fs globs) p t.visited start q

/-- The trail `t'` of a walk that was stopped on the way. -/
def Stuck (fs : FileSystem) (options : WalkOptions) (p : Path) (start : Location) (t t' : Trail) :
    Prop :=
  ∃ q e, ComesUpon fs options (fun _ _ path => Obstructs fs path e) p t.visited start q ∧
    t'.stopped = some (.refused ⟨e, some (p.under q).render⟩)

/-- The trail `t'` of a walk that is in the directory `start` and is through with the entries in `done`. -/
structure Sweep (fs : FileSystem) (options : WalkOptions) (globs : List Glob) (p : Path)
    (start : Location) (t : Trail) (done : List String) (t' : Trail) : Prop where
  going : t'.stopped = none
  explored : Explored fs t'.visited
  swept : Swept (Enters fs options) t.visited start done t'.visited
  first : ∀ there ∈ t'.visited, there ∉ t.visited →
    ∃ route, FirstRoute (Enters fs options) t.visited start route there
  clear : ∀ name ∈ done, ∀ rest e, ¬ ComesUpon fs options (fun _ _ path => Obstructs fs path e)
    p t.visited start (name :: rest)
  files : ∃ found : List (List String), t'.files = t.files ++ found.map p.under ∧
    found.Pairwise Before ∧ ∀ q, q ∈ found ↔ ∃ name ∈ done, ∃ rest, q = name :: rest ∧
      ComesUpon fs options (Finds fs globs) p t.visited start (name :: rest)

namespace Sweep

variable {start : Location} {t t' t'' : Trail} {done more : List String} {name : String}

theorem init (hexplored : Explored fs t.visited) (hgoing : t.stopped = none)
    (hstart : start ∉ t.visited) (hdirectory : fs.entryAt? start = some .directory) :
    Sweep fs options globs p start t [] (t.enter start) where
  going := hgoing
  explored := hexplored.cons hstart hdirectory
  swept := .start
  first := by
    rintro there (_ | ⟨_, hthere⟩) hfree
    · exact ⟨[], FirstRoute.nil_iff.mpr ⟨hstart, rfl⟩⟩
    · exact absurd hthere hfree
  clear := by simp
  files := ⟨[], by simp, .nil, by simp⟩

/-- One more entry: `hfound` is what is found by it. -/
theorem step (h : Sweep fs options globs p start t done t')
    (hnext : Upcoming fs start done name)
    (hgoing : t''.stopped = none) (hexplored : Explored fs t''.visited)
    (hswept : Swept (Enters fs options) t.visited start (done ++ [name]) t''.visited)
    (hfirst : ∀ there ∈ t''.visited, there ∉ t'.visited →
      ∃ route, FirstRoute (Enters fs options) t.visited start route there)
    (hclear : ∀ rest e, ¬ ComesUpon fs options (fun _ _ path => Obstructs fs path e) p t.visited
      start (name :: rest))
    (hfound : ∃ found : List (List String),
      t''.files = t'.files ++ (found.map (name :: ·)).map p.under ∧ found.Pairwise Before ∧
      ∀ rest, rest ∈ found ↔ ComesUpon fs options (Finds fs globs) p t.visited start (name :: rest)) :
    Sweep fs options globs p start t (done ++ [name]) t'' where
  going := hgoing
  explored := hexplored
  swept := hswept
  first there hthere hfree := by
    by_cases hold : there ∈ t'.visited
    · exact h.first there hold hfree
    · exact hfirst there hthere hold
  clear other hother := by
    rcases List.mem_append.mp hother with hother | hother
    · exact h.clear other hother
    · exact List.mem_singleton.mp hother ▸ hclear
  files := p.exists_found_concat hnext.lt h.files hfound

/-- An entry that is not entered, and is no file to be found either. -/
theorem skip (h : Sweep fs options globs p start t done t') (hstart : start ∉ t.visited)
    (hnext : Upcoming fs start done name)
    (hnot : ∀ next, Enters fs options start name next → next ∈ t'.visited)
    (hclear : options.sees name = true → ∀ e, ¬ Obstructs fs (p.child name) e)
    (hfinds : options.sees name = true → ¬ Finds fs globs start name (p.child name))
    (hgoing : t''.stopped = none) (hvisited : t''.visited = t'.visited)
    (hfiles : t''.files = t'.files) :
    Sweep fs options globs p start t (done ++ [name]) t'' := by
  refine h.step hnext hgoing (hvisited ▸ h.explored) (hvisited ▸ h.swept.skip hnot) ?_ ?_ ?_
  · exact fun there hthere hfree => absurd (hvisited ▸ hthere) hfree
  · intro rest e hcomes
    obtain ⟨-, -, hseen, hobstructs⟩ :=
      (ComesUpon.cons_iff_of_not_entered h.swept hstart hnext hnot).mp hcomes
    exact hclear hseen e hobstructs
  · refine ⟨[], by simp [hfiles], .nil, fun rest => ?_⟩
    rw [ComesUpon.cons_iff_of_not_entered h.swept hstart hnext hnot]
    constructor
    · exact fun hmem => absurd hmem List.not_mem_nil
    · rintro ⟨-, -, hseen, hfind⟩
      exact absurd hfind (hfinds hseen)

/-- An entry that is a file to be found. -/
theorem found (h : Sweep fs options globs p start t done t') (hstart : start ∉ t.visited)
    (hnext : Upcoming fs start done name)
    (hseen : options.sees name = true) (hclear : ∀ e, ¬ Obstructs fs (p.child name) e)
    (hfinds : Finds fs globs start name (p.child name)) :
    Sweep fs options globs p start t (done ++ [name]) (t'.note (.found (p.child name))) := by
  have hnot : ∀ next, Enters fs options start name next → next ∈ t'.visited := by
    intro next henters
    obtain ⟨⟨location, content, hfile⟩, -⟩ := hfinds
    rw [henters.leads] at hfile
    cases hfile
  refine h.step hnext h.going h.explored (h.swept.skip hnot) ?_ ?_ ?_
  · exact fun there hthere hfree => absurd hthere hfree
  · intro rest e hcomes
    obtain ⟨-, -, -, hobstructs⟩ :=
      (ComesUpon.cons_iff_of_not_entered h.swept hstart hnext hnot).mp hcomes
    exact hclear e hobstructs
  · refine ⟨[[]], ?_, List.pairwise_singleton Before [], fun rest => ?_⟩
    · simp [WalkEvent.file?, Path.under_singleton]
    · rw [ComesUpon.cons_iff_of_not_entered h.swept hstart hnext hnot, List.mem_singleton]
      exact ⟨fun heq => ⟨heq, hnext.mem, hseen, hfinds⟩, fun hall => hall.1⟩

/-- An entry that leads to a directory that is new. -/
theorem entered (h : Sweep fs options globs p start t done t') (hstart : start ∉ t.visited)
    (hnext : Upcoming fs start done name) {next : Location}
    (henters : Enters fs options start name next)
    (hlook : fs.lookUp true (p.child name) = .ok (next, .directory))
    (hthrough : Through fs options globs (p.child name) next t' t'') :
    Sweep fs options globs p start t (done ++ [name]) t'' := by
  have hcons {P : Location → String → Path → Prop} (hP : ¬ P start name (p.child name))
      (rest : List String) : ComesUpon fs options P p t.visited start (name :: rest) ↔
        ComesUpon fs options P (p.child name) t'.visited next rest := by
    rw [ComesUpon.cons_iff h.swept hstart hnext]
    constructor
    · rintro (⟨-, -, -, hhere⟩ | ⟨other, hother, hcomes⟩)
      · exact absurd hhere hP
      · exact henters.unique hother ▸ hcomes
    · exact fun hcomes => .inr ⟨next, henters, hcomes⟩
  refine h.step hnext hthrough.going hthrough.explored ?_ ?_ ?_ ?_
  · refine h.swept.visit (fun other => ?_) hthrough.mem_visited
    exact ⟨fun hother => henters.unique hother, fun heq => heq ▸ henters⟩
  · intro there hthere hfree
    obtain ⟨route, hroute⟩ := hthrough.first there hthere hfree
    exact ⟨name :: route, (henters.firstRoute_cons_iff h.swept hstart hnext).mpr hroute⟩
  · intro rest e
    rw [hcons (by simp [Obstructs, hlook])]
    exact hthrough.clear rest e
  · obtain ⟨found, hfiles, horder, hfound⟩ := hthrough.files
    refine ⟨found, ?_, horder, fun rest => ?_⟩
    · rw [hfiles, Path.map_child_under]
    · rw [hfound, hcons]
      rintro ⟨⟨location, content, hfile⟩, -⟩
      rw [henters.leads] at hfile
      cases hfile

/-- A walk that is through with all names of a directory is through with it. -/
theorem through (h : Sweep fs options globs p start t (fs.namesAt start) t') (hstart : start ∉ t.visited) :
    Through fs options globs p start t t' where
  going := h.going
  explored := h.explored
  first := h.first
  mem_visited there := by
    rw [h.swept.mem_iff, List.mem_cons]
    constructor
    · rintro ((rfl | hold) | ⟨name, -, next, henters, names, hroute⟩)
      · exact .inr ⟨[], .here hstart⟩
      · exact .inl hold
      · exact .inr ⟨name :: names, .step hstart henters hroute⟩
    · rintro (hold | ⟨route, hroute⟩)
      · exact .inl (.inr hold)
      · cases hroute with
        | here _ => exact .inl (.inl rfl)
        | @step _ _ next _ name names _ henters hroute =>
          exact .inr ⟨name, henters.mem, next, henters, names, hroute⟩
  clear q e hcomes := by
    obtain ⟨name, hname, rest, rfl, -⟩ := hcomes.exists_eq_cons
    exact h.clear name hname rest e hcomes
  files := by
    obtain ⟨found, hfiles, horder, hfound⟩ := h.files
    refine ⟨found, hfiles, horder, fun q => ?_⟩
    rw [hfound]
    constructor
    · rintro ⟨name, -, rest, rfl, hcomes⟩
      exact hcomes
    · intro hcomes
      obtain ⟨name, hname, rest, rfl, -⟩ := hcomes.exists_eq_cons
      exact ⟨name, hname, rest, rfl, hcomes⟩

end Sweep

namespace Stuck

variable {start : Location} {t t' t'' : Trail} {name : String}

theorem here (hstart : start ∉ t.visited) (hmem : name ∈ fs.namesAt start)
    (hseen : options.sees name = true) {e : Errno} (h : Obstructs fs (p.child name) e)
    (hstopped : t'.stopped = some (.refused ⟨e, some (p.child name).render⟩)) :
    Stuck fs options p start t t' :=
  ⟨[name], e, .singleton hstart hmem hseen h, hstopped⟩

theorem below {done : List String} (h : Sweep fs options globs p start t done t')
    (hstart : start ∉ t.visited) (hnext : Upcoming fs start done name) {next : Location}
    (henters : Enters fs options start name next)
    (hstuck : Stuck fs options (p.child name) next t' t'') : Stuck fs options p start t t'' := by
  obtain ⟨q, e, hcomes, hstopped⟩ := hstuck
  have hcomes' := (ComesUpon.cons_iff h.swept hstart hnext).mpr (.inr ⟨next, henters, hcomes⟩)
  refine ⟨name :: q, e, hcomes', ?_⟩
  rwa [← Path.child_under]

end Stuck

/-! ## The walk through a directory -/

theorem visit_of_visited (options : WalkOptions) (hfs : fs.IsOpen) {here : Location}
    (hp : fs.lookUp true p = .ok (here, .directory)) {t : Trail} (hmem : here ∈ t.visited)
    (depth : Nat) :
    visit fs options depth p t = t ∨ visit fs options depth p t = t.note (.revisited p) := by
  cases depth with
  | zero => exact .inl rfl
  | succ depth =>
    rw [visit, hfs.stat_eq hp]
    exact .inr (if_pos hmem)

theorem visit_of_new (hfs : fs.IsOpen) {here : Location}
    (hp : fs.lookUp true p = .ok (here, .directory)) {t : Trail} (hnew : here ∉ t.visited)
    (depth : Nat) :
    visit fs options (depth + 1) p t =
      (fs.listAt p here).foldl (pass fs options (visit fs options depth)) (t.enter here) := by
  rw [visit, hfs.stat_eq hp, hfs.list_eq hp]
  exact if_neg hnew

theorem foldl_pass_of_stopped {enter : Path → Trail → Trail} {t : Trail} (h : t.stopped.isSome)
    (entries : List Listed) : entries.foldl (pass fs options enter) t = t := by
  induction entries with
  | nil => rfl
  | cons e entries ih => rw [List.foldl_cons, pass, if_pos h, ih]

/-- What a visit does to a trail from which there is a look left for each directory that is new. -/
def Visits (fs : FileSystem) (options : WalkOptions) (globs : List Glob) (depth : Nat) : Prop :=
  ∀ {p : Path} {here : Location} {t : Trail}, fs.lookUp true p = .ok (here, .directory) →
    t.stopped = none → Explored fs t.visited → here ∉ t.visited →
    fs.entries.length + 2 ≤ depth + t.visited.length →
    Through fs options globs p here t (visit fs options depth p t) ∨
      Stuck fs options p here t (visit fs options depth p t)

section Visit

variable {start : Location} {t t' : Trail} {done : List String} {depth : Nat} {e : Listed}

/-- An entry that leads to no directory and to no file. -/
theorem Sweep.pass_neither (h : Sweep fs options globs p start t done t') (hstart : start ∉ t.visited)
    (hnext : Upcoming fs start done e.name) (hclear : ∀ err, ¬ Obstructs fs (p.child e.name) err)
    (hdirectory : ∀ location, fs.follow start e.name ≠ .ok (location, .directory))
    (hfile : ¬ LeadsToFile fs start e.name) :
    Sweep fs options globs p start t (done ++ [e.name]) t' := by
  refine h.skip hstart hnext ?_ (fun _ => hclear) (fun _ hfinds => hfile hfinds.1) h.going rfl rfl
  exact fun next henters => absurd henters.leads (hdirectory next)

/-- An entry that leads to a file: it is found, or left out. -/
theorem Sweep.pass_file (h : Sweep fs options globs p start t done t') (hstart : start ∉ t.visited)
    (hnext : Upcoming fs start done e.name) (hclear : ∀ err, ¬ Obstructs fs (p.child e.name) err)
    (hseen : options.sees e.name = true) {location : Location} {content : Content}
    (hfollow : fs.follow start e.name = .ok (location, .file content)) :
    Sweep fs options globs p start t (done ++ [e.name])
      (t'.note (if Glob.excludes globs (p.child e.name) then .excluded (p.child e.name)
        else .found (p.child e.name))) := by
  cases hexcluded : Glob.excludes globs (p.child e.name) with
  | false => exact h.found hstart hnext hseen hclear ⟨⟨location, content, hfollow⟩, hexcluded⟩
  | true =>
    refine h.skip hstart hnext ?_ (fun _ => hclear) ?_ h.going rfl ?_
    · intro next henters
      cases hfollow.symm.trans henters.leads
    · rintro - ⟨-, hkept⟩
      rw [hexcluded] at hkept
      cases hkept
    · simp [WalkEvent.file?]

/-- An entry that leads to a directory: it is not to be entered, visited already, or new. -/
theorem Sweep.pass_directory (h : Sweep fs options globs p start t done t')
    (hfs : fs.IsOpen) (hvisits : Visits fs options globs depth) (hstart : start ∉ t.visited)
    (hfuel : fs.entries.length + 2 ≤ depth + t'.visited.length)
    (hentry : fs.entryAt? (start ++ [e.name]) = some e.entry)
    (hnext : Upcoming fs start done e.name) (hclear : ∀ err, ¬ Obstructs fs (p.child e.name) err)
    (hseen : options.sees e.name = true) {location : Location}
    (hlook : fs.lookUp true (p.child e.name) = .ok (location, .directory))
    (hfollow : fs.follow start e.name = .ok (location, .directory)) :
    let t'' := if options.followLinks ∨ e.entry = .directory
      then visit fs options depth (p.child e.name) t' else t'
    Sweep fs options globs p start t (done ++ [e.name]) t'' ∨ Stuck fs options p start t t'' := by
  have hfinds : ¬ Finds fs globs start e.name (p.child e.name) := by
    rintro ⟨⟨_, _, hfile⟩, -⟩
    cases hfollow.symm.trans hfile
  intro t''
  by_cases hallowed : options.followLinks ∨ e.entry = .directory
  · rw [show t'' = visit fs options depth (p.child e.name) t' from if_pos hallowed]
    have henters : Enters fs options start e.name location :=
      ⟨hnext.mem, hseen, hfollow, hallowed.imp id fun he => hentry.trans (congrArg some he)⟩
    by_cases hvisited : location ∈ t'.visited
    · have hback {t'' : Trail} (hgoing : t''.stopped = none) (hsame : t''.visited = t'.visited)
          (hfiles : t''.files = t'.files) : Sweep fs options globs p start t (done ++ [e.name]) t'' :=
        h.skip hstart hnext (fun next hother => henters.unique hother ▸ hvisited) (fun _ => hclear)
          (fun _ => hfinds) hgoing hsame hfiles
      rcases visit_of_visited options hfs hlook hvisited depth with heq | heq
      · exact .inl (hback (by rw [heq, h.going]) (by rw [heq]) (by rw [heq]))
      · refine .inl (hback (by rw [heq]; exact h.going) (by rw [heq]; rfl) ?_)
        rw [heq]
        simp [WalkEvent.file?]
    · rcases hvisits hlook h.going h.explored hvisited hfuel with hthrough | hstuck
      · exact .inl (h.entered hstart hnext henters hlook hthrough)
      · exact .inr (.below h hstart hnext henters hstuck)
  · rw [show t'' = t' from if_neg hallowed]
    refine .inl (h.skip hstart hnext ?_ (fun _ => hclear) (fun _ => hfinds) h.going rfl rfl)
    intro next henters
    refine absurd (henters.allowed.imp id fun hdirectory => ?_) hallowed
    exact Option.some.inj (hentry.symm.trans hdirectory)

/-- One entry: the walk is through with it too, or stuck. -/
theorem Sweep.pass (h : Sweep fs options globs p start t done t') (hfs : fs.IsOpen)
    (hglobs : options.globs = globs.map .ok) (hvisits : Visits fs options globs depth)
    (hp : fs.lookUp true p = .ok (start, .directory)) (hstart : start ∉ t.visited)
    (hfuel : fs.entries.length + 2 ≤ depth + t'.visited.length)
    (hpath : e.path = p.child e.name) (hentry : fs.entryAt? (start ++ [e.name]) = some e.entry)
    (hnext : Upcoming fs start done e.name) :
    let t'' := Walk.pass fs options (visit fs options depth) t' e
    Sweep fs options globs p start t (done ++ [e.name]) t'' ∨ Stuck fs options p start t t'' := by
  intro t''
  by_cases hseen : options.sees e.name = true
  swap
  · rw [show t'' = t' from pass_of_not_sees hseen]
    exact .inl (h.skip hstart hnext (fun _ henters => absurd henters.seen hseen)
      (fun hyes => absurd hyes hseen) (fun hyes => absurd hyes hseen) h.going rfl rfl)
  have hpass := pass_eq hfs.toIsTree hglobs hp hpath hentry (visit fs options depth) h.going hseen
  rw [hpath] at hpass
  by_cases hobstructed : ∃ err, Obstructs fs (p.child e.name) err
  · obtain ⟨err, hlook, hother⟩ := hobstructed
    refine .inr (.here hstart hnext.mem hseen ⟨hlook, hother⟩ ?_)
    rw [show t'' = _ from hpass, hlook]
    cases err with
    | notFound => exact absurd rfl hother
    | _ => rfl
  have hclear : ∀ err, ¬ Obstructs fs (p.child e.name) err :=
    fun err hobstructs => hobstructed ⟨err, hobstructs⟩
  have hfollow := (lookUp_of_not_obstructs hp hclear).symm
  cases hlook : fs.lookUp true (p.child e.name) with
  | error err =>
    rw [hlook] at hpass hfollow
    cases err with
    | notFound =>
      rw [show t'' = t' from hpass]
      exact .inl (h.pass_neither hstart hnext hclear (by simp [hfollow])
        (by simp [LeadsToFile, hfollow]))
    | _ => exact absurd ⟨hlook, by decide⟩ (hclear _)
  | ok found =>
    obtain ⟨location, x⟩ := found
    rw [hlook] at hpass hfollow
    cases x with
    | directory =>
      rw [show t'' = _ from hpass]
      exact h.pass_directory hfs hvisits hstart hfuel hentry hnext hclear hseen hlook hfollow
    | file content =>
      rw [show t'' = _ from hpass]
      exact .inl (h.pass_file hstart hnext hclear hseen hfollow)
    | _ =>
      rw [show t'' = t' from hpass]
      exact .inl (h.pass_neither hstart hnext hclear (by simp [hfollow])
        (by simp [LeadsToFile, hfollow]))

/-- All entries: the walk is through with the directory, or stuck. -/
theorem Sweep.run (hfs : fs.IsOpen) (hglobs : options.globs = globs.map .ok)
    (hvisits : Visits fs options globs depth) (hp : fs.lookUp true p = .ok (start, .directory))
    (hstart : start ∉ t.visited) (hexplored : Explored fs t.visited)
    (hfuel : fs.entries.length + 1 ≤ depth + t.visited.length) {entries : List Listed}
    (hentries : ∀ e ∈ entries, e ∈ fs.listAt p start)
    (hnames : fs.namesAt start = done ++ entries.map (·.name))
    (h : Sweep fs options globs p start t done t') :
    Through fs options globs p start t (entries.foldl (Walk.pass fs options (visit fs options depth)) t') ∨
      Stuck fs options p start t (entries.foldl (Walk.pass fs options (visit fs options depth)) t') := by
  induction entries generalizing done t' with
  | nil =>
    rw [List.map_nil, List.append_nil] at hnames
    exact .inl ((hnames ▸ h).through hstart)
  | cons e entries ih =>
    obtain ⟨hpath, hentry⟩ := FileSystem.of_mem_listAt (hentries e List.mem_cons_self)
    -- The directory itself is visited by now, which makes up for the level of depth that it took.
    have hgrown : t.visited.length + 1 ≤ t'.visited.length :=
      (List.subperm_of_subset (List.nodup_cons.mpr ⟨hstart, hexplored.nodup⟩) h.swept.subset).length_le
    rcases h.pass hfs hglobs hvisits hp hstart (by omega) hpath hentry
      (.of_eq_append hfs.toIsTree hnames) with hsweep | hstuck
    · refine ih (fun e' he' => hentries e' (List.mem_cons_of_mem e he')) ?_ hsweep
      rw [hnames, List.map_cons, List.append_assoc, List.singleton_append]
    · rw [List.foldl_cons, foldl_pass_of_stopped]
      · exact .inr hstuck
      · obtain ⟨_, _, -, hstopped⟩ := hstuck
        rw [hstopped, Option.isSome_some]

end Visit

/-- A visit goes through, or is stopped by a path that cannot be resolved. -/
theorem visits (hfs : fs.IsOpen) (hglobs : options.globs = globs.map .ok) (depth : Nat) :
    Visits fs options globs depth := by
  induction depth with
  | zero =>
    intro p here t _ _ hexplored _ hfuel
    -- There would be more directories behind the walk than there are in all.
    have := hexplored.length_le
    omega
  | succ depth ih =>
    intro p here t hp hgoing hexplored hnew hfuel
    rw [visit_of_new hfs hp hnew]
    refine Sweep.run hfs hglobs ih hp hnew hexplored (by omega) (fun _ he => he) ?_
      (.init hexplored hgoing hnew (FileSystem.entryAt?_of_lookUp hp))
    rw [FileSystem.listAt_names hfs.toIsTree, List.nil_append]

/-- A walk goes through the tree at its root, or is stopped by a path that cannot be resolved. -/
theorem ofRoot_outcome (hfs : fs.IsOpen) (hglobs : options.globs = globs.map .ok) {root : Path}
    {top : Location} (hroot : fs.lookUp true root = .ok (top, .directory)) :
    Through fs options globs root top {} (ofRoot fs options root) ∨
      Stuck fs options root top {} (ofRoot fs options root) :=
  visits hfs hglobs (maxDepth fs) hroot rfl ⟨.nil, by simp⟩ List.not_mem_nil (Nat.le_refl _)

end Walk

end SourceCensus
