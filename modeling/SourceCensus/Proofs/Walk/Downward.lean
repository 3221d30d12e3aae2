import Mathlib
import SourceCensus.Proofs.FileSystem.Reordering
import SourceCensus.Proofs.Walk.Visits

/-!
# Walks that enter no links

A walk that enters no links sees a tree in the plain sense of the word: one list of names leads to each
directory below the root, and a second visit to one never happens.  So what it finds can be said without the
walk, path by path:

> it finds the path of an entry below the root exactly if the entry leads to a file, by a link or not, each
> directory on the way down is one itself and no link to one, the system says what these and the root are and
> lists them, no name on the way is hidden, and no glob fits.  The paths come in the order of their names,
> component by component, and so each of them once (`ofRoot_downward`).

A directory that the system refuses is passed over with all that is below it.  An entry that cannot be resolved
would stop the walk, so there must be none (`EntriesResolve`).  A glob that could not be read stops it as well,
but it takes nothing away from what is found: either an earlier glob fits a file, or the walk ends there.
-/

set_option autoImplicit false

namespace SourceCensus

namespace FileSystem

/-- A directory is at the path itself, and no link to one. -/
def IsRealDirectory (fs : FileSystem) (p : Path) : Prop :=
  ∃ location, fs.lookUp false p = .ok (location, .directory)

/-- The system says what the path leads to, and lists it. -/
def IsAccessible (fs : FileSystem) (p : Path) : Prop :=
  (∃ found, fs.stat p = .ok found) ∧ ∃ entries, fs.list p = .ok entries

variable {fs : FileSystem} {p : Path} {here : Location} {name : String}

theorem isRealDirectory_child_iff (h : fs.lookUp true p = .ok (here, .directory))
    (hname : name ≠ "." ∧ name ≠ "..") :
    fs.IsRealDirectory (p.child name) ↔ fs.entryAt? (here ++ [name]) = some .directory := by
  constructor
  · rintro ⟨location, hlook⟩
    obtain ⟨e, he⟩ := exists_entry_of_lookUp_child h hname hlook
    rw [lookUp_false_child h hname he] at hlook
    cases hlook
    exact he
  · intro hentry
    exact ⟨_, lookUp_false_child h hname hentry⟩

end FileSystem

/-- A list of globs in which one could not be read never lets a path pass. -/
theorem Glob.anyFits_ne_ok_false {globs : List (Except Defect Glob)} {d : Defect} (h : .error d ∈ globs)
    (p : Path) : anyFits p globs ≠ .ok false := by
  induction globs with
  | nil => cases h
  | cons glob globs ih =>
    cases glob with
    | error d' => simp [anyFits]
    | ok g =>
      have hrest : Except.error d ∈ globs := by simpa using h
      rw [anyFits]
      split
      · simp
      · exact ih hrest

theorem Glob.exists_map_ok {globs : List (Except Defect Glob)} (h : ¬ ∃ d, .error d ∈ globs) :
    ∃ read : List Glob, globs = read.map .ok := by
  induction globs with
  | nil => exact ⟨[], rfl⟩
  | cons glob globs ih =>
    obtain ⟨read, hread⟩ := ih <| by
      rintro ⟨d, hd⟩
      exact h ⟨d, List.mem_cons_of_mem glob hd⟩
    cases glob with
    | error d => exact absurd ⟨d, List.mem_cons_self⟩ h
    | ok g => exact ⟨g :: read, by rw [hread, List.map_cons]⟩

namespace Walk

variable {fs : FileSystem} {options : WalkOptions} {globs : List Glob} {p : Path} {above rest : List String}
  {name : String}

/-! ## Ways down -/

/-- The names lead down from the path through directories, and through no link. -/
structure Descends (fs : FileSystem) (p : Path) (above : List String) : Prop where
  named : ∀ name ∈ above, name ≠ "." ∧ name ≠ ".."
  real : ∀ front, front <+: above → front ≠ [] → fs.IsRealDirectory (p.under front)

/-- An entry that a walk looks at can be resolved, or nothing is there. -/
def EntriesResolve (fs : FileSystem) (p : Path) : Prop :=
  ∀ above here name, Descends fs p above → fs.lookUp true (p.under above) = .ok (here, .directory) →
    name ∈ fs.namesAt here → ∀ e, ¬ Obstructs fs (p.under (above ++ [name])) e

theorem Descends.nil : Descends fs p [] where
  named := by simp
  real front hfront hne := absurd (List.prefix_nil.mp hfront) hne

theorem Descends.cons (hname : name ≠ "." ∧ name ≠ "..") (hreal : fs.IsRealDirectory (p.child name))
    (h : Descends fs (p.child name) above) : Descends fs p (name :: above) where
  named := List.forall_mem_cons.mpr ⟨hname, h.named⟩
  real front hfront hne := by
    cases front with
    | nil => exact absurd rfl hne
    | cons first front =>
      obtain ⟨rfl, hrest⟩ := List.cons_prefix_cons.mp hfront
      rw [← Path.child_under]
      by_cases hnil : front = []
      · rw [hnil, Path.under_nil]
        exact hreal
      · exact h.real front hrest hnil

theorem Descends.of_cons (h : Descends fs p (name :: above)) :
    (name ≠ "." ∧ name ≠ "..") ∧ fs.IsRealDirectory (p.child name) ∧ Descends fs (p.child name) above := by
  obtain ⟨hname, hnamed⟩ := List.forall_mem_cons.mp h.named
  refine ⟨hname, ?_, hnamed, ?_⟩
  · exact h.real [name] (by simp) (by simp)
  · intro front hfront _
    rw [Path.child_under]
    exact h.real (name :: front) (List.cons_prefix_cons.mpr ⟨rfl, hfront⟩) (by simp)

/-- A way down leads to the location that its names spell. -/
theorem Descends.lookUp_eq (hfs : fs.IsTree) (h : Descends fs p above) {start : Location}
    (hp : fs.lookUp true p = .ok (start, .directory)) :
    fs.lookUp true (p.under above) = .ok (start ++ above, .directory) := by
  induction above generalizing p start with
  | nil => simpa using hp
  | cons name above ih =>
    obtain ⟨hname, hreal, hrest⟩ := h.of_cons
    have hentry := (FileSystem.isRealDirectory_child_iff hp hname).mp hreal
    have hchild := FileSystem.lookUp_child_of_ne_link hfs hp hentry (by simp)
    have hlook := ih hrest hchild
    rwa [Path.child_under, List.append_assoc, List.singleton_append] at hlook

/-- The rows of the table tell whether all entries can be resolved. -/
theorem entriesResolve_of_keys (hfs : fs.IsTree) {start : Location}
    (hp : fs.lookUp true p = .ok (start, .directory))
    (h : ∀ names, start ++ names ∈ fs.entries.keys → ∀ e, ¬ Obstructs fs (p.under names) e) :
    EntriesResolve fs p := by
  intro above here name habove hlook hname
  cases (habove.lookUp_eq hfs hp).symm.trans hlook
  apply h
  rw [← List.append_assoc]
  exact FileSystem.mem_namesAt.mp hname

/-- What is to be found: the file `name` in the directory `above`, as seen from `p`. -/
structure Findable (fs : FileSystem) (options : WalkOptions) (p : Path) (above : List String)
    (name : String) : Prop where
  descends : Descends fs p above
  accessible : ∀ front, front <+: above → fs.IsAccessible (p.under front)
  named : name ≠ "." ∧ name ≠ ".."
  isFile : ∃ location content, fs.lookUp true (p.under (above ++ [name])) = .ok (location, .file content)
  seen : ∀ part ∈ above ++ [name], options.sees part = true
  kept : Glob.anyFits (p.under (above ++ [name])) options.globs = .ok false

theorem EntriesResolve.child (h : EntriesResolve fs p) (hname : name ≠ "." ∧ name ≠ "..")
    (hreal : fs.IsRealDirectory (p.child name)) : EntriesResolve fs (p.child name) := by
  intro above here last habove hlook hlast
  rw [Path.child_under] at hlook ⊢
  exact h (name :: above) here last (.cons hname hreal habove) hlook hlast

/-- The names behind `p` are those of something that is to be found. -/
def FindsBelow (fs : FileSystem) (options : WalkOptions) (p : Path) (q : List String) : Prop :=
  ∃ above name, q = above ++ [name] ∧ Findable fs options p above name

namespace FindsBelow

variable {q : List String}

theorem accessible (h : FindsBelow fs options p q) : fs.IsAccessible p := by
  obtain ⟨above, name, -, hfindable⟩ := h
  have hfront := hfindable.accessible [] (by simp)
  rwa [Path.under_nil] at hfront

theorem seen (h : FindsBelow fs options p q) : ∀ part ∈ q, options.sees part = true := by
  obtain ⟨above, name, rfl, hfindable⟩ := h
  exact hfindable.seen

theorem singleton (haccess : fs.IsAccessible p) (hname : name ≠ "." ∧ name ≠ "..")
    (hseen : options.sees name = true)
    (hfile : ∃ location content, fs.lookUp true (p.child name) = .ok (location, .file content))
    (hkept : Glob.anyFits (p.child name) options.globs = .ok false) :
    FindsBelow fs options p [name] := by
  refine ⟨[], name, rfl, .nil, ?_, hname, hfile, by simpa using hseen, hkept⟩
  intro front hfront
  rw [List.prefix_nil.mp hfront, Path.under_nil]
  exact haccess

theorem cons (haccess : fs.IsAccessible p) (hname : name ≠ "." ∧ name ≠ "..")
    (hseen : options.sees name = true) (hreal : fs.IsRealDirectory (p.child name))
    (h : FindsBelow fs options (p.child name) rest) : FindsBelow fs options p (name :: rest) := by
  obtain ⟨above, last, rfl, hfindable⟩ := h
  refine ⟨name :: above, last, rfl, hfindable.descends.cons hname hreal, ?_, hfindable.named, ?_, ?_, ?_⟩
  · intro front hfront
    cases front with
    | nil => simpa using haccess
    | cons first front =>
      obtain ⟨rfl, hrest⟩ := List.cons_prefix_cons.mp hfront
      rw [← Path.child_under]
      exact hfindable.accessible front hrest
  · have hfile := hfindable.isFile
    rwa [Path.child_under] at hfile
  · exact List.forall_mem_cons.mpr ⟨hseen, hfindable.seen⟩
  · have hkept := hfindable.kept
    rwa [Path.child_under] at hkept

/-- The first step down: to the file, or to a directory that is no link. -/
theorem first (h : FindsBelow fs options p q) :
    ∃ name rest, q = name :: rest ∧ (name ≠ "." ∧ name ≠ "..") ∧
      ((rest = [] ∧
        (∃ location content, fs.lookUp true (p.child name) = .ok (location, .file content)) ∧
        Glob.anyFits (p.child name) options.globs = .ok false) ∨
      (fs.IsRealDirectory (p.child name) ∧ FindsBelow fs options (p.child name) rest)) := by
  obtain ⟨above, last, rfl, hfindable⟩ := h
  cases above with
  | nil => exact ⟨last, [], rfl, hfindable.named, .inl ⟨rfl, hfindable.isFile, hfindable.kept⟩⟩
  | cons name above =>
    obtain ⟨hname, hreal, hdescends⟩ := hfindable.descends.of_cons
    refine ⟨name, above ++ [last], rfl, hname, .inr ⟨hreal, above, last, rfl, hdescends, ?_,
      hfindable.named, ?_, ?_, ?_⟩⟩
    · intro front hfront
      rw [Path.child_under]
      exact hfindable.accessible (name :: front) (List.cons_prefix_cons.mpr ⟨rfl, hfront⟩)
    · rw [Path.child_under]
      exact hfindable.isFile
    · exact fun part hpart => hfindable.seen part (List.mem_cons_of_mem name hpart)
    · rw [Path.child_under]
      exact hfindable.kept

end FindsBelow

/-- By an entry that is a directory one finds what is below it, and by another one the file that it leads
to. -/
theorem findsBelow_cons_iff {here : Location} {e : Listed} (hp : fs.lookUp true p = .ok (here, .directory))
    (haccess : fs.IsAccessible p) (hname : e.name ≠ "." ∧ e.name ≠ "..") (hseen : options.sees e.name = true)
    (hentry : fs.entryAt? (here ++ [e.name]) = some e.entry) (rest : List String) :
    FindsBelow fs options p (e.name :: rest) ↔
      (rest = [] ∧
        (∃ location content, fs.lookUp true (p.child e.name) = .ok (location, .file content)) ∧
        Glob.anyFits (p.child e.name) options.globs = .ok false) ∨
      (e.entry = .directory ∧ FindsBelow fs options (p.child e.name) rest) := by
  have hreal : fs.IsRealDirectory (p.child e.name) ↔ e.entry = .directory := by
    rw [FileSystem.isRealDirectory_child_iff hp hname, hentry, Option.some.injEq]
  rw [← hreal]
  constructor
  · intro h
    obtain ⟨name, rest', heq, -, hfirst⟩ := h.first
    obtain ⟨rfl, rfl⟩ := List.cons.inj heq
    exact hfirst
  · rintro (⟨rfl, hfile, hkept⟩ | ⟨hdirectory, hrest⟩)
    · exact .singleton haccess hname hseen hfile hkept
    · exact hrest.cons haccess hname hseen hdirectory

/-- What is found below a directory is found by one of its entries. -/
theorem FindsBelow.exists_mem_namesAt {here : Location} {q : List String}
    (hp : fs.lookUp true p = .ok (here, .directory)) (h : FindsBelow fs options p q) :
    ∃ name ∈ fs.namesAt here, ∃ rest, q = name :: rest := by
  obtain ⟨name, rest, rfl, hname, hfirst⟩ := h.first
  refine ⟨name, ?_, rest, rfl⟩
  rcases hfirst with ⟨-, ⟨location, content, hfile⟩, -⟩ | ⟨⟨location, hlook⟩, -⟩
  · obtain ⟨e, he⟩ := FileSystem.exists_entry_of_lookUp_child hp hname hfile
    exact FileSystem.mem_namesAt_of_entryAt? he
  · obtain ⟨e, he⟩ := FileSystem.exists_entry_of_lookUp_child hp hname hlook
    exact FileSystem.mem_namesAt_of_entryAt? he

/-! ## Trails -/

/-- The trail `t'` of a walk that had come as far as `t` and is now done with the directory `start`, which is
at the path `p`. -/
structure Done (fs : FileSystem) (options : WalkOptions) (p : Path) (start : Location) (t t' : Trail) :
    Prop where
  going : t'.stopped = none
  explored : Explored fs t'.visited
  grown : t.visited.length ≤ t'.visited.length
  below : ∀ there ∈ t'.visited, there ∈ t.visited ∨ start <+: there
  files : ∃ found : List (List String), t'.files = t.files ++ found.map p.under ∧
    found.Pairwise Before ∧ ∀ q, q ∈ found ↔ FindsBelow fs options p q

/-- The trail `t'` of a walk that is in the directory `start` and is done with the entries in `done`. -/
structure Partway (fs : FileSystem) (options : WalkOptions) (p : Path) (start : Location) (t : Trail)
    (done : List String) (t' : Trail) : Prop where
  going : t'.stopped = none
  explored : Explored fs t'.visited
  grown : t.visited.length < t'.visited.length
  below : ∀ there ∈ t'.visited, there ∈ t.visited ∨ there = start ∨ ∃ name ∈ done, start ++ [name] <+: there
  files : ∃ found : List (List String), t'.files = t.files ++ found.map p.under ∧
    found.Pairwise Before ∧ ∀ q, q ∈ found ↔ ∃ name ∈ done, ∃ rest, q = name :: rest ∧
      FindsBelow fs options p (name :: rest)

namespace Partway

variable {start : Location} {t t' t'' : Trail} {done : List String}

theorem init (hexplored : Explored fs t.visited) (hgoing : t.stopped = none) (hstart : start ∉ t.visited)
    (hdirectory : fs.entryAt? start = some .directory) :
    Partway fs options p start t [] (t.enter start) where
  going := hgoing
  explored := hexplored.cons hstart hdirectory
  grown := Nat.lt_succ_self _
  below there hthere := (List.mem_cons.mp hthere).elim (fun heq => .inr (.inl heq)) .inl
  files := ⟨[], by simp, .nil, by simp⟩

/-- One more entry: `hfound` is what is found by it. -/
theorem step (h : Partway fs options p start t done t') (hnext : Upcoming fs start done name)
    (hgoing : t''.stopped = none) (hexplored : Explored fs t''.visited)
    (hgrown : t'.visited.length ≤ t''.visited.length)
    (hbelow : ∀ there ∈ t''.visited, there ∈ t'.visited ∨ start ++ [name] <+: there)
    (hfound : ∃ found : List (List String), t''.files = t'.files ++ (found.map (name :: ·)).map p.under ∧
      found.Pairwise Before ∧ ∀ rest, rest ∈ found ↔ FindsBelow fs options p (name :: rest)) :
    Partway fs options p start t (done ++ [name]) t'' where
  going := hgoing
  explored := hexplored
  grown := Nat.lt_of_lt_of_le h.grown hgrown
  below there hthere := by
    rcases hbelow there hthere with hold | hnew
    · rcases h.below there hold with hold | hold | ⟨other, hother, hold⟩
      · exact .inl hold
      · exact .inr (.inl hold)
      · exact .inr (.inr ⟨other, List.mem_append_left _ hother, hold⟩)
    · exact .inr (.inr ⟨name, List.mem_append_right _ (List.mem_singleton_self name), hnew⟩)
  files := p.exists_found_concat hnext.lt h.files hfound

/-- An entry by which nothing is found, and that is not entered. -/
theorem skip (h : Partway fs options p start t done t') (hnext : Upcoming fs start done name)
    (hnothing : ∀ rest, ¬ FindsBelow fs options p (name :: rest)) :
    Partway fs options p start t (done ++ [name]) t' := by
  apply h.step hnext h.going h.explored (Nat.le_refl _) (fun _ hthere => .inl hthere)
  exact ⟨[], by simp, .nil, by simp [hnothing]⟩

/-- What the walk has visited so far is not below the entry that comes next. -/
theorem fresh (h : Partway fs options p start t done t') (hnext : Upcoming fs start done name)
    (hfresh : ∀ there ∈ t.visited, ¬ start <+: there) :
    ∀ there ∈ t'.visited, ¬ start ++ [name] <+: there := by
  intro there hthere hbelow
  rcases h.below there hthere with hold | rfl | ⟨other, hother, hbelow'⟩
  · exact hfresh there hold ((List.prefix_append start [name]).trans hbelow)
  · have hlength := hbelow.length_le
    rw [List.length_append, List.length_singleton] at hlength
    omega
  · -- Of two names below one directory only one leads to a location.
    have hsame : start ++ [name] = start ++ [other] := by
      refine (List.prefix_of_prefix_length_le hbelow hbelow' ?_).eq_of_length ?_ <;> simp
    obtain rfl : name = other := by simpa using hsame
    exact String.lt_irrefl name (hnext.lt name hother)

theorem done_of_all (h : Partway fs options p start t (fs.namesAt start) t')
    (hp : fs.lookUp true p = .ok (start, .directory)) : Done fs options p start t t' where
  going := h.going
  explored := h.explored
  grown := Nat.le_of_lt h.grown
  below there hthere := by
    rcases h.below there hthere with hold | rfl | ⟨name, -, hbelow⟩
    · exact .inl hold
    · exact .inr (List.prefix_refl there)
    · exact .inr ((List.prefix_append start [name]).trans hbelow)
  files := by
    obtain ⟨found, hfiles, horder, hfound⟩ := h.files
    refine ⟨found, hfiles, horder, fun q => ?_⟩
    rw [hfound]
    constructor
    · rintro ⟨name, -, rest, rfl, hfinds⟩
      exact hfinds
    · intro hfinds
      obtain ⟨name, hname, rest, rfl⟩ := hfinds.exists_mem_namesAt hp
      exact ⟨name, hname, rest, rfl, hfinds⟩

end Partway

/-! ## The walk through a directory -/

/-- What a visit does to a trail on which nothing below the directory has been visited. -/
def Visiting (fs : FileSystem) (options : WalkOptions) (depth : Nat) : Prop :=
  ∀ {p : Path} {here : Location} {t : Trail}, EntriesResolve fs p →
    fs.lookUp true p = .ok (here, .directory) → t.stopped = none → Explored fs t.visited →
    (∀ there ∈ t.visited, ¬ here <+: there) → fs.entries.length + 2 ≤ depth + t.visited.length →
    Done fs options p here t (visit fs options depth p t)

/-- A directory that the system refuses is passed over. -/
theorem visit_of_not_accessible (options : WalkOptions) (h : ¬ fs.IsAccessible p) (depth : Nat) (t : Trail) :
    ∃ event : WalkEvent, event.file? = none ∧
      (visit fs options (depth + 1) p t = t.note event ∨
        ∃ location e, fs.lookUp true p = .ok (location, e) ∧ location ∉ t.visited ∧
          visit fs options (depth + 1) p t = (t.enter location).note event) := by
  cases hstat : fs.stat p with
  | error e => exact ⟨.unreached p e, rfl, .inl (by rw [visit, hstat])⟩
  | ok found =>
    obtain ⟨location, entry⟩ := found
    by_cases hvisited : location ∈ t.visited
    · exact ⟨.revisited p, rfl, .inl (by rw [visit, hstat]; exact if_pos hvisited)⟩
    · cases hlist : fs.list p with
      | ok entries => exact absurd ⟨⟨_, hstat⟩, _, hlist⟩ h
      | error e =>
        refine ⟨.unlisted p e, rfl, .inr ⟨location, entry, FileSystem.lookUp_of_stat hstat, hvisited, ?_⟩⟩
        rw [visit, hstat, hlist]
        exact if_neg hvisited

section Visit

variable {start : Location} {t t' : Trail} {done : List String} {depth : Nat} {e : Listed}

/-- An entry that is a directory: the walk enters it. -/
theorem Partway.enter (h : Partway fs options p start t done t') (hnext : Upcoming fs start done e.name)
    (hfresh : ∀ there ∈ t.visited, ¬ start <+: there)
    (hdone : (∀ there ∈ t'.visited, ¬ start ++ [e.name] <+: there) →
      Done fs options (p.child e.name) (start ++ [e.name]) t' (visit fs options depth (p.child e.name) t'))
    (hfinds : ∀ rest, FindsBelow fs options p (e.name :: rest) ↔ FindsBelow fs options (p.child e.name) rest) :
    Partway fs options p start t (done ++ [e.name]) (visit fs options depth (p.child e.name) t') := by
  have hchild := hdone (h.fresh hnext hfresh)
  apply h.step hnext hchild.going hchild.explored hchild.grown hchild.below
  obtain ⟨found, hfiles, horder, hfound⟩ := hchild.files
  refine ⟨found, ?_, horder, fun rest => ?_⟩
  · rw [hfiles, Path.map_child_under]
  · rw [hfound, hfinds]

/-- An entry that leads to a file: it is found, or left out. -/
theorem Partway.file (h : Partway fs options p start t done t') (hnext : Upcoming fs start done name)
    (hglobs : options.globs = globs.map .ok)
    (hfinds : ∀ rest, FindsBelow fs options p (name :: rest) ↔
      rest = [] ∧ Glob.anyFits (p.child name) options.globs = .ok false) :
    Partway fs options p start t (done ++ [name])
      (t'.note (if Glob.excludes globs (p.child name) then .excluded (p.child name)
        else .found (p.child name))) := by
  rw [hglobs, Glob.anyFits_map_ok, Except.ok.injEq] at hfinds
  refine h.step hnext h.going h.explored (Nat.le_refl _) (fun _ hthere => .inl hthere) ?_
  cases hexcluded : Glob.excludes globs (p.child name) with
  | true =>
    refine ⟨[], ?_, .nil, fun rest => ?_⟩
    · simp [WalkEvent.file?]
    · simp [hfinds, hexcluded]
  | false =>
    refine ⟨[[]], ?_, List.pairwise_singleton Before [], fun rest => ?_⟩
    · simp [WalkEvent.file?, Path.under_singleton]
    · simp [hfinds, hexcluded]

/-- One entry: the walk is done with it too. -/
theorem Partway.pass (h : Partway fs options p start t done t') (hfs : fs.IsTree)
    (hlinks : options.followLinks = false) (hglobs : options.globs = globs.map .ok)
    (hresolve : EntriesResolve fs p) (hvisiting : Visiting fs options depth)
    (hp : fs.lookUp true p = .ok (start, .directory)) (haccess : fs.IsAccessible p)
    (hfresh : ∀ there ∈ t.visited, ¬ start <+: there)
    (hfuel : fs.entries.length + 2 ≤ depth + t'.visited.length) (hpath : e.path = p.child e.name)
    (hentry : fs.entryAt? (start ++ [e.name]) = some e.entry) (hnext : Upcoming fs start done e.name) :
    Partway fs options p start t (done ++ [e.name])
      (Walk.pass fs options (visit fs options depth) t' e) := by
  by_cases hseen : options.sees e.name = true
  swap
  · rw [pass_of_not_sees hseen]
    exact h.skip hnext fun rest hfinds => hseen (hfinds.seen e.name List.mem_cons_self)
  have hname := FileSystem.named_of_entryAt? hfs hentry
  have hfinds := findsBelow_cons_iff hp haccess hname hseen hentry
  have hclear : ∀ err, ¬ Obstructs fs (p.child e.name) err := by
    have hnone := hresolve [] start e.name .nil (by rwa [Path.under_nil]) hnext.mem
    exact hnone
  have hdirectory (hd : e.entry = .directory) :
      fs.lookUp true (p.child e.name) = .ok (start ++ [e.name], .directory) := by
    rw [hd] at hentry
    exact FileSystem.lookUp_child_of_ne_link hfs hp hentry (by simp)
  rw [pass_eq hfs hglobs hp hpath hentry _ h.going hseen, hpath, hlinks]
  have hnothing (hfile : ¬ ∃ location content, fs.lookUp true (p.child e.name) = .ok (location, .file content))
      (hd : e.entry ≠ .directory) : ∀ rest, ¬ FindsBelow fs options p (e.name :: rest) := by
    intro rest
    rw [hfinds]
    rintro (⟨-, hfile', -⟩ | ⟨hd', -⟩)
    · exact hfile hfile'
    · exact hd hd'
  cases hlook : fs.lookUp true (p.child e.name) with
  | error err =>
    have hskip := h.skip hnext <| hnothing (by simp [hlook]) fun hd => by simp [hdirectory hd] at hlook
    cases err with
    | notFound => exact hskip
    | _ => exact absurd ⟨hlook, by decide⟩ (hclear _)
  | ok found =>
    obtain ⟨location, x⟩ := found
    cases x with
    | directory =>
      have hfile : ¬ ∃ location content,
          fs.lookUp true (p.child e.name) = .ok (location, .file content) := by
        simp [hlook]
      by_cases hd : e.entry = .directory
      · have hreal : fs.IsRealDirectory (p.child e.name) :=
          (FileSystem.isRealDirectory_child_iff hp hname).mpr (by rw [hentry, hd])
        simp only [hd, or_true, if_true]
        refine h.enter hnext hfresh ?_ fun rest => by simp [hfinds, hfile, hd]
        intro hbelow
        exact hvisiting (hresolve.child hname hreal) (hdirectory hd) h.going h.explored hbelow hfuel
      · simp only [hd, Bool.false_eq_true, or_self, if_false]
        exact h.skip hnext (hnothing hfile hd)
    | file content =>
      have hd : e.entry ≠ .directory := fun hd => by simp [hdirectory hd] at hlook
      refine h.file hnext hglobs fun rest => ?_
      rw [hfinds, or_iff_left (fun hboth => hd hboth.1)]
      exact and_congr_right fun _ => and_iff_right ⟨location, content, hlook⟩
    | _ => exact h.skip hnext <| hnothing (by simp [hlook]) fun hd => by simp [hdirectory hd] at hlook

/-- All entries: the walk is done with the directory. -/
theorem Partway.run (hfs : fs.IsTree) (hlinks : options.followLinks = false)
    (hglobs : options.globs = globs.map .ok) (hresolve : EntriesResolve fs p)
    (hvisiting : Visiting fs options depth) (hp : fs.lookUp true p = .ok (start, .directory))
    (haccess : fs.IsAccessible p) (hfresh : ∀ there ∈ t.visited, ¬ start <+: there)
    (hfuel : fs.entries.length + 1 ≤ depth + t.visited.length) {entries : List Listed}
    (hentries : ∀ e ∈ entries, e ∈ fs.listAt p start)
    (hnames : fs.namesAt start = done ++ entries.map (·.name))
    (h : Partway fs options p start t done t') :
    Done fs options p start t (entries.foldl (Walk.pass fs options (visit fs options depth)) t') := by
  induction entries generalizing done t' with
  | nil =>
    rw [List.map_nil, List.append_nil] at hnames
    exact (hnames ▸ h).done_of_all hp
  | cons e entries ih =>
    obtain ⟨hpath, hentry⟩ := FileSystem.of_mem_listAt (hentries e List.mem_cons_self)
    have hgrown := h.grown
    rw [List.foldl_cons]
    refine ih (fun e' he' => hentries e' (List.mem_cons_of_mem e he')) ?_
      (h.pass hfs hlinks hglobs hresolve hvisiting hp haccess hfresh (by omega) hpath hentry
        (.of_eq_append hfs hnames))
    rw [hnames, List.map_cons, List.append_assoc, List.singleton_append]

end Visit

theorem visiting (hfs : fs.IsTree) (hlinks : options.followLinks = false)
    (hglobs : options.globs = globs.map .ok) (depth : Nat) : Visiting fs options depth := by
  induction depth with
  | zero =>
    intro p here t _ _ _ hexplored _ hfuel
    -- There would be more directories behind the walk than there are in all.
    have := hexplored.length_le
    omega
  | succ depth ih =>
    intro p here t hresolve hp hgoing hexplored hfresh hfuel
    have hnew : here ∉ t.visited := fun hmem => hfresh here hmem (List.prefix_refl here)
    have hdirectory := FileSystem.entryAt?_of_lookUp hp
    by_cases haccess : fs.IsAccessible p
    · obtain ⟨⟨found, hstat⟩, entries, hlist⟩ := haccess
      obtain ⟨location, hlook, rfl⟩ := FileSystem.listAt_of_list hlist
      cases hlook.symm.trans hp
      cases (FileSystem.lookUp_of_stat hstat).symm.trans hp
      rw [visit, hstat, hlist]
      simp only [if_neg hnew]
      refine Partway.run hfs hlinks hglobs hresolve ih hp ⟨⟨_, hstat⟩, _, hlist⟩ hfresh (by omega)
        (fun _ he => he) ?_ (.init hexplored hgoing hnew hdirectory)
      rw [FileSystem.listAt_names hfs, List.nil_append]
    · have hnothing : ∀ q, ¬ FindsBelow fs options p q := fun q hfinds => haccess hfinds.accessible
      obtain ⟨event, hfile, hvisit | ⟨location, e, hlook, -, hvisit⟩⟩ :=
        visit_of_not_accessible options haccess depth t
      · rw [hvisit]
        refine ⟨hgoing, hexplored, Nat.le_refl _, fun _ hthere => .inl hthere, [], ?_, .nil, ?_⟩
        · simp [hfile]
        · simp [hnothing]
      · cases hlook.symm.trans hp
        rw [hvisit]
        refine ⟨hgoing, hexplored.cons hnew hdirectory, Nat.le_succ _, ?_, [], ?_, .nil, ?_⟩
        · intro there hthere
          rcases List.mem_cons.mp hthere with rfl | hold
          · exact .inr (List.prefix_refl there)
          · exact .inl hold
        · simp [hfile]
        · simp [hnothing]

/-! ## Globs that could not be read -/

theorem files_pass_of_never_kept (h : ∀ q, Glob.anyFits q options.globs ≠ .ok false)
    {enter : Path → Trail → Trail} (henter : ∀ q s, (enter q s).files = s.files) (t : Trail) (e : Listed) :
    (pass fs options enter t e).files = t.files := by
  unfold pass
  split
  · rfl
  · split
    · rfl
    · split
      · rfl
      · exact henter e.path t
      · unfold passFile
        split
        · rfl
        · rfl
        · split
          · rfl
          · simp [WalkEvent.file?]
          · next hkept => exact absurd hkept (h e.path)

/-- Where no path is let pass, nothing is found. -/
theorem files_visit_of_never_kept (h : ∀ q, Glob.anyFits q options.globs ≠ .ok false) (depth : Nat)
    (directory : Path) (t : Trail) : (visit fs options depth directory t).files = t.files := by
  induction depth generalizing directory t with
  | zero => rfl
  | succ depth ih =>
    have hall (entries : List Listed) (t : Trail) :
        (entries.foldl (pass fs options (visit fs options depth)) t).files = t.files := by
      induction entries generalizing t with
      | nil => rfl
      | cons e entries ihentries =>
        rw [List.foldl_cons, ihentries, files_pass_of_never_kept h ih]
    rw [visit]
    split
    · simp [WalkEvent.file?]
    · split
      · simp [WalkEvent.file?]
      · split
        · simp [WalkEvent.file?]
        · exact hall _ _

/-! ## The whole walk -/

variable {root : Path}

/-- A walk whose globs could be read comes to its end, and finds what is to be found, in order. -/
theorem ofRoot_done (hfs : fs.IsTree) (hlinks : options.followLinks = false)
    (hglobs : options.globs = globs.map .ok) (hresolve : EntriesResolve fs root) :
    (ofRoot fs options root).stopped = none ∧
      ∃ found : List (List String), (ofRoot fs options root).files = found.map root.under ∧
        found.Pairwise Before ∧ ∀ q, q ∈ found ↔ FindsBelow fs options root q := by
  by_cases haccess : fs.IsAccessible root
  · obtain ⟨-, entries, hlist⟩ := haccess
    obtain ⟨top, htop, -⟩ := FileSystem.listAt_of_list hlist
    have hdone : Done fs options root top {} (ofRoot fs options root) :=
      visiting hfs hlinks hglobs (maxDepth fs) hresolve htop rfl ⟨.nil, by simp⟩ (by simp) (Nat.le_refl _)
    refine ⟨hdone.going, ?_⟩
    simpa using hdone.files
  · have hnothing : ∀ q, ¬ FindsBelow fs options root q := fun q hfinds => haccess hfinds.accessible
    obtain ⟨event, hfile, hvisit | ⟨_, _, -, -, hvisit⟩⟩ :=
      visit_of_not_accessible options haccess (fs.entries.length + 1) {}
    · rw [ofRoot, maxDepth, hvisit]
      exact ⟨rfl, [], by simp [hfile], .nil, by simp [hnothing]⟩
    · rw [ofRoot, maxDepth, hvisit]
      exact ⟨rfl, [], by simp [hfile], .nil, by simp [hnothing]⟩

theorem exists_found (hfs : fs.IsTree) (hlinks : options.followLinks = false)
    (hresolve : EntriesResolve fs root) :
    ∃ found : List (List String), (ofRoot fs options root).files = found.map root.under ∧
      found.Pairwise Before ∧ ∀ q, q ∈ found ↔ FindsBelow fs options root q := by
  by_cases hread : ∃ d, .error d ∈ options.globs
  · obtain ⟨d, hd⟩ := hread
    refine ⟨[], ?_, .nil, fun q => ?_⟩
    · exact files_visit_of_never_kept (Glob.anyFits_ne_ok_false hd) (maxDepth fs) root {}
    · rw [List.mem_nil_iff, false_iff]
      rintro ⟨above, name, -, hfindable⟩
      exact Glob.anyFits_ne_ok_false hd _ hfindable.kept
  · obtain ⟨globs, hglobs⟩ := Glob.exists_map_ok hread
    exact (ofRoot_done hfs hlinks hglobs hresolve).2

/-- A walk that enters no links finds exactly the files below the root that can be reached through directories
alone, in the order of their components.  The order in which the system lists a directory does not matter. -/
theorem ofRoot_downward (hfs : fs.IsTree) (hlinks : options.followLinks = false)
    (hresolve : EntriesResolve fs root) :
    let walk := ofRoot fs options root
    (∀ file, file ∈ walk.files ↔ ∃ above name, file = root.under (above ++ [name]) ∧
      Findable fs options root above name) ∧
    walk.files.Pairwise (fun file file' => Before file.parts file'.parts) ∧
    walk.files.Nodup ∧
    ((∀ glob ∈ options.globs, ∃ g, glob = .ok g) → walk.stopped = none) ∧
    ∀ fs', fs.Reorders fs' → ofRoot fs' options root = walk := by
  intro walk
  obtain ⟨found, hfiles, horder, hfound⟩ := exists_found hfs hlinks hresolve
  have hsorted : walk.files.Pairwise fun file file' => Before file.parts file'.parts := by
    rw [show walk.files = found.map root.under from hfiles, List.pairwise_map]
    exact horder.imp (root.before_under ·)
  refine ⟨fun file => ?_, hsorted, ?_, fun hread => ?_, fun fs' h => h.ofRoot_eq hfs options root⟩
  · rw [show walk.files = found.map root.under from hfiles, List.mem_map]
    constructor
    · rintro ⟨q, hq, rfl⟩
      obtain ⟨above, name, rfl, hfindable⟩ := (hfound q).mp hq
      exact ⟨above, name, rfl, hfindable⟩
    · rintro ⟨above, name, rfl, hfindable⟩
      exact ⟨above ++ [name], (hfound _).mpr ⟨above, name, rfl, hfindable⟩, rfl⟩
  · refine hsorted.imp ?_
    rintro file _ hbefore rfl
    exact Before.irrefl file.parts hbefore
  · have hnone : ¬ ∃ d, .error d ∈ options.globs := by
      rintro ⟨d, hd⟩
      obtain ⟨g, hg⟩ := hread _ hd
      cases hg
    obtain ⟨globs, hglobs⟩ := Glob.exists_map_ok hnone
    exact (ofRoot_done hfs hlinks hglobs hresolve).1

/-- A shelf of two directories, a third one that is not listed, and links to a file, to a directory and to
nothing. -/
def shelf : FileSystem where
  entries := [
    (["a.d"], .directory), (["a.d", "g"], .file {}), (["a"], .directory), (["a", "f"], .file {}),
    (["k"], .link "a/f"), (["l"], .link "a"), (["m"], .link "gone"),
    (["z"], .directory), (["z", "h"], .file {})]
  refusals := [((.list, ⟨.absolute, ["z"]⟩), .denied)]

theorem isTree_shelf : shelf.IsTree where
  nodup := by decide +kernel
  named := by decide +kernel

theorem lookUp_shelf : (shelf.entries.keys.map fun names => shelf.lookUp true ⟨.absolute, names⟩) =
    [.ok (["a.d"], .directory), .ok (["a.d", "g"], .file {}), .ok (["a"], .directory),
      .ok (["a", "f"], .file {}), .ok (["a", "f"], .file {}), .ok (["a"], .directory), .error .notFound,
      .ok (["z"], .directory), .ok (["z", "h"], .file {})] := by
  cbv

/-- The directory `a` comes before `a.d`, although its file is written behind. -/
theorem ofRoot_downward_shelf :
    let options : WalkOptions := {}
    let root : Path := ⟨.absolute, []⟩
    shelf.IsTree ∧ options.followLinks = false ∧ EntriesResolve shelf root ∧
      (ofRoot shelf options root).stopped = none ∧
      (ofRoot shelf options root).files.map Path.render = ["/a/f", "/a.d/g", "/k"] ∧
      ∃ above name, root.under ["a.d", "g"] = root.under (above ++ [name]) ∧
        Findable shelf options root above name := by
  intro options root
  have hroot : shelf.lookUp true root = .ok ([], .directory) := by cbv
  have hresolve : EntriesResolve shelf root := by
    refine entriesResolve_of_keys isTree_shelf hroot fun names hnames e hobstructs => ?_
    have hmem : (.error e : Except Errno (Location × Entry)) ∈
        shelf.entries.keys.map fun names => shelf.lookUp true ⟨.absolute, names⟩ :=
      List.mem_map.mpr ⟨names, hnames, hobstructs.1⟩
    rw [lookUp_shelf] at hmem
    simp [hobstructs.2] at hmem
  have hlinks : options.followLinks = false := rfl
  obtain ⟨hfiles, -, -, hgoing, -⟩ := ofRoot_downward isTree_shelf hlinks hresolve
  have hfound : (ofRoot shelf {} ⟨.absolute, []⟩).files =
      [⟨.absolute, ["a", "f"]⟩, ⟨.absolute, ["a.d", "g"]⟩, ⟨.absolute, ["k"]⟩] := by
    cbv
  have hgoing := hgoing (by simp [options])
  refine ⟨isTree_shelf, hlinks, hresolve, hgoing, ?_, (hfiles (root.under ["a.d", "g"])).mp ?_⟩
  · rw [show (ofRoot shelf options root).files = _ from hfound]
    decide +kernel
  · rw [show (ofRoot shelf options root).files = _ from hfound]
    decide +kernel

end Walk

end SourceCensus
