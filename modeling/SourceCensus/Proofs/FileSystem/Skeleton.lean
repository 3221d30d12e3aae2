import SourceCensus.FileSystem.Listing
import SourceCensus.FileSystem.RealPath
import SourceCensus.Root
import SourceCensus.Walk

/-!
# What can be seen of a tree without reading a file

Many questions can be asked of a file system, and only one of them, `readSource`, looks into a file.  The
*skeleton* of a file system is the same one with all files empty and no reading refused:

> every other question has the same answer in the skeleton (`lookUp_skeleton`, `list_skeleton`,
> `Root.validate_skeleton`, `Root.namespaces_skeleton`, `Walk.ofRoot_skeleton`).

So two file systems with one skeleton have the same root, the same namespaces and the same walk, whatever
their files hold and whichever of them can be read.
-/

set_option autoImplicit false

namespace SourceCensus

/-! ## Skeletons -/

/-- The entry, with nothing in it if it is a file. -/
def Entry.hollow : Entry → Entry
  | .file _ => .file {}
  | e => e

def FileSystem.Spot.hollow : FileSystem.Spot → FileSystem.Spot
  | .present location entry => .present location entry.hollow
  | .absent location => .absent location

def Listed.hollow (e : Listed) : Listed := { e with entry := e.entry.hollow }

theorem Entry.hollow_beq_directory (e : Entry) : (e.hollow == .directory) = (e == .directory) := by
  cases e <;> rfl

namespace FileSystem

variable (fs : FileSystem)

/-- The file system with empty files, all of which can be read. -/
def skeleton : FileSystem :=
  { fs with
    entries := fs.entries.map fun e => (e.1, e.2.hollow)
    refusals := fs.refusals.filter fun r => r.1.1 != .read }

/-! ## Where a path leads -/

theorem entryAt?_skeleton (location : Location) :
    fs.skeleton.entryAt? location = (fs.entryAt? location).map Entry.hollow := by
  cases location with
  | nil => rfl
  | cons name rest => exact Assoc.get?_map (fun e => e.2.hollow) (name :: rest) fs.entries

theorem descend_skeleton (followLast : Bool) {again again' : Location → List String → Except Errno Spot}
    (hagain : ∀ here names, again' here names = (again here names).map Spot.hollow)
    (here : Location) (names : List String) :
    fs.skeleton.descend followLast again' here names =
      (fs.descend followLast again here names).map Spot.hollow := by
  induction names generalizing here with
  | nil =>
    rw [descend, descend, entryAt?_skeleton]
    cases fs.entryAt? here <;> rfl
  | cons name rest ih =>
    rw [descend, descend, entryAt?_skeleton]
    cases fs.entryAt? here with
    | none => rfl
    | some e =>
      cases e with
      | directory =>
        simp only [Option.map_some, Entry.hollow, ih, entryAt?_skeleton]
        split
        · rfl
        · split
          · rfl
          · cases fs.entryAt? (here ++ [name]) with
            | none => by_cases hrest : rest.isEmpty = true <;> simp [hrest, Except.map, Spot.hollow]
            | some e' =>
              cases e' with
              | link target =>
                simp only [Option.map_some, Entry.hollow]
                split
                · rfl
                · exact hagain _ _
              | _ => rfl
      | _ => rfl

theorem descendWithin_skeleton (followLast : Bool) (links : Nat) (here : Location)
    (names : List String) :
    fs.skeleton.descendWithin followLast links here names =
      (fs.descendWithin followLast links here names).map Spot.hollow := by
  induction links generalizing here names with
  | zero =>
    have hloop : ∀ (_ : Location) (_ : List String),
        (Except.error .linkLoop : Except Errno Spot) = Except.map Spot.hollow (.error .linkLoop) :=
      fun _ _ => rfl
    exact fs.descend_skeleton followLast hloop here names
  | succ links ih => exact fs.descend_skeleton followLast ih here names

theorem lookUp_skeleton (followLast : Bool) (p : Path) :
    fs.skeleton.lookUp followLast p =
      (fs.lookUp followLast p).map fun found => (found.1, found.2.hollow) := by
  have hfind : fs.skeleton.find followLast p = (fs.find followLast p).map Spot.hollow :=
    fs.descendWithin_skeleton followLast maxLinks (fs.startOf p) p.parts
  rw [lookUp, lookUp, hfind]
  cases fs.find followLast p with
  | error e => rfl
  | ok spot => cases spot <;> rfl

/-! ## What a program asks -/

theorem refusal?_skeleton {operation : Operation} (h : operation ≠ .read) (p : Path) :
    fs.skeleton.refusal? operation p = fs.refusal? operation p := by
  have hfilter := Assoc.get?_filter_key (fun key : Operation × Path => key.1 != .read) (operation, p)
    fs.refusals
  rw [if_pos (by simpa using h)] at hfilter
  exact hfilter

theorem ask_skeleton {α β : Type} (f : α → β) {operation : Operation} (h : operation ≠ .read)
    (p : Path) {answer : Except Errno α} {answer' : Except Errno β} (hanswer : answer' = answer.map f) :
    fs.skeleton.ask operation p answer' = (fs.ask operation p answer).map f := by
  unfold ask
  rw [fs.refusal?_skeleton h, hanswer]
  cases fs.refusal? operation p with
  | some e => rfl
  | none => cases answer <;> rfl

theorem stat_skeleton (p : Path) :
    fs.skeleton.stat p = (fs.stat p).map fun found => (found.1, found.2.hollow) :=
  fs.ask_skeleton _ (by decide) p (fs.lookUp_skeleton true p)

theorem stat?_skeleton (p : Path) :
    fs.skeleton.stat? p = (fs.stat? p).map (Option.map Entry.hollow) := by
  rw [stat?, stat?, stat_skeleton]
  cases fs.stat p with
  | error e => by_cases he : isAbsence e.errno = true <;> simp [Except.map, he]
  | ok found => rfl

theorem exists?_skeleton (p : Path) : fs.skeleton.exists? p = fs.exists? p := by
  rw [exists?, exists?, stat?_skeleton]
  cases fs.stat? p with
  | error e => rfl
  | ok e => cases e <;> rfl

theorem isDirectory?_skeleton (p : Path) : fs.skeleton.isDirectory? p = fs.isDirectory? p := by
  rw [isDirectory?, isDirectory?, stat?_skeleton]
  cases fs.stat? p with
  | error e => rfl
  | ok e =>
    cases e with
    | none => rfl
    | some e => cases e <;> rfl

theorem isReadable_skeleton (p : Path) : fs.skeleton.isReadable p = fs.isReadable p := by
  rw [isReadable, isReadable, fs.refusal?_skeleton (by decide)]

/-! ## Directories and their entries -/

theorem namesAt_skeleton (directory : Location) :
    fs.skeleton.namesAt directory = fs.namesAt directory := by
  have hkeys : Assoc.keys fs.skeleton.entries = Assoc.keys fs.entries := by
    simp [skeleton, Assoc.keys]
  rw [namesAt, namesAt, hkeys]

theorem listAt_skeleton (p : Path) (directory : Location) :
    fs.skeleton.listAt p directory = (fs.listAt p directory).map Listed.hollow := by
  rw [listAt, listAt, namesAt_skeleton, List.map_filterMap]
  congr 1
  funext name
  rw [entryAt?_skeleton]
  cases fs.entryAt? (directory ++ [name]) <;> rfl

theorem list_skeleton (p : Path) :
    fs.skeleton.list p = (fs.list p).map (List.map Listed.hollow) := by
  refine fs.ask_skeleton _ (by decide) p ?_
  rw [lookUp_skeleton]
  cases fs.lookUp true p with
  | error e => rfl
  | ok found =>
    obtain ⟨location, entry⟩ := found
    cases entry with
    | directory => exact congrArg Except.ok (fs.listAt_skeleton p location)
    | _ => rfl

theorem linkSatisfies_skeleton {test : Entry → Bool} (htest : ∀ e : Entry, test e.hollow = test e)
    (p : Path) : fs.skeleton.linkSatisfies test p = fs.linkSatisfies test p := by
  rw [linkSatisfies, linkSatisfies, lookUp_skeleton]
  cases fs.lookUp true p with
  | error e => rfl
  | ok found => exact congrArg Except.ok (htest found.2)

theorem isDirectory_skeleton (followLinks : Bool) (e : Listed) :
    fs.skeleton.isDirectory followLinks e.hollow = fs.isDirectory followLinks e := by
  obtain ⟨name, path, entry⟩ := e
  cases entry with
  | link target =>
    show (if followLinks then fs.skeleton.linkSatisfies (· == .directory) path else .ok false) =
      if followLinks then fs.linkSatisfies (· == .directory) path else .ok false
    rw [fs.linkSatisfies_skeleton Entry.hollow_beq_directory]
  | _ => rfl

theorem isFile_skeleton (e : Listed) : fs.skeleton.isFile e.hollow = fs.isFile e := by
  have htest : ∀ entry : Entry, isFileEntry entry.hollow = isFileEntry entry := by
    intro entry
    cases entry <;> rfl
  obtain ⟨name, path, entry⟩ := e
  cases entry with
  | link target => exact fs.linkSatisfies_skeleton htest path
  | _ => rfl

/-! ## Real paths -/

theorem linkAt?_skeleton (p : Path) : RealPath.linkAt? fs.skeleton p = RealPath.linkAt? fs p := by
  rw [RealPath.linkAt?, RealPath.linkAt?, lookUp_skeleton]
  cases fs.lookUp false p with
  | error e => rfl
  | ok found =>
    obtain ⟨location, entry⟩ := found
    cases entry <;> rfl

theorem realPathWalk_skeleton (enter : Path → String → RealPath.Seen → RealPath.Arrival)
    (names : List String) (p : Path) (seen : RealPath.Seen) :
    RealPath.walk fs.skeleton enter names p seen = RealPath.walk fs enter names p seen := by
  induction names generalizing p seen with
  | nil => rfl
  | cons name rest ih => simp only [RealPath.walk, linkAt?_skeleton, ih]

theorem realPathEnter_skeleton (depth : Nat) :
    RealPath.enter fs.skeleton depth = RealPath.enter fs depth := by
  induction depth with
  | zero => rfl
  | succ depth ih =>
    funext p target seen
    rw [RealPath.enter, RealPath.enter, realPathWalk_skeleton, ih]

theorem realPath_skeleton (p : Path) : fs.skeleton.realPath p = fs.realPath p := by
  have hdepth : RealPath.maxDepth fs.skeleton = RealPath.maxDepth fs := by
    simp [RealPath.maxDepth, skeleton]
  have hresolve : RealPath.resolve fs.skeleton p = RealPath.resolve fs p := by
    simp only [RealPath.resolve, hdepth, realPathEnter_skeleton, realPathWalk_skeleton]
  simp only [realPath, hresolve]
  rfl

theorem resolve_skeleton (p : Path) : fs.skeleton.resolve p = fs.resolve p := by
  simp only [resolve, realPath_skeleton, stat_skeleton]
  cases fs.stat (fs.realPath p) with
  | error e =>
    obtain ⟨errno, path⟩ := e
    cases errno <;> rfl
  | ok found => rfl

end FileSystem

/-! ## Root, namespaces and walk -/

namespace Root

variable (fs : FileSystem)

theorem validate_skeleton (p : Path) : validate fs.skeleton p = validate fs p := by
  simp only [validate, fs.resolve_skeleton, fs.exists?_skeleton, fs.isDirectory?_skeleton,
    fs.isReadable_skeleton]

theorem directories_skeleton (entries : List Listed) :
    directories fs.skeleton (entries.map Listed.hollow) =
      (directories fs entries).map (List.map Listed.hollow) := by
  induction entries with
  | nil => rfl
  | cons e entries ih =>
    rw [List.map_cons, directories, directories, fs.isDirectory_skeleton, ih]
    cases fs.isDirectory true e with
    | error d => rfl
    | ok is =>
      cases directories fs entries with
      | error d => rfl
      | ok others => cases is <;> rfl

theorem namespaces_skeleton (allowHidden : Bool) (root : Path) :
    namespaces fs.skeleton allowHidden root = namespaces fs allowHidden root := by
  rw [namespaces, namespaces, fs.list_skeleton]
  cases fs.list root with
  | error e => rfl
  | ok entries =>
    simp only [Except.map, directories_skeleton]
    cases directories fs entries with
    | error d => rfl
    | ok found =>
      simp only [List.map_map]
      rfl

end Root

namespace Walk

variable (fs : FileSystem) (options : WalkOptions)

theorem pass_skeleton (enter : Path → Trail → Trail) (t : Trail) (e : Listed) :
    pass fs.skeleton options enter t e.hollow = pass fs options enter t e := by
  simp only [pass, passFile, fs.isDirectory_skeleton, fs.isFile_skeleton]
  rfl

theorem visit_skeleton (depth : Nat) : visit fs.skeleton options depth = visit fs options depth := by
  induction depth with
  | zero => rfl
  | succ depth ih =>
    funext directory t
    rw [visit, visit, fs.stat_skeleton, fs.list_skeleton, ih]
    cases fs.stat directory with
    | error e => rfl
    | ok found =>
      obtain ⟨location, entry⟩ := found
      show (if location ∈ t.visited then _ else _) = if location ∈ t.visited then _ else _
      split
      · rfl
      · cases fs.list directory with
        | error e => rfl
        | ok entries =>
          show (entries.map Listed.hollow).foldl (pass fs.skeleton options _) _ = entries.foldl _ _
          rw [List.foldl_map]
          simp only [pass_skeleton]

/-- A walk looks into no file. -/
theorem ofRoot_skeleton (root : Path) : ofRoot fs.skeleton options root = ofRoot fs options root := by
  have hdepth : maxDepth fs.skeleton = maxDepth fs := by simp [maxDepth, FileSystem.skeleton]
  rw [ofRoot, ofRoot, hdepth, visit_skeleton]

end Walk

end SourceCensus
