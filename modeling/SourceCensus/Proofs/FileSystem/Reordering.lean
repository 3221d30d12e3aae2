import SourceCensus.Proofs.FileSystem.Descent
import SourceCensus.Walk

/-!
# The order of the entries

A system hands out the entries of a directory in an order of its own.  In the table of a file system this is
the order of its rows.  Nothing but a listing goes through the rows, and a listing sorts what it finds, so

> two tables with the same rows in another order answer every question of a walk alike (`lookUp_eq`,
> `list_eq`), and the walks are the same, event by event (`ofRoot_eq`).

This takes for granted that each location has one row.
-/

set_option autoImplicit false

namespace SourceCensus

/-- A table with each key once is looked up alike in any order of its rows. -/
theorem Assoc.get?_of_perm {α β : Type} [DecidableEq α] {t t' : Assoc α β} (h : t'.Perm t)
    (hnodup : (keys t).Nodup) (k : α) : get? k t' = get? k t := by
  have hnodup' : (keys t').Nodup := (h.map Prod.fst).nodup_iff.mpr hnodup
  ext v
  rw [get?_eq_some_iff hnodup', get?_eq_some_iff hnodup, h.mem_iff]

namespace FileSystem

/-- The second file system is the first one with its rows in another order. -/
structure Reorders (fs fs' : FileSystem) : Prop where
  entries : fs'.entries.Perm fs.entries
  workingDirectory : fs'.workingDirectory = fs.workingDirectory
  refusals : fs'.refusals = fs.refusals

namespace Reorders

variable {fs fs' : FileSystem}

theorem isTree (h : Reorders fs fs') (hfs : fs.IsTree) : fs'.IsTree := by
  have hkeys : fs'.entries.keys.Perm fs.entries.keys := h.entries.map Prod.fst
  constructor
  · exact hkeys.nodup_iff.mpr hfs.nodup
  · intro location hlocation
    exact hfs.named location (hkeys.mem_iff.mp hlocation)

/-! ## Where a path leads -/

theorem entryAt?_eq (h : Reorders fs fs') (hfs : fs.IsTree) (location : Location) :
    fs'.entryAt? location = fs.entryAt? location := by
  cases location with
  | nil => rfl
  | cons name rest => exact Assoc.get?_of_perm h.entries hfs.nodup (name :: rest)

theorem descend_eq (h : Reorders fs fs') (hfs : fs.IsTree) (followLast : Bool)
    (again : Location → List String → Except Errno Spot) (here : Location) (names : List String) :
    fs'.descend followLast again here names = fs.descend followLast again here names := by
  induction names generalizing here with
  | nil => rw [descend, descend, h.entryAt?_eq hfs]
  | cons name rest ih =>
    rw [descend, descend]
    simp only [h.entryAt?_eq hfs, ih]

theorem descendWithin_eq (h : Reorders fs fs') (hfs : fs.IsTree) (followLast : Bool) (links : Nat) :
    fs'.descendWithin followLast links = fs.descendWithin followLast links := by
  induction links with
  | zero =>
    funext here names
    exact h.descend_eq hfs followLast _ here names
  | succ links ih =>
    funext here names
    show fs'.descend followLast (fs'.descendWithin followLast links) here names = _
    rw [ih]
    exact h.descend_eq hfs followLast _ here names

theorem lookUp_eq (h : Reorders fs fs') (hfs : fs.IsTree) (followLast : Bool) (p : Path) :
    fs'.lookUp followLast p = fs.lookUp followLast p := by
  have hstart : fs'.startOf p = fs.startOf p := by
    unfold startOf
    rw [h.workingDirectory]
  have hfind : fs'.find followLast p = fs.find followLast p := by
    unfold find
    rw [h.descendWithin_eq hfs, hstart]
  unfold lookUp
  rw [hfind]

/-! ## What a walk asks -/

theorem ask_eq {α : Type} (h : Reorders fs fs') (operation : Operation) (p : Path)
    (answer : Except Errno α) : fs'.ask operation p answer = fs.ask operation p answer := by
  unfold ask refusal?
  rw [h.refusals]

theorem stat_eq (h : Reorders fs fs') (hfs : fs.IsTree) (p : Path) : fs'.stat p = fs.stat p := by
  unfold stat
  rw [h.ask_eq, h.lookUp_eq hfs]

theorem namesAt_eq (h : Reorders fs fs') (hfs : fs.IsTree) (directory : Location) :
    fs'.namesAt directory = fs.namesAt directory := by
  have hperm : (fs'.namesAt directory).Perm (fs.namesAt directory) := by
    unfold namesAt
    refine (List.mergeSort_perm _ _).trans (.trans ?_ (List.mergeSort_perm _ _).symm)
    exact (h.entries.map Prod.fst).filterMap (nameIn? directory)
  refine hperm.eq_of_pairwise ?_ (pairwise_namesAt (h.isTree hfs) directory) (pairwise_namesAt hfs directory)
  intro name name' _ _ hlt hgt
  exact absurd hgt (String.lt_asymm hlt)

theorem list_eq (h : Reorders fs fs') (hfs : fs.IsTree) (p : Path) : fs'.list p = fs.list p := by
  unfold list
  rw [h.ask_eq, h.lookUp_eq hfs]
  unfold listAt
  simp only [h.namesAt_eq hfs, h.entryAt?_eq hfs]

theorem linkSatisfies_eq (h : Reorders fs fs') (hfs : fs.IsTree) (test : Entry → Bool) (p : Path) :
    fs'.linkSatisfies test p = fs.linkSatisfies test p := by
  unfold linkSatisfies
  rw [h.lookUp_eq hfs]

theorem isDirectory_eq (h : Reorders fs fs') (hfs : fs.IsTree) (followLinks : Bool) (e : Listed) :
    fs'.isDirectory followLinks e = fs.isDirectory followLinks e := by
  unfold isDirectory
  rw [h.linkSatisfies_eq hfs]

theorem isFile_eq (h : Reorders fs fs') (hfs : fs.IsTree) (e : Listed) : fs'.isFile e = fs.isFile e := by
  unfold isFile
  rw [h.linkSatisfies_eq hfs]

/-! ## The walk -/

theorem visit_eq (h : Reorders fs fs') (hfs : fs.IsTree) (options : WalkOptions) (depth : Nat) :
    Walk.visit fs' options depth = Walk.visit fs options depth := by
  induction depth with
  | zero => rfl
  | succ depth ih =>
    have hpass : Walk.pass fs' options (Walk.visit fs' options depth) =
        Walk.pass fs options (Walk.visit fs options depth) := by
      funext t e
      unfold Walk.pass Walk.passFile
      rw [ih, h.isDirectory_eq hfs, h.isFile_eq hfs]
    funext directory t
    rw [Walk.visit, Walk.visit, h.stat_eq hfs, h.list_eq hfs, hpass]

/-- A walk does not depend on the order in which the system keeps its entries. -/
theorem ofRoot_eq (h : Reorders fs fs') (hfs : fs.IsTree) (options : WalkOptions) (root : Path) :
    Walk.ofRoot fs' options root = Walk.ofRoot fs options root := by
  unfold Walk.ofRoot Walk.maxDepth
  rw [h.entries.length_eq, h.visit_eq hfs]

end Reorders

end FileSystem

end SourceCensus
