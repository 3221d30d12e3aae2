import Mathlib.Data.List.Basic
import SourceCensus.Proofs.FileSystem.Emptying
import SourceCensus.Proofs.Path.Order

/-!
# From a directory to its entries

A program that goes through a tree holds paths, and asks the system where each of them leads.  The answer
for an entry depends on the path by which its directory was reached, because the links on that way count
against the limit.  But this is all that the way has to do with it:

> behind a path to a directory, the path of an entry leads where the name alone leads from the directory, or
> there are too many links (`lookUp_child`).  What is no link is always found (`lookUp_child_of_ne_link`).

`follow` is the name alone: it starts from the directory with a fresh count.  `of_mem_listAt` and
`listAt_names` say what a directory lists.
-/

set_option autoImplicit false

namespace SourceCensus.FileSystem

variable {fs : FileSystem}

/-! ## The search -/

theorem descend_congr {followLast : Bool} {again again' : Location → List String → Except Errno Spot}
    (hagain : ∀ here names, again here names ≠ .error .linkLoop →
      again' here names = again here names)
    {here : Location} {names : List String}
    (h : fs.descend followLast again here names ≠ .error .linkLoop) :
    fs.descend followLast again' here names = fs.descend followLast again here names := by
  induction names generalizing here with
  | nil => rw [descend, descend]
  | cons name rest ih =>
    rw [descend] at h
    rw [descend, descend]
    cases hhere : fs.entryAt? here with
    | none => rfl
    | some e =>
      rw [hhere] at h
      cases e with
      | directory =>
        dsimp only at h ⊢
        split
        · next hdot => exact ih (by rwa [if_pos hdot] at h)
        · next hdot =>
          rw [if_neg hdot] at h
          split
          · next hup => exact ih (by rwa [if_pos hup] at h)
          · next hup =>
            rw [if_neg hup] at h
            cases hnext : fs.entryAt? (here ++ [name]) with
            | none => rfl
            | some e' =>
              rw [hnext] at h
              cases e' with
              | link target =>
                dsimp only at h ⊢
                split
                · rfl
                · -- Only here, where the search begins anew, may the two differ.
                  next hlast =>
                  rw [if_neg hlast] at h
                  exact hagain _ _ h
              | _ => exact ih h
      | _ => rfl

theorem descendWithin_succ {followLast : Bool} {links : Nat} {here : Location} {names : List String}
    (h : fs.descendWithin followLast links here names ≠ .error .linkLoop) :
    fs.descendWithin followLast (links + 1) here names =
      fs.descendWithin followLast links here names := by
  induction links generalizing here names with
  | zero =>
    exact descend_congr (fun _ _ hloop => absurd rfl hloop) h
  | succ links ih =>
    exact descend_congr (fun here names hne => ih hne) h

theorem descendWithin_mono {followLast : Bool} {links more : Nat} (hle : links ≤ more)
    {here : Location} {names : List String}
    (h : fs.descendWithin followLast links here names ≠ .error .linkLoop) :
    fs.descendWithin followLast more here names =
      fs.descendWithin followLast links here names := by
  obtain ⟨extra, rfl⟩ := Nat.exists_eq_add_of_le hle
  induction extra with
  | zero => rfl
  | succ extra ih =>
    have hsame := ih (Nat.le_add_right links extra)
    rw [← Nat.add_assoc, descendWithin_succ (hsame ▸ h), hsame]

section Append

variable {followLast : Bool} {there : Location} {rest : List String}

/-- The names that lead to a directory are gone through first, and then the others.  Only of these one may be
the last, and a link that is not followed. -/
theorem exists_descend_append {links : Nat} {again again' : Location → List String → Except Errno Spot}
    (hrest : rest ≠ [])
    (hthere : fs.descend followLast again' there rest = fs.descendWithin followLast links there rest)
    (hagain : ∀ start names, again start names = .ok (.present there .directory) →
      ∃ left ≤ links, again' start (names ++ rest) = fs.descendWithin followLast left there rest)
    {here : Location} {names : List String}
    (h : fs.descend true again here names = .ok (.present there .directory)) :
    ∃ left ≤ links, fs.descend followLast again' here (names ++ rest) =
      fs.descendWithin followLast left there rest := by
  induction names generalizing here with
  | nil =>
    rw [descend] at h
    split at h
    · cases h
      exact ⟨links, Nat.le_refl links, hthere⟩
    · cases h
  | cons name names ih =>
    rw [descend] at h
    rw [List.cons_append, descend]
    cases hhere : fs.entryAt? here with
    | none =>
      rw [hhere] at h
      cases h
    | some e =>
      rw [hhere] at h
      cases e with
      | directory =>
        dsimp only at h ⊢
        split
        · next hdot => exact ih (by rwa [if_pos hdot] at h)
        · next hdot =>
          rw [if_neg hdot] at h
          split
          · next hup => exact ih (by rwa [if_pos hup] at h)
          · next hup =>
            rw [if_neg hup] at h
            cases hnext : fs.entryAt? (here ++ [name]) with
            | none =>
              rw [hnext] at h
              dsimp only at h
              split at h <;> cases h
            | some e' =>
              rw [hnext] at h
              cases e' with
              | link target =>
                -- The names behind the link go with it when the search begins anew.
                simp only [Bool.not_true, Bool.and_false, Bool.false_eq_true, if_false] at h
                have hmore : (names ++ rest).isEmpty = false := by simp [hrest]
                simp only [hmore, Bool.false_and, Bool.false_eq_true, if_false]
                rw [← List.append_assoc]
                exact hagain _ _ h
              | _ => exact ih h
      | _ => cases h

/-- What leads to a directory leads on from there, with the links that are left. -/
theorem exists_descendWithin_append {links : Nat} {here : Location} {names : List String}
    (hrest : rest ≠ []) (h : fs.descendWithin true links here names = .ok (.present there .directory)) :
    ∃ left ≤ links, fs.descendWithin followLast links here (names ++ rest) =
      fs.descendWithin followLast left there rest := by
  induction links generalizing here names with
  | zero =>
    refine exists_descend_append hrest rfl ?_ h
    intro _ _ hloop
    cases hloop
  | succ links ih =>
    refine exists_descend_append hrest rfl ?_ h
    intro start names hstart
    obtain ⟨left, hleft, heq⟩ := ih hstart
    exact ⟨left, Nat.le_succ_of_le hleft, heq⟩

end Append

/-! ## The entries of a directory -/

/-- Where the name leads from the directory, a link being followed. -/
def follow (fs : FileSystem) (directory : Location) (name : String) :
    Except Errno (Location × Entry) :=
  match fs.descendWithin true maxLinks directory [name] with
  | .ok (.present location entry) => .ok (location, entry)
  | .ok (.absent _) => .error .notFound
  | .error e => .error e

/-- A table that a file system can have: each location once, and no entry named as a directory names itself
or the one above it. -/
structure IsTree (fs : FileSystem) : Prop where
  nodup : fs.entries.keys.Nodup
  named : ∀ location ∈ fs.entries.keys,
    location.getLast? ≠ some "." ∧ location.getLast? ≠ some ".."

section Entries

variable {p : Path} {directory : Location} {name : String} {e : Entry}

theorem find_of_lookUp {location : Location} (h : fs.lookUp true p = .ok (location, e)) :
    fs.find true p = .ok (.present location e) := by
  rw [lookUp] at h
  split at h
  · next hfind =>
    cases h
    exact hfind
  · cases h
  · cases h

/-- Behind a path to a directory, an entry is looked up in the directory. -/
theorem exists_find_child (followLast : Bool) (h : fs.lookUp true p = .ok (directory, .directory))
    (name : String) : ∃ left ≤ maxLinks, fs.find followLast (p.child name) =
      fs.descendWithin followLast left directory [name] :=
  exists_descendWithin_append (List.cons_ne_nil name []) (find_of_lookUp h)

theorem lookUp_child (h : fs.lookUp true p = .ok (directory, .directory)) (name : String) :
    fs.lookUp true (p.child name) = .error .linkLoop ∨
      fs.lookUp true (p.child name) = fs.follow directory name := by
  obtain ⟨left, hleft, hfind⟩ := exists_find_child true h name
  rw [lookUp, hfind, follow]
  by_cases hloop : fs.descendWithin true left directory [name] = .error .linkLoop
  · exact .inl (by rw [hloop])
  · rw [descendWithin_mono hleft hloop]
    exact .inr rfl

theorem descend_entry {again : Location → List String → Except Errno Spot}
    (hdirectory : fs.entryAt? directory = some .directory)
    (hentry : fs.entryAt? (directory ++ [name]) = some e) (hname : name ≠ "." ∧ name ≠ "..")
    (hlink : ∀ target, e ≠ .link target) :
    fs.descend true again directory [name] = .ok (.present (directory ++ [name]) e) := by
  cases e with
  | link target => exact absurd rfl (hlink target)
  | _ => simp [descend, hdirectory, hentry, hname.1, hname.2]

theorem descendWithin_entry (hdirectory : fs.entryAt? directory = some .directory)
    (hentry : fs.entryAt? (directory ++ [name]) = some e) (hname : name ≠ "." ∧ name ≠ "..")
    (hlink : ∀ target, e ≠ .link target) (links : Nat) :
    fs.descendWithin true links directory [name] = .ok (.present (directory ++ [name]) e) := by
  cases links with
  | zero => exact descend_entry hdirectory hentry hname hlink
  | succ links => exact descend_entry hdirectory hentry hname hlink

theorem entryAt?_append (directory : Location) (name : String) :
    fs.entryAt? (directory ++ [name]) = Assoc.get? (directory ++ [name]) fs.entries := by
  cases directory <;> rfl

theorem named_of_entryAt? (hfs : fs.IsTree) (h : fs.entryAt? (directory ++ [name]) = some e) :
    name ≠ "." ∧ name ≠ ".." := by
  rw [entryAt?_append] at h
  simpa using hfs.named _ (Assoc.mem_keys_of_mem (Assoc.mem_of_get? h))

/-- An entry that is no link is there, whatever the way to its directory. -/
theorem lookUp_child_of_ne_link (hfs : fs.IsTree)
    (h : fs.lookUp true p = .ok (directory, .directory))
    (hentry : fs.entryAt? (directory ++ [name]) = some e) (hlink : ∀ target, e ≠ .link target) :
    fs.lookUp true (p.child name) = .ok (directory ++ [name], e) := by
  obtain ⟨left, -, hfind⟩ := exists_find_child true h name
  rw [lookUp, hfind, descendWithin_entry (entryAt?_of_lookUp h) hentry
    (named_of_entryAt? hfs hentry) hlink left]

/-- A name that the directory does not have leads nowhere. -/
theorem lookUp_child_of_none {followLast : Bool} (h : fs.lookUp true p = .ok (directory, .directory))
    (hname : name ≠ "." ∧ name ≠ "..") (hentry : fs.entryAt? (directory ++ [name]) = none) :
    fs.lookUp followLast (p.child name) = .error .notFound := by
  obtain ⟨left, -, hfind⟩ := exists_find_child followLast h name
  have habsent : fs.descendWithin followLast left directory [name] = .ok (.absent (directory ++ [name])) := by
    cases left <;>
      simp [descendWithin, descend, entryAt?_of_lookUp h, hentry, hname.1, hname.2]
  rw [lookUp, hfind, habsent]

/-- A look at the path of an entry that does not follow links finds the entry itself. -/
theorem lookUp_false_child (h : fs.lookUp true p = .ok (directory, .directory))
    (hname : name ≠ "." ∧ name ≠ "..") (hentry : fs.entryAt? (directory ++ [name]) = some e) :
    fs.lookUp false (p.child name) = .ok (directory ++ [name], e) := by
  obtain ⟨left, -, hfind⟩ := exists_find_child false h name
  have hpresent : fs.descendWithin false left directory [name] =
      .ok (.present (directory ++ [name]) e) := by
    cases left <;> cases e <;>
      simp [descendWithin, descend, entryAt?_of_lookUp h, hentry, hname.1, hname.2]
  rw [lookUp, hfind, hpresent]

/-- What is found at the path of an entry is an entry of the directory. -/
theorem exists_entry_of_lookUp_child {followLast : Bool} {found : Location × Entry}
    (h : fs.lookUp true p = .ok (directory, .directory)) (hname : name ≠ "." ∧ name ≠ "..")
    (hfound : fs.lookUp followLast (p.child name) = .ok found) :
    ∃ e, fs.entryAt? (directory ++ [name]) = some e := by
  cases hentry : fs.entryAt? (directory ++ [name]) with
  | some e => exact ⟨e, rfl⟩
  | none =>
    rw [lookUp_child_of_none h hname hentry] at hfound
    cases hfound

/-! ## Listings -/

theorem ask_eq_ok_iff {α : Type} {operation : Operation} {answer : Except Errno α} {a : α} :
    fs.ask operation p answer = .ok a ↔ fs.refusal? operation p = none ∧ answer = .ok a := by
  unfold ask
  cases fs.refusal? operation p with
  | some refusal => simp
  | none => cases answer <;> simp

theorem lookUp_of_stat {found : Location × Entry} (h : fs.stat p = .ok found) :
    fs.lookUp true p = .ok found :=
  (ask_eq_ok_iff.mp h).2

theorem listAt_of_list {entries : List Listed} (h : fs.list p = .ok entries) :
    ∃ location, fs.lookUp true p = .ok (location, .directory) ∧ entries = fs.listAt p location := by
  have hanswer := (ask_eq_ok_iff.mp h).2
  split at hanswer
  · next location hlook =>
    cases hanswer
    exact ⟨location, hlook, rfl⟩
  · cases hanswer
  · cases hanswer

theorem nameIn?_eq_some_iff {location : Location} :
    nameIn? directory location = some name ↔ location = directory ++ [name] := by
  rcases List.eq_nil_or_concat location with rfl | ⟨parent, last, rfl⟩
  · simp [nameIn?]
  · simp [nameIn?]

theorem mem_namesAt : name ∈ fs.namesAt directory ↔ directory ++ [name] ∈ fs.entries.keys := by
  rw [namesAt, List.mem_mergeSort, List.mem_filterMap]
  simp [nameIn?_eq_some_iff]

/-- The names of a directory come in a strict order. -/
theorem pairwise_namesAt (hfs : fs.IsTree) (directory : Location) :
    (fs.namesAt directory).Pairwise (· < ·) := by
  refine pairwise_lt_mergeSort (List.Pairwise.filterMap (nameIn? directory) ?_ hfs.nodup)
  rintro location location' hne name hname _ hname' rfl
  rw [nameIn?_eq_some_iff] at hname hname'
  exact hne (hname.trans hname'.symm)

theorem mem_namesAt_of_entryAt? (h : fs.entryAt? (directory ++ [name]) = some e) :
    name ∈ fs.namesAt directory := by
  rw [entryAt?_append] at h
  exact mem_namesAt.mpr (Assoc.mem_keys_of_mem (Assoc.mem_of_get? h))

theorem exists_entry_of_mem_namesAt (hfs : fs.IsTree) (h : name ∈ fs.namesAt directory) :
    ∃ e, fs.entryAt? (directory ++ [name]) = some e := by
  obtain ⟨⟨_, e⟩, hmem, rfl⟩ := List.mem_map.mp (mem_namesAt.mp h)
  exact ⟨e, (entryAt?_append directory name).trans ((Assoc.get?_eq_some_iff hfs.nodup).mpr hmem)⟩

/-- A listing leaves no name out. -/
theorem listAt_names (hfs : fs.IsTree) (p : Path) (directory : Location) :
    (fs.listAt p directory).map (·.name) = fs.namesAt directory := by
  have hname : ∀ name ∈ fs.namesAt directory,
      ((fs.entryAt? (directory ++ [name])).map fun entry =>
        (⟨name, p.child name, entry⟩ : Listed)).map (·.name) = some name := by
    intro name hmem
    obtain ⟨e, he⟩ := exists_entry_of_mem_namesAt hfs hmem
    rw [he]
    rfl
  rw [listAt, List.map_filterMap, List.filterMap_congr hname, List.filterMap_some]

theorem of_mem_listAt {listed : Listed} (h : listed ∈ fs.listAt p directory) :
    listed.path = p.child listed.name ∧ fs.entryAt? (directory ++ [listed.name]) = some listed.entry := by
  obtain ⟨name, -, hname⟩ := List.mem_filterMap.mp h
  obtain ⟨e, he, rfl⟩ := Option.map_eq_some_iff.mp hname
  exact ⟨rfl, he⟩

end Entries

end SourceCensus.FileSystem
