import SourceCensus.FileSystem.Edit
import SourceCensus.Proofs.FileSystem.Skeleton

/-!
# Emptying a file

To say that a file that cannot be read does no harm, one compares its tree with the same tree in which that
file is empty and can be read.  `FileSystem.emptyAt` is this second tree.  A file is a location, and more than
one path may lead to it:

> nothing but the file is touched (`skeleton_emptyAt`), and a path reads nothing exactly if it leads to the
> file, and else what it read before (`readSource_emptyAt`).
-/

set_option autoImplicit false

namespace SourceCensus

theorem Assoc.map_put_of_get? {α β γ : Type} [DecidableEq α] (f : β → γ) {k : α} {v w : β}
    {t : Assoc α β} (h : Assoc.get? k t = some v) (hf : f w = f v) :
    (Assoc.put k w t).map (fun kv => (kv.1, f kv.2)) = t.map fun kv => (kv.1, f kv.2) := by
  induction t with
  | nil => simp at h
  | cons kv t ih =>
    obtain ⟨k', v'⟩ := kv
    rw [Assoc.get?] at h
    rw [Assoc.put]
    split at h
    · next hk =>
      obtain rfl := Option.some.inj h
      rw [if_pos hk, List.map_cons, List.map_cons, hf]
    · next hk =>
      rw [if_neg hk, List.map_cons, List.map_cons, ih h]

namespace FileSystem

variable {fs : FileSystem} {location : Location}

/-! ## What stands where a path leads -/

/-- A search ends at an entry, or at a name that a directory does not have. -/
def Spot.IsAt (fs : FileSystem) : Spot → Prop
  | .present there e => fs.entryAt? there = some e
  | .absent there => fs.entryAt? there = none ∧ fs.entryAt? there.dropLast = some .directory

theorem isAt_of_descend {followLast : Bool} {again : Location → List String → Except Errno Spot}
    (hagain : ∀ here names spot, again here names = .ok spot → spot.IsAt fs)
    {here : Location} {names : List String} {spot : Spot}
    (h : fs.descend followLast again here names = .ok spot) : spot.IsAt fs := by
  induction names generalizing here with
  | nil =>
    rw [descend] at h
    cases hhere : fs.entryAt? here with
    | none =>
      rw [hhere] at h
      cases h
    | some e =>
      rw [hhere] at h
      cases h
      exact hhere
  | cons name rest ih =>
    rw [descend] at h
    split at h
    · cases h
    · next hhere =>
      split at h
      · exact ih h
      · split at h
        · exact ih h
        · split at h
          · next hnone =>
            split at h
            · cases h
              exact ⟨hnone, by rwa [List.dropLast_concat]⟩
            · cases h
          · next target hlink =>
            split at h
            · cases h
              exact hlink
            · exact hagain _ _ _ h
          · exact ih h
    · cases h

theorem isAt_of_find {followLast : Bool} {p : Path} {spot : Spot}
    (h : fs.find followLast p = .ok spot) : spot.IsAt fs := by
  have hwithin : ∀ links here names spot,
      fs.descendWithin followLast links here names = .ok spot → spot.IsAt fs := by
    intro links
    induction links with
    | zero =>
      intro here names spot hspot
      refine isAt_of_descend ?_ hspot
      intro _ _ _ hloop
      cases hloop
    | succ links ih =>
      intro here names spot hspot
      exact isAt_of_descend ih hspot
  exact hwithin _ _ _ _ h

/-- A path that leads to an entry leads to the one that stands there. -/
theorem entryAt?_of_lookUp {followLast : Bool} {p : Path} {e : Entry}
    (h : fs.lookUp followLast p = .ok (location, e)) : fs.entryAt? location = some e := by
  rw [lookUp] at h
  split at h
  · next hfind =>
    cases h
    exact isAt_of_find hfind
  · cases h
  · cases h

/-! ## Emptying -/

/-- Whether the path leads to the location. -/
def leadsTo (fs : FileSystem) (p : Path) (location : Location) : Bool :=
  match fs.lookUp true p with
  | .ok (there, _) => there == location
  | .error _ => false

/-- The file system with an empty file at the location, and no path to it refused reading. -/
def emptyAt (fs : FileSystem) (location : Location) : FileSystem :=
  { fs with
    entries := Assoc.put location (.file {}) fs.entries
    refusals := fs.refusals.filter fun r => !(r.1.1 == .read && fs.leadsTo r.1.2 location) }

variable {content : Content}

theorem entryAt?_emptyAt (hlocation : location ≠ []) (there : Location) :
    (fs.emptyAt location).entryAt? there =
      if there = location then some (.file {}) else fs.entryAt? there :=
  fs.entryAt?_put hlocation (.file {}) there

theorem ne_nil_of_file (h : fs.entryAt? location = some (.file content)) : location ≠ [] := by
  rintro rfl
  cases h

/-- Emptying a file changes nothing that can be seen without reading it. -/
theorem skeleton_emptyAt (h : fs.entryAt? location = some (.file content)) :
    (fs.emptyAt location).skeleton = fs.skeleton := by
  have hget : Assoc.get? location fs.entries = some (.file content) := by
    cases location with
    | nil => cases h
    | cons name rest => exact h
  have hentries := Assoc.map_put_of_get? Entry.hollow hget (w := .file {}) rfl
  have hrefusals : (fs.emptyAt location).refusals.filter (fun r => r.1.1 != .read) =
      fs.refusals.filter fun r => r.1.1 != .read := by
    rw [emptyAt, List.filter_filter]
    congr 1
    funext r
    by_cases hr : r.1.1 = .read <;> simp [hr]
  simp only [skeleton, hrefusals]
  exact congrArg (FileSystem.mk · _ _ _ _) hentries

theorem lookUp_emptyAt (h : fs.entryAt? location = some (.file content)) (p : Path) :
    (fs.emptyAt location).lookUp true p =
      (fs.lookUp true p).map fun found =>
        (found.1, if found.1 = location then .file {} else found.2) := by
  have hsame := (fs.emptyAt location).lookUp_skeleton true p
  rw [skeleton_emptyAt h, fs.lookUp_skeleton true p] at hsame
  -- Both lead to the same location; what stands there is known on either side.
  cases hold : fs.lookUp true p with
  | error e =>
    cases hnew : (fs.emptyAt location).lookUp true p with
    | error e' =>
      rw [hold, hnew] at hsame
      cases hsame
      rfl
    | ok found' =>
      rw [hold, hnew] at hsame
      cases hsame
  | ok found =>
    obtain ⟨there, e⟩ := found
    cases hnew : (fs.emptyAt location).lookUp true p with
    | error e' =>
      rw [hold, hnew] at hsame
      cases hsame
    | ok found' =>
      obtain ⟨there', e'⟩ := found'
      rw [hold, hnew] at hsame
      obtain rfl : there = there' := congrArg Prod.fst (Except.ok.inj hsame)
      have hentry := entryAt?_of_lookUp hnew
      rw [entryAt?_emptyAt (ne_nil_of_file h), entryAt?_of_lookUp hold] at hentry
      split at hentry
      · next hthere =>
        cases hentry
        simp [Except.map, hthere]
      · next hthere =>
        cases hentry
        simp [Except.map, hthere]

/-- What is read is nothing at the emptied file, and elsewhere what it was. -/
theorem readSource_emptyAt (h : fs.entryAt? location = some (.file content)) (p : Path) :
    (fs.emptyAt location).readSource p =
      if fs.leadsTo p location then .ok {} else fs.readSource p := by
  have hrefusal : (fs.emptyAt location).refusal? .read p =
      if fs.leadsTo p location then none else fs.refusal? .read p := by
    have hfilter : (fs.emptyAt location).refusal? .read p =
        if !(Operation.read == .read && fs.leadsTo p location) then fs.refusal? .read p else none :=
      Assoc.get?_filter_key
        (fun key : Operation × Path => !(key.1 == .read && fs.leadsTo key.2 location)) (.read, p)
        fs.refusals
    rw [hfilter]
    cases fs.leadsTo p location <;> rfl
  unfold readSource ask
  rw [hrefusal, FileSystem.content, FileSystem.content, lookUp_emptyAt h]
  cases hlook : fs.lookUp true p with
  | error e => simp [leadsTo, hlook, Except.map]
  | ok found =>
    obtain ⟨there, e⟩ := found
    by_cases hthere : there = location
    · simp [leadsTo, hlook, hthere, Except.map, contentOf]
    · simp [leadsTo, hlook, hthere, Except.map]

/-- The second tree is the first one, but that the files that the picked paths lead to can be read and are
empty. -/
structure Empties (emptied : Path → Bool) (fs fs' : FileSystem) : Prop where
  skeleton : fs'.skeleton = fs.skeleton
  readSource : ∀ p, fs'.readSource p = if emptied p then .ok {} else fs.readSource p

/-- Emptying files does not change how texts are read. -/
theorem Empties.codec_eq {emptied : Path → Bool} {fs fs' : FileSystem} (h : Empties emptied fs fs') :
    fs'.codec = fs.codec := by
  have hskeleton := congrArg FileSystem.codec h.skeleton
  exact hskeleton

theorem empties_emptyAt (h : fs.entryAt? location = some (.file content)) :
    Empties (fs.leadsTo · location) fs (fs.emptyAt location) :=
  ⟨skeleton_emptyAt h, readSource_emptyAt h⟩

end FileSystem

end SourceCensus
