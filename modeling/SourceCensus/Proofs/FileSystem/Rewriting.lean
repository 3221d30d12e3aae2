import SourceCensus.Proofs.FileSystem.Descent

/-!
# Writing to a file

A program that writes to a path changes the entry at one location and nothing else.  What this does to other
paths is not quite nothing: a location that was free is a file afterwards, and the search for a path may run
against it.  But

> a path that leads to another location leads there as before, a path that leads nowhere leads nowhere, and
> a path to the location itself leads to it still (`find_alike`).

This needs a table in which no entry hangs in the air (`IsRooted`).  Else a file could appear where a search
already stands, and a path that led nowhere would lead to it.

A file that is written anew is emptied when it is opened, before the system has taken any of the bytes.  So a
write that fails has changed nothing, or it has left the beginning of the bytes (`writeFile_cases`).
-/

set_option autoImplicit false

namespace SourceCensus.FileSystem

/-- Each entry is in a directory, and the working directory is one. -/
structure IsRooted (fs : FileSystem) : Prop where
  workingDirectory : fs.entryAt? fs.workingDirectory = some .directory
  parent : ∀ location e, fs.entryAt? location = some e → fs.entryAt? location.dropLast = some .directory

/-- The location that a spot is at. -/
def Spot.location : Spot → Location
  | .present location _ => location
  | .absent location => location

/-- The second file system is the first one, but for what is in the file at the location.  The file may be
new. -/
structure Rewritten (location : Location) (fs fs' : FileSystem) : Prop where
  workingDirectory : fs'.workingDirectory = fs.workingDirectory
  refusals : fs'.refusals = fs.refusals
  limits : fs'.limits = fs.limits
  codec : fs'.codec = fs.codec
  elsewhere : ∀ there, there ≠ location → fs'.entryAt? there = fs.entryAt? there
  parent : fs.entryAt? location.dropLast = some .directory
  before : ∀ e, fs.entryAt? location = some e → ∃ content, e = .file content
  after : ∃ content, fs'.entryAt? location = some (.file content)

namespace Rewritten

variable {location there : Location} {fs fs' fs'' : FileSystem}

theorem trans (h : Rewritten location fs fs') (h' : Rewritten location fs' fs'') :
    Rewritten location fs fs'' where
  workingDirectory := h'.workingDirectory.trans h.workingDirectory
  refusals := h'.refusals.trans h.refusals
  limits := h'.limits.trans h.limits
  codec := h'.codec.trans h.codec
  elsewhere there hthere := (h'.elsewhere there hthere).trans (h.elsewhere there hthere)
  parent := h.parent
  before := h.before
  after := h'.after

/-- What is there and is no file is elsewhere. -/
theorem entryAt?_eq (h : Rewritten location fs fs') {e : Entry} (he : fs.entryAt? there = some e)
    (hfile : ∀ content, e ≠ .file content) : fs'.entryAt? there = some e := by
  have hne : there ≠ location := by
    rintro rfl
    obtain ⟨content, hcontent⟩ := h.before e he
    exact hfile content hcontent
  exact (h.elsewhere there hne).trans he

theorem isRooted (h : Rewritten location fs fs') (hfs : fs.IsRooted) : fs'.IsRooted where
  workingDirectory := by
    rw [h.workingDirectory]
    exact h.entryAt?_eq hfs.workingDirectory (by simp)
  parent there e he := by
    by_cases hthere : there = location
    · rw [hthere]
      exact h.entryAt?_eq h.parent (by simp)
    · rw [h.elsewhere there hthere] at he
      exact h.entryAt?_eq (hfs.parent there e he) (by simp)

end Rewritten

/-! ## Searches behind a change -/

/-- Two searches that come to the same location, and to the same spot if this is not the one that was
written to. -/
inductive Alike (location : Location) : Except Errno Spot → Except Errno Spot → Prop where
  | failed (e e' : Errno) : Alike location (.error e) (.error e')
  | found {spot spot' : Spot} (hsame : spot'.location = spot.location)
      (hspot : spot.location ≠ location → spot' = spot) : Alike location (.ok spot) (.ok spot')

variable {fs fs' : FileSystem} {location : Location}

namespace Alike

variable {search search' : Except Errno Spot}

theorem exists_ok {spot : Spot} (h : Alike location (.ok spot) search') :
    ∃ spot', search' = .ok spot' ∧ spot'.location = spot.location := by
  cases h with
  | found hsame _ => exact ⟨_, rfl, hsame⟩

theorem exists_ok_before {spot' : Spot} (h : Alike location search (.ok spot')) :
    ∃ spot, search = .ok spot ∧ spot'.location = spot.location := by
  cases h with
  | found hsame _ => exact ⟨_, rfl, hsame⟩

theorem toOption_eq (h : Alike location search search')
    (helsewhere : ∀ spot, search = .ok spot → spot.location ≠ location) :
    search'.toOption = search.toOption := by
  cases h with
  | failed _ _ => rfl
  | found _ hspot => rw [hspot (helsewhere _ rfl)]

end Alike

/-- What stands where a search arrives is a file or as before. -/
theorem Rewritten.entryAt?_cases (h : Rewritten location fs fs') (here : Location) :
    fs'.entryAt? here = fs.entryAt? here ∨
      here = location ∧ ∃ content, fs'.entryAt? here = some (.file content) := by
  by_cases hhere : here = location
  · exact .inr ⟨hhere, hhere ▸ h.after⟩
  · exact .inl (h.elsewhere here hhere)

/-- Nothing can be looked up in what is no directory. -/
theorem descend_of_ne_directory {followLast : Bool}
    {again : Location → List String → Except Errno Spot} {here : Location} {e : Entry}
    (h : fs.entryAt? here = some e) (he : e ≠ .directory) {names : List String} (hnames : names ≠ []) :
    fs.descend followLast again here names = .error .notDirectory := by
  cases names with
  | nil => exact absurd rfl hnames
  | cons name rest =>
    rw [descend, h]
    cases e with
    | directory => exact absurd rfl he
    | _ => rfl

/-- A name that was not there and is that of the new file is found if the search ends there. -/
theorem alike_of_absent {followLast : Bool} {again : Location → List String → Except Errno Spot}
    {next : Location} {content : Content} (hnext : next = location)
    (hfile : fs'.entryAt? next = some (.file content)) (rest : List String) :
    Alike location (if rest.isEmpty then .ok (.absent next) else .error .notFound)
      (fs'.descend followLast again next rest) := by
  cases rest with
  | nil =>
    have hend : fs'.descend followLast again next [] = .ok (.present next (.file content)) := by
      rw [descend, hfile]
    rw [hend]
    exact .found rfl fun hne => absurd hnext hne
  | cons name rest =>
    rw [descend_of_ne_directory hfile (by simp) (List.cons_ne_nil name rest)]
    exact .failed _ _

/-- What was no directory is none behind the change. -/
theorem descend_alike_of_ne_directory (h : Rewritten location fs fs') {followLast : Bool}
    {again again' : Location → List String → Except Errno Spot} {here : Location} {e : Entry}
    (hhere : fs.entryAt? here = some e) (he : e ≠ .directory) {names : List String} (hnames : names ≠ []) :
    Alike location (fs.descend followLast again here names)
      (fs'.descend followLast again' here names) := by
  have hstill : ∃ e', fs'.entryAt? here = some e' ∧ e' ≠ .directory := by
    rcases h.entryAt?_cases here with hsame | ⟨-, content, hfile⟩
    · exact ⟨e, hsame.trans hhere, he⟩
    · exact ⟨.file content, hfile, by simp⟩
  obtain ⟨e', he', hne⟩ := hstill
  rw [descend_of_ne_directory hhere he hnames, descend_of_ne_directory he' hne hnames]
  exact .failed _ _

theorem descend_alike (hfs : fs.IsRooted) (h : Rewritten location fs fs') {followLast : Bool}
    {again again' : Location → List String → Except Errno Spot}
    (hagain : ∀ here names, fs.entryAt? here = some .directory →
      Alike location (again here names) (again' here names))
    {here : Location} {e : Entry} (hhere : fs.entryAt? here = some e) (names : List String) :
    Alike location (fs.descend followLast again here names)
      (fs'.descend followLast again' here names) := by
  -- The two searches stand at one location until they come upon the one that was written to.
  induction names generalizing here e with
  | nil =>
    rw [descend, descend, hhere]
    rcases h.entryAt?_cases here with hsame | ⟨rfl, content, hfile⟩
    · rw [hsame, hhere]
      exact .found rfl fun _ => rfl
    · rw [hfile]
      exact .found rfl fun hne => absurd rfl hne
  | cons name rest ih =>
    by_cases hdirectory : e = .directory
    · subst hdirectory
      rw [descend, descend, hhere, h.entryAt?_eq hhere (by simp)]
      dsimp only
      split
      · exact ih hhere
      · split
        · exact ih (hfs.parent here _ hhere)
        · cases hnext : fs.entryAt? (here ++ [name]) with
          | none =>
            rcases h.entryAt?_cases (here ++ [name]) with hsame | ⟨hlocation, content, hfile⟩
            · rw [hsame, hnext]
              dsimp only
              split
              · exact .found rfl fun _ => rfl
              · exact .failed _ _
            · rw [hfile]
              exact alike_of_absent hlocation hfile rest
          | some next =>
            cases next with
            | link target =>
              rw [h.entryAt?_eq hnext (by simp)]
              dsimp only
              split
              · exact .found rfl fun _ => rfl
              · refine hagain _ _ ?_
                rw [targetStart]
                split
                · rfl
                · exact hhere
            | _ =>
              rcases h.entryAt?_cases (here ++ [name]) with hsame | ⟨-, content, hfile⟩
              · rw [hsame, hnext]
                exact ih hnext
              · rw [hfile]
                exact ih hnext
    · exact descend_alike_of_ne_directory h hhere hdirectory (List.cons_ne_nil name rest)

theorem descendWithin_alike (hfs : fs.IsRooted) (h : Rewritten location fs fs') (followLast : Bool)
    (links : Nat) {here : Location} {e : Entry} (hhere : fs.entryAt? here = some e)
    (names : List String) :
    Alike location (fs.descendWithin followLast links here names)
      (fs'.descendWithin followLast links here names) := by
  induction links generalizing here e names with
  | zero => exact descend_alike hfs h (fun _ _ _ => .failed _ _) hhere names
  | succ links ih => exact descend_alike hfs h (fun _ names hagain => ih hagain names) hhere names

/-- A path leads where it led before, or nowhere as before. -/
theorem find_alike (hfs : fs.IsRooted) (h : Rewritten location fs fs') (followLast : Bool) (p : Path) :
    Alike location (fs.find followLast p) (fs'.find followLast p) := by
  have hstart : fs'.startOf p = fs.startOf p := by
    rw [startOf, startOf, h.workingDirectory]
  rw [find, find, hstart]
  have hdirectory : fs.entryAt? (fs.startOf p) = some .directory := by
    rw [startOf]
    split
    · exact hfs.workingDirectory
    · rfl
  exact descendWithin_alike hfs h followLast maxLinks hdirectory p.parts

/-! ## Writing -/

theorem rewritten_put (hlocation : location ≠ [])
    (hparent : fs.entryAt? location.dropLast = some .directory)
    (hbefore : ∀ e, fs.entryAt? location = some e → ∃ content, e = .file content)
    (content : Content) : Rewritten location fs (fs.put location (.file content)) where
  workingDirectory := rfl
  refusals := rfl
  limits := rfl
  codec := rfl
  elsewhere there hthere := by rw [entryAt?_put fs hlocation, if_neg hthere]
  parent := hparent
  before := hbefore
  after := ⟨content, by rw [entryAt?_put fs hlocation, if_pos rfl]⟩

/-- A path to the location leads to the file that is there now. -/
theorem Rewritten.find_eq (hfs : fs.IsRooted) {p : Path} {spot : Spot} {content : Content}
    (h : Rewritten spot.location fs fs') (hfind : fs.find true p = .ok spot)
    (hfile : fs'.entryAt? spot.location = some (.file content)) :
    fs'.find true p = .ok (.present spot.location (.file content)) := by
  have halike := find_alike hfs h true p
  rw [hfind] at halike
  obtain ⟨spot', hfind', hsame⟩ := halike.exists_ok
  have hat := isAt_of_find hfind'
  rw [hfind']
  cases spot' with
  | absent there =>
    rw [show there = spot.location from hsame] at hat
    cases hat.1.symm.trans hfile
  | present there e =>
    rw [show there = spot.location from hsame] at hat ⊢
    cases hat.symm.trans hfile
    rfl

theorem entryAt?_put_self (hlocation : location ≠ []) (e : Entry) :
    (fs.put location e).entryAt? location = some e := by
  rw [entryAt?_put fs hlocation, if_pos rfl]

/-- A file can be put in the place of one. -/
theorem rewritten_put_present (hfs : fs.IsRooted) {p : Path} {there : Location} {old : Content}
    (hfind : fs.find true p = .ok (.present there (.file old))) (content : Content) :
    there ≠ [] ∧ Rewritten there fs (fs.put there (.file content)) := by
  have hfile := isAt_of_find hfind
  have hne : there ≠ [] := ne_nil_of_file hfile
  refine ⟨hne, rewritten_put hne (hfs.parent there _ hfile) ?_ content⟩
  intro e he
  cases hfile.symm.trans he
  exact ⟨old, rfl⟩

/-- What the system takes of the bytes is put behind what is in the file.  Nothing comes of writing to anything
else. -/
theorem extend_cases (hfs : fs.IsRooted) (p : Path) (bytes : List UInt8) :
    (fs.extend p bytes = fs ∧
      ∀ there content, fs.find true p ≠ .ok (.present there (.file content))) ∨
    ∃ there content, fs.find true p = .ok (.present there (.file content)) ∧
      Rewritten there fs (fs.extend p bytes) ∧
      (fs.extend p bytes).entryAt? there =
        some (.file { content with bytes := content.bytes ++ fs.taken p bytes }) := by
  unfold extend
  split
  · next there content hfind =>
    obtain ⟨hne, hrewritten⟩ := rewritten_put_present hfs hfind _
    exact .inr ⟨there, content, hfind, hrewritten, entryAt?_put_self hne _⟩
  · next hnone => exact .inl ⟨rfl, hnone⟩

end SourceCensus.FileSystem
