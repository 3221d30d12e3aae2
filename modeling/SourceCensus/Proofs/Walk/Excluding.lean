import SourceCensus.Walk

/-!
# Walks that leave files out

A glob is looked at last, when an entry is known to be a file.  So of two walks through the same tree, one
with globs and one without, both are at the same place all the time:

> they visit the same directories in the same order and are stopped by the same entries, and the one with
> globs finds what the other one finds, without the files that a glob fits (`ofRoot_excluding`).

`Abreast` is this relation between the trails of the two walks.  The globs must have been read: one that
could not be read stops the walk at the first file that no earlier glob fits.
-/

set_option autoImplicit false

namespace SourceCensus

/-- Whether one of the globs fits the path. -/
def Glob.excludes (globs : List Glob) (p : Path) : Bool := globs.any (·.fits p)

theorem Glob.anyFits_map_ok (globs : List Glob) (p : Path) :
    Glob.anyFits p (globs.map .ok) = .ok (Glob.excludes globs p) := by
  induction globs with
  | nil => rfl
  | cons g globs ih =>
    rw [Glob.excludes] at ih
    rw [List.map_cons, Glob.anyFits, Glob.excludes, List.any_cons]
    by_cases hg : g.fits p = true
    · rw [if_pos hg, hg, Bool.true_or]
    · rw [if_neg hg, ih, Bool.eq_false_iff.mpr hg, Bool.false_or]

namespace Walk

/-- Two walks that are at the same place; the second one has left out the files that `skip` holds of. -/
structure Abreast (skip : Path → Bool) (t t' : Trail) : Prop where
  visited : t'.visited = t.visited
  stopped : t'.stopped = t.stopped
  files : t'.files = t.files.filter fun file => !skip file

namespace Abreast

variable {skip : Path → Bool} {t t' : Trail}

theorem stop (h : Abreast skip t t') (d : Defect) : Abreast skip (t.stop d) (t'.stop d) where
  visited := h.visited
  stopped := rfl
  files := h.files

theorem enter (h : Abreast skip t t') (directory : Location) :
    Abreast skip (t.enter directory) (t'.enter directory) where
  visited := congrArg (directory :: ·) h.visited
  stopped := h.stopped
  files := h.files

/-- An event that is no file that was found leaves both walks as they are. -/
theorem note (h : Abreast skip t t') {e : WalkEvent} (he : e.file? = none) :
    Abreast skip (t.note e) (t'.note e) where
  visited := h.visited
  stopped := h.stopped
  files := by simpa [he] using h.files

/-- A file is found by both walks, or by the first one only when it is to be left out. -/
theorem file (h : Abreast skip t t') (p : Path) :
    Abreast skip (t.note (.found p)) (t'.note (if skip p then .excluded p else .found p)) where
  visited := h.visited
  stopped := h.stopped
  files := by
    by_cases hp : skip p = true
    · simp [h.files, hp, WalkEvent.file?]
    · simp [h.files, hp, WalkEvent.file?]

end Abreast

variable {fs : FileSystem} {bare : WalkOptions} {globs : List Glob} {t t' : Trail}

/-- The options with these globs. -/
def excluding (bare : WalkOptions) (globs : List Glob) : WalkOptions :=
  { bare with globs := globs.map .ok }

@[simp] theorem excluding_followLinks : (excluding bare globs).followLinks = bare.followLinks := rfl

@[simp] theorem excluding_allowHidden : (excluding bare globs).allowHidden = bare.allowHidden := rfl

theorem abreast_passFile (hbare : bare.globs = [])
    (h : Abreast (Glob.excludes globs) t t') (e : Listed) :
    Abreast (Glob.excludes globs) (passFile fs bare t e)
      (passFile fs (excluding bare globs) t' e) := by
  rw [passFile, passFile]
  cases fs.isFile e with
  | error d => exact h.stop d
  | ok is =>
    cases is with
    | false => exact h
    | true =>
      have hfile := h.file e.path
      simp only [hbare, excluding, Glob.anyFits, Glob.anyFits_map_ok]
      cases hfits : Glob.excludes globs e.path with
      | false => simpa [hfits] using hfile
      | true => simpa [hfits] using hfile

/-- One entry keeps the two walks at the same place, if directories do. -/
theorem abreast_pass {enter enter' : Path → Trail → Trail} (hbare : bare.globs = [])
    (henter : ∀ p {s s' : Trail}, Abreast (Glob.excludes globs) s s' →
      Abreast (Glob.excludes globs) (enter p s) (enter' p s'))
    (h : Abreast (Glob.excludes globs) t t') (e : Listed) :
    Abreast (Glob.excludes globs) (pass fs bare enter t e)
      (pass fs (excluding bare globs) enter' t' e) := by
  rw [pass, pass, h.stopped, excluding_followLinks, excluding_allowHidden]
  split
  · exact h
  · split
    · exact h
    · cases fs.isDirectory bare.followLinks e with
      | error d => exact h.stop d
      | ok is =>
        cases is with
        | false => exact abreast_passFile hbare h e
        | true => exact henter e.path h

/-- A directory keeps the two walks at the same place. -/
theorem abreast_visit (hbare : bare.globs = []) (depth : Nat) (directory : Path)
    (h : Abreast (Glob.excludes globs) t t') :
    Abreast (Glob.excludes globs) (visit fs bare depth directory t)
      (visit fs (excluding bare globs) depth directory t') := by
  induction depth generalizing directory t t' with
  | zero => exact h
  | succ depth ih =>
    rw [visit, visit]
    cases fs.stat directory with
    | error e => exact h.note rfl
    | ok found =>
      obtain ⟨location, entry⟩ := found
      simp only [h.visited]
      split
      · exact h.note rfl
      · cases fs.list directory with
        | error e => exact (h.enter location).note rfl
        | ok entries =>
          exact List.foldl_rel (h.enter location) fun e _ s s' hs =>
            abreast_pass hbare (fun p {_ _} hp => ih p hp) hs e

/-- With globs a walk is stopped by what stops it without them, and finds the files that none of them
fits. -/
theorem ofRoot_excluding (hbare : bare.globs = []) (root : Path) :
    (ofRoot fs (excluding bare globs) root).stopped = (ofRoot fs bare root).stopped ∧
      (ofRoot fs (excluding bare globs) root).files =
        (ofRoot fs bare root).files.filter fun file => !Glob.excludes globs file := by
  have hstart : Abreast (Glob.excludes globs) {} {} := ⟨rfl, rfl, rfl⟩
  have hend : Abreast (Glob.excludes globs) (ofRoot fs bare root)
      (ofRoot fs (excluding bare globs) root) :=
    abreast_visit hbare (maxDepth fs) root hstart
  exact ⟨hend.stopped, hend.files⟩

end Walk

end SourceCensus
