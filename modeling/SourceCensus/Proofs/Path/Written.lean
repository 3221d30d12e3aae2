import SourceCensus.Proofs.Dotted.Components

/-!
# Paths and their written form

A path is written with its root in front and slashes between its components.  The written form stands for
the path in messages, in the order of reports and in every output format, so it must not be shared by two
paths:

> reading the written form of a path gives the path back (`Path.ofString_render`).

This holds of the paths that a text can write, whose components are *names*: texts without a slash that are
neither empty nor `.`.  The one path that is not written by its components is the empty relative one, and
`.` is no name.
-/

set_option autoImplicit false

namespace SourceCensus.Path

/-- A text that can stand between the slashes of a written path. -/
structure IsName (part : String) : Prop where
  slashless : '/' ∉ part.toList
  kept : isPart part.toList = true

/-- All components of the path are names. -/
def IsLexical (p : Path) : Prop := ∀ part ∈ p.parts, IsName part

theorem IsName.ne_nil {part : String} (h : IsName part) : part.toList ≠ [] := by
  intro hnil
  have hkept := h.kept
  rw [hnil] at hkept
  exact Bool.noConfusion hkept

/-- What a text writes has names for components. -/
theorem isLexical_ofString (s : String) : (ofString s).IsLexical := by
  intro part hpart
  obtain ⟨piece, hpiece, rfl⟩ := List.mem_map.mp hpart
  obtain ⟨hmem, hkept⟩ := List.mem_filter.mp hpiece
  refine ⟨?_, by rwa [String.toList_ofList]⟩
  rw [String.toList_ofList]
  exact (Dotted.of_mem_splitOn hmem).1

/-! ## The components -/

/-- The components with slashes between them do not begin with a slash. -/
theorem head?_renderParts_ne {parts : List String} (h : ∀ part ∈ parts, IsName part) :
    (renderParts parts).toList.head? ≠ some '/' := by
  cases parts with
  | nil => simp [renderParts]
  | cons part parts =>
    have hname := h part List.mem_cons_self
    obtain ⟨c, rest, hpart⟩ := List.exists_cons_of_ne_nil hname.ne_nil
    have hc : c ≠ '/' := by
      rintro rfl
      exact hname.slashless (hpart ▸ List.mem_cons_self)
    rw [renderParts, String.toList_intercalate, List.map_cons, hpart]
    cases parts <;> simp [List.intercalate_cons_cons, hc]

theorem partsOf_renderParts {parts : List String} (h : ∀ part ∈ parts, IsName part) :
    partsOf (renderParts parts).toList = parts := by
  cases parts with
  | nil => rfl
  | cons part parts =>
    have hsplit : (renderParts (part :: parts)).toList.splitOn '/' =
        (part :: parts).map String.toList := by
      rw [renderParts, String.toList_intercalate]
      refine List.splitOn_intercalate '/' ?_ (by simp)
      rintro _ hmem
      obtain ⟨part', hpart', rfl⟩ := List.mem_map.mp hmem
      exact (h part' hpart').slashless
    have hkept : ((part :: parts).map String.toList).filter isPart =
        (part :: parts).map String.toList := by
      rw [List.filter_eq_self]
      rintro _ hmem
      obtain ⟨part', hpart', rfl⟩ := List.mem_map.mp hmem
      exact (h part' hpart').kept
    rw [partsOf, hsplit, hkept]
    simp

/-- A slash in front of a text adds no component. -/
theorem partsOf_cons_slash (s : List Char) : partsOf ('/' :: s) = partsOf s := by
  simp [partsOf, List.splitOn_cons_eq_if_modifyHead, isPart]

/-! ## The root -/

theorem rootOf_of_head?_ne {s : List Char} (h : s.head? ≠ some '/') : rootOf s = .relative := by
  cases s with
  | nil => rfl
  | cons c s =>
    have hc : c ≠ '/' := by simpa using h
    simp [rootOf, hc]

theorem rootOf_slash {s : List Char} (h : s.head? ≠ some '/') : rootOf ('/' :: s) = .absolute := by
  cases s with
  | nil => rfl
  | cons c s =>
    have hc : c ≠ '/' := by simpa using h
    simp [rootOf, hc]

theorem rootOf_slash_slash {s : List Char} (h : s.head? ≠ some '/') :
    rootOf ('/' :: '/' :: s) = .doubled := by
  cases s with
  | nil => rfl
  | cons c s =>
    have hc : c ≠ '/' := by simpa using h
    simp [rootOf, hc]

/-! ## The path -/

theorem ofString_renderBare {p : Path} (h : p.IsLexical) : ofString p.renderBare = p := by
  have hhead := head?_renderParts_ne h
  have hparts := partsOf_renderParts h
  cases p with
  | mk root parts =>
    rw [ofString, renderBare, String.toList_append]
    cases root with
    | relative => simp [PathRoot.render, rootOf_of_head?_ne hhead, hparts]
    | absolute => simp [PathRoot.render, rootOf_slash hhead, partsOf_cons_slash, hparts]
    | doubled => simp [PathRoot.render, rootOf_slash_slash hhead, partsOf_cons_slash, hparts]

/-- The written form of a path writes that path. -/
theorem ofString_render {p : Path} (h : p.IsLexical) : ofString p.render = p := by
  unfold render
  split
  · next hroot hparts =>
    cases p
    simp only at hroot hparts
    subst hroot hparts
    rfl
  · exact ofString_renderBare h

/-- No two paths have one written form. -/
theorem render_injective {p q : Path} (hp : p.IsLexical) (hq : q.IsLexical)
    (h : p.render = q.render) : p = q := by
  rw [← ofString_render hp, h, ofString_render hq]

/-! ## Paths as seen from another one -/

theorem IsLexical.of_below? {p base q : Path} (hp : p.IsLexical) (h : p.below? base = some q) :
    q.IsLexical := by
  obtain ⟨-, rfl⟩ := eq_of_below? h
  intro part hpart
  exact hp part (List.mem_append_right _ hpart)

/-- The written form of a path as seen from `base` leads from there to the path. -/
theorem join_render_of_below? {p base q : Path} (hp : p.IsLexical) (h : p.below? base = some q) :
    base.join q.render = p := by
  obtain ⟨hroot, hpath⟩ := eq_of_below? h
  rw [join, ofString_render (hp.of_below? h), append, hroot]
  exact hpath.symm

end SourceCensus.Path
