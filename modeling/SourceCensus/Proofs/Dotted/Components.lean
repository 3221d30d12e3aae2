import SourceCensus.Dotted

/-!
# The components of a dotted name

A dotted name is cut at its dots, and its components with dots between them are the name again, however many
of them are empty (`intercalate_components`, `components_intercalate`).  As a file it is read with the empty
components left out, and as part of a namespace with all of them.  This file says what either reading makes
of a name:

> without a slash in it, the name stands for the root with the solid components behind it, the last one with
> the extension (`path?_eq_some_iff`), and it lies under the namespaces whose components are the first ones
> of its own (`isUnder_iff_isPrefix`).

So it lies under its first solid component exactly when it does not begin with a dot
(`isUnder_iff_of_solidComponents`).

A component has no dot in it, so it is neither `.` nor `..`, and reading it as a path gives it back as the
only component (`Path.ofString_of_isPart`).  This is why nothing in a name without a slash can lead out of
the root.
-/

set_option autoImplicit false

namespace SourceCensus

/-- A text that is kept as a component and has no slash in it is the one component that it writes. -/
theorem Path.ofString_of_isPart {s : String} (hslash : '/' ∉ s.toList)
    (hpart : Path.isPart s.toList = true) : Path.ofString s = ⟨.relative, [s]⟩ := by
  have hroot : Path.rootOf s.toList = .relative := by
    cases hs : s.toList with
    | nil => rfl
    | cons c rest =>
      have hc : c ≠ '/' := by
        rintro rfl
        exact hslash (hs ▸ List.mem_cons_self)
      simp [Path.rootOf, hc]
  have hparts : Path.partsOf s.toList = [s] := by
    rw [Path.partsOf, List.splitOn_eq_singleton hslash, List.filter_cons_of_pos hpart]
    simp
  rw [Path.ofString, hroot, hparts]

namespace Dotted

variable {name extension : String} {root : Path}

/-! ## Cutting at the dots -/

/-- A piece of a list that was cut at `a` has no `a` in it, and nothing else than the list. -/
theorem of_mem_splitOn {α : Type} [BEq α] [LawfulBEq α] {a : α} {piece xs : List α}
    (h : piece ∈ xs.splitOn a) : a ∉ piece ∧ piece ⊆ xs := by
  induction xs generalizing piece with
  | nil =>
    rw [List.splitOn_nil, List.mem_singleton] at h
    subst h
    exact ⟨List.not_mem_nil, List.Subset.refl _⟩
  | cons x xs ih =>
    rw [List.splitOn_cons_eq_if_modifyHead] at h
    obtain ⟨first, others, hsplit⟩ := List.exists_cons_of_ne_nil (List.splitOn_ne_nil a xs)
    rw [hsplit] at h ih
    split at h
    · rcases List.mem_cons.mp h with rfl | h
      · exact ⟨List.not_mem_nil, List.nil_subset _⟩
      · exact (ih h).imp_right (List.subset_cons_of_subset _)
    · next hx =>
      rw [List.modifyHead_cons] at h
      rcases List.mem_cons.mp h with rfl | h
      · obtain ⟨hfirst, hsub⟩ := ih List.mem_cons_self
        have hne : a ≠ x := by
          rintro rfl
          exact hx (BEq.refl a)
        exact ⟨by simp [hne, hfirst], List.cons_subset_cons _ hsub⟩
      · exact (ih (List.mem_cons_of_mem _ h)).imp_right (List.subset_cons_of_subset _)

theorem of_mem_components {part : String} (h : part ∈ components name) :
    '.' ∉ part.toList ∧ part.toList ⊆ name.toList := by
  obtain ⟨piece, hpiece, rfl⟩ := List.mem_map.mp h
  rw [String.toList_ofList]
  exact of_mem_splitOn hpiece

theorem components_of_not_mem (h : '.' ∉ name.toList) : components name = [name] := by
  simp [components, List.splitOn_eq_singleton h]

theorem intercalate_components (name : String) : ".".intercalate (components name) = name := by
  apply String.toList_inj.mp
  rw [String.toList_intercalate, components, List.map_map]
  simp [Function.comp_def, List.intercalate_splitOn]

/-- Texts without dots are the components of the name that they make. -/
theorem components_intercalate {parts : List String} (hne : parts ≠ [])
    (hparts : ∀ part ∈ parts, '.' ∉ part.toList) : components (".".intercalate parts) = parts := by
  have hsplit : (".".intercalate parts).toList.splitOn '.' = parts.map String.toList := by
    rw [String.toList_intercalate]
    apply List.splitOn_intercalate
    · simpa using hparts
    · simpa using hne
  rw [components, hsplit]
  simp

theorem components_append (name rest : String) :
    components (name ++ "." ++ rest) = components name ++ components rest := by
  simp [components, List.splitOn_append_cons_self]

/-- A solid component of a name without a slash is a component of a path. -/
theorem of_mem_solidComponents {part : String} (hslash : '/' ∉ name.toList)
    (h : part ∈ solidComponents name) :
    part.toList ≠ [] ∧ '.' ∉ part.toList ∧ '/' ∉ part.toList := by
  obtain ⟨hmem, hsolid⟩ := List.mem_filter.mp h
  obtain ⟨hdot, hsub⟩ := of_mem_components hmem
  refine ⟨?_, hdot, fun hpart => hslash (hsub hpart)⟩
  simpa [String.toList_eq_nil_iff] using hsolid

/-! ## The file -/

/-- The components with the extension at the last one. -/
def withExtension (extension : String) : List String → List String
  | [] => []
  | [last] => [last ++ extension]
  | part :: parts => part :: withExtension extension parts

theorem withExtension_cons_cons (part next : String) (parts : List String) :
    withExtension extension (part :: next :: parts) =
      part :: withExtension extension (next :: parts) :=
  rfl

theorem length_withExtension (parts : List String) :
    (withExtension extension parts).length = parts.length := by
  induction parts with
  | nil => rfl
  | cons part parts ih =>
    cases parts with
    | nil => rfl
    | cons next parts =>
      rw [withExtension_cons_cons, List.length_cons, ih]
      rfl

/-- Components that are texts without dots and slashes are put behind the root as they are. -/
theorem joinParts_eq (hextension : '/' ∉ extension.toList) {parts : List String}
    (hparts : ∀ part ∈ parts, part.toList ≠ [] ∧ '.' ∉ part.toList ∧ '/' ∉ part.toList) :
    joinParts root extension parts = ⟨root.root, root.parts ++ withExtension extension parts⟩ := by
  induction parts generalizing root with
  | nil => simp [joinParts, withExtension]
  | cons part parts ih =>
    obtain ⟨hsolid, hdot, hslash⟩ := hparts part List.mem_cons_self
    obtain ⟨c, rest, hpart⟩ := List.exists_cons_of_ne_nil hsolid
    have hc : c ≠ '.' := by
      rintro rfl
      exact hdot (hpart ▸ List.mem_cons_self)
    cases parts with
    | nil =>
      have hread : Path.ofString (part ++ extension) = ⟨.relative, [part ++ extension]⟩ :=
        Path.ofString_of_isPart (by simp [hslash, hextension]) (by simp [Path.isPart, hpart, hc])
      simp [joinParts, Path.join, Path.append, hread, withExtension]
    | cons next parts =>
      have hread : Path.ofString part = ⟨.relative, [part]⟩ :=
        Path.ofString_of_isPart hslash (by simp [Path.isPart, hpart, hc])
      have hjoin : root.join part = ⟨root.root, root.parts ++ [part]⟩ := by
        simp [Path.join, Path.append, hread]
      rw [joinParts, ih fun p hp => hparts p (List.mem_cons_of_mem _ hp), hjoin,
        withExtension_cons_cons]
      · simp
      · simp

/-- A name without a slash stands for the file at its solid components below the root. -/
theorem path?_eq_some_iff {file : Path} (hextension : '/' ∉ extension.toList)
    (hslash : '/' ∉ name.toList) :
    path? name root extension = some file ↔
      solidComponents name ≠ [] ∧
        file = ⟨root.root, root.parts ++ withExtension extension (solidComponents name)⟩ := by
  have hjoin : joinParts root extension (solidComponents name) =
      ⟨root.root, root.parts ++ withExtension extension (solidComponents name)⟩ :=
    joinParts_eq hextension fun _ => of_mem_solidComponents hslash
  rw [path?]
  cases hparts : solidComponents name with
  | nil => simp
  | cons part parts =>
    rw [hparts] at hjoin
    simp [hjoin, eq_comm]

/-! ## The namespace -/

/-- The prefix test, as an equation between texts. -/
theorem isUnder_iff {ns : String} :
    isUnder name ns = true ↔ name = ns ∨ ∃ rest : String, name = ns ++ "." ++ rest := by
  simp only [isUnder, Bool.or_eq_true, beq_iff_eq, List.isPrefixOf_iff_prefix]
  refine or_congr_right ⟨?_, ?_⟩
  · rintro ⟨rest, hrest⟩
    refine ⟨String.ofList rest, String.toList_inj.mp ?_⟩
    simp [← hrest]
  · rintro ⟨rest, rfl⟩
    exact ⟨rest.toList, by simp⟩

/-- A name lies under a namespace exactly if the components of the namespace are the first ones of the name. -/
theorem isUnder_iff_isPrefix {ns : String} :
    isUnder name ns = true ↔ components ns <+: components name := by
  rw [isUnder_iff]
  constructor
  · rintro (rfl | ⟨rest, rfl⟩)
    · exact List.prefix_rfl
    · rw [components_append]
      exact List.prefix_append _ _
  · rintro ⟨others, hothers⟩
    rw [← intercalate_components name, ← hothers]
    cases others with
    | nil => exact .inl (by rw [List.append_nil, intercalate_components])
    | cons next others =>
      -- The other components have no dots in them, so they are those of a name of their own.
      have hdots : ∀ part ∈ next :: others, '.' ∉ part.toList := by
        intro part hpart
        have hmem : part ∈ components name := hothers ▸ List.mem_append_right _ hpart
        exact (of_mem_components hmem).1
      refine .inr ⟨".".intercalate (next :: others), ?_⟩
      rw [← intercalate_components (ns ++ "." ++ _), components_append,
        components_intercalate (List.cons_ne_nil _ _) hdots]

/-- A name lies under its first solid component exactly when it does not begin with a dot. -/
theorem isUnder_iff_of_solidComponents {ns : String} (h : (solidComponents name).head? = some ns) :
    isUnder name ns = true ↔ name.toList.head? ≠ some '.' := by
  obtain ⟨hmem, hsolid⟩ := List.mem_filter.mp (List.mem_of_mem_head? h)
  rw [isUnder_iff]
  constructor
  · -- The first character of the component is that of the name, and it is no dot.
    intro hunder hfirst
    obtain ⟨c, rest, hns⟩ : ∃ c rest, ns.toList = c :: rest :=
      List.exists_cons_of_ne_nil (by simpa [String.toList_eq_nil_iff] using hsolid)
    have hhead : name.toList.head? = some c := by
      rcases hunder with rfl | ⟨behind, rfl⟩ <;> simp [hns]
    obtain rfl : c = '.' := by simpa [hhead] using hfirst
    exact (of_mem_components hmem).1 (hns ▸ List.mem_cons_self)
  · intro hfirst
    obtain ⟨first, others, hcomponents⟩ :=
      List.exists_cons_of_ne_nil (l := components name) (by simp [components, List.splitOn_ne_nil])
    have hdot : '.' ∉ first.toList :=
      (of_mem_components (hcomponents ▸ List.mem_cons_self)).1
    have hname : name = first ∨ ∃ rest : String, name = first ++ "." ++ rest := by
      rw [← isUnder_iff, isUnder_iff_isPrefix, components_of_not_mem hdot, hcomponents]
      exact List.prefix_append _ _
    by_cases hempty : first = ""
    · -- An empty first component means that the name is empty or begins with a dot.
      subst hempty
      rcases hname with rfl | ⟨rest, rfl⟩
      · simp [solidComponents, components] at h
      · simp at hfirst
    · have hns : first = ns := by
        rw [solidComponents, hcomponents, List.filter_cons_of_pos (by simpa using hempty)] at h
        simpa using h
      exact hns ▸ hname

end Dotted

end SourceCensus
