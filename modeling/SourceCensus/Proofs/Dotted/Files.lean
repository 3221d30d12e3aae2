import SourceCensus.Graph.Basic
import SourceCensus.Proofs.Dotted.Components
import SourceCensus.Proofs.Path.Order

/-!
# Names and the files that they stand for

A dotted name stands for a file below a root: all its solid components but the last are directories, and the
last one with the extension is the file's own name.  Nothing is lost on the way but the empty components:

> two names stand for the same file exactly if they have the same solid components, and the file at any
> components is what they stand for when dots are put between them (`path?_by_components`).

No root gets in the way, be it absolute, relative or one that leads upwards.  A component without dots and
slashes is put behind the root as it is, and what lies behind the root is seen from there whatever the root
is (`Path.namespaceBelow?_under`).  The extension is a part of the last component, so without a slash in it it
opens no directory.
-/

set_option autoImplicit false

namespace SourceCensus

/-! ## Files below a root -/

/-- The namespace of a file below the root is the first of its names, if there is a second one. -/
theorem Path.namespaceBelow?_under (root : Path) (first : String) (rest : List String) :
    (root.under (first :: rest)).namespaceBelow? root = if rest = [] then none else some first := by
  unfold namespaceBelow? under
  rw [below?_append_parts]
  cases rest <;> rfl

theorem Path.namespaceBelow?_under_concat (root : Path) (init : List String) (last : String) :
    (root.under (init ++ [last])).namespaceBelow? root = init.head? := by
  cases init with
  | nil => exact namespaceBelow?_under root last []
  | cons first init =>
    rw [List.cons_append, namespaceBelow?_under]
    simp

namespace Dotted

variable {name name' extension last : String} {root : Path} {init : List String}

theorem withExtension_concat (extension : String) (init : List String) (last : String) :
    withExtension extension (init ++ [last]) = init ++ [last ++ extension] := by
  induction init with
  | nil => rfl
  | cons part init ih =>
    cases init with
    | nil => rfl
    | cons next init =>
      show part :: withExtension extension (next :: init ++ [last]) = _
      rw [ih]
      rfl

theorem withExtension_injective (extension : String) : Function.Injective (withExtension extension) := by
  intro parts parts' h
  obtain rfl | ⟨init, last, rfl⟩ := List.eq_nil_or_concat parts
  · have hlength := congrArg List.length h
    rw [length_withExtension, length_withExtension] at hlength
    exact (List.eq_nil_of_length_eq_zero hlength.symm).symm
  · obtain rfl | ⟨init', last', rfl⟩ := List.eq_nil_or_concat parts'
    · simp [withExtension_concat, withExtension] at h
    · simp only [List.concat_eq_append, withExtension_concat] at h ⊢
      simpa using h

/-! ## From names to files -/

theorem solidComponents_eq_nil_iff : solidComponents name = [] ↔ ∀ part ∈ components name, part = "" := by
  simp [solidComponents, List.filter_eq_nil_iff]

theorem path?_eq_none_iff : path? name root extension = none ↔ solidComponents name = [] := by
  rw [path?]
  cases solidComponents name <;> simp

theorem path?_of_solidComponents (hextension : '/' ∉ extension.toList) (hslash : '/' ∉ name.toList)
    (h : solidComponents name = init ++ [last]) :
    path? name root extension = some (root.under (init ++ [last ++ extension])) := by
  apply (path?_eq_some_iff hextension hslash).mpr
  rw [h, withExtension_concat]
  exact ⟨by simp, rfl⟩

/-- The solid components can be read off the file. -/
theorem path?_eq_path?_iff (hextension : '/' ∉ extension.toList) (hslash : '/' ∉ name.toList)
    (hslash' : '/' ∉ name'.toList) :
    path? name root extension = path? name' root extension ↔
      solidComponents name = solidComponents name' := by
  constructor
  · intro h
    cases hpath : path? name root extension with
    | none =>
      rw [path?_eq_none_iff.mp hpath, path?_eq_none_iff.mp (h.symm.trans hpath)]
    | some file =>
      obtain ⟨-, hfile⟩ := (path?_eq_some_iff hextension hslash).mp hpath
      obtain ⟨-, hfile'⟩ := (path?_eq_some_iff hextension hslash').mp (h.symm.trans hpath)
      apply withExtension_injective extension
      exact root.under_injective (hfile.symm.trans hfile')
  · intro h
    rw [path?, path?, h]

/-! ## And back -/

/-- Components that are put together with dots between them are the solid components of the name. -/
theorem solidComponents_intercalate {parts : List String} (hne : parts ≠ [])
    (hparts : ∀ part ∈ parts, part ≠ "" ∧ '.' ∉ part.toList) :
    solidComponents (".".intercalate parts) = parts := by
  rw [solidComponents, components_intercalate hne fun part hpart => (hparts part hpart).2]
  apply List.filter_eq_self.mpr
  intro part hpart
  simpa using (hparts part hpart).1

theorem slash_not_mem_intercalate {parts : List String} (hparts : ∀ part ∈ parts, '/' ∉ part.toList) :
    '/' ∉ (".".intercalate parts).toList := by
  induction parts with
  | nil => simp
  | cons part parts ih =>
    obtain ⟨hpart, hrest⟩ := List.forall_mem_cons.mp hparts
    cases parts with
    | nil => simpa using hpart
    | cons next parts =>
      rw [String.intercalate_cons_cons, String.toList_append, String.toList_append, List.mem_append,
        List.mem_append, not_or, not_or]
      exact ⟨⟨hpart, by decide⟩, ih hrest⟩

/-- A name without a slash stands for the file that its solid components lead to, and no two lists of
components lead to the same file or have no name. -/
theorem path?_by_components (root : Path) {extension : String} (hextension : '/' ∉ extension.toList) :
    (∀ name : String, '/' ∉ name.toList →
      (path? name root extension = none ↔ ∀ part ∈ components name, part = "") ∧
      ∀ init last, solidComponents name = init ++ [last] →
        ∃ file, path? name root extension = some file ∧
          file = root.under (init ++ [last ++ extension]) ∧ file.namespaceBelow? root = init.head?) ∧
    (∀ name name' : String, '/' ∉ name.toList → '/' ∉ name'.toList →
      (path? name root extension = path? name' root extension ↔
        solidComponents name = solidComponents name')) ∧
    ∀ init last, (∀ part ∈ init ++ [last], part ≠ "" ∧ '.' ∉ part.toList ∧ '/' ∉ part.toList) →
      path? (".".intercalate (init ++ [last])) root extension =
        some (root.under (init ++ [last ++ extension])) := by
  refine ⟨fun name hslash => ⟨?_, ?_⟩, ?_, ?_⟩
  · rw [path?_eq_none_iff, solidComponents_eq_nil_iff]
  · intro init last h
    exact ⟨_, path?_of_solidComponents hextension hslash h, rfl,
      root.namespaceBelow?_under_concat init (last ++ extension)⟩
  · intro name name' hslash hslash'
    exact path?_eq_path?_iff hextension hslash hslash'
  · intro init last hparts
    apply path?_of_solidComponents hextension
    · exact slash_not_mem_intercalate fun part hpart => (hparts part hpart).2.2
    · exact solidComponents_intercalate (by simp) fun part hpart =>
        ⟨(hparts part hpart).1, (hparts part hpart).2.1⟩

theorem path?_by_components_dots :
    let root : Path := ⟨.relative, [".."]⟩
    let file : Path := ⟨.relative, ["..", "a", "b", "C.java"]⟩
    '/' ∉ ".java".toList ∧ '/' ∉ ".a..b.C.".toList ∧ solidComponents ".a..b.C." = ["a", "b"] ++ ["C"] ∧
      path? ".a..b.C." root ".java" = some file ∧ file.namespaceBelow? root = some "a" ∧
      path? ".a..b.C." root ".java" = path? "a.b.C" root ".java" ∧
      path? "a.b.C" root ".java" = some file := by
  intro root file
  have hextension : '/' ∉ ".java".toList := by decide
  have hslash : '/' ∉ ".a..b.C.".toList := by decide
  have hslash' : '/' ∉ "a.b.C".toList := by decide
  have hsolid : solidComponents ".a..b.C." = ["a", "b"] ++ ["C"] := by decide +kernel
  have hsame : solidComponents ".a..b.C." = solidComponents "a.b.C" := by decide +kernel
  obtain ⟨hnames, hinjective, hfiles⟩ := path?_by_components root hextension
  obtain ⟨_, hpath, rfl, hnamespace⟩ := (hnames ".a..b.C." hslash).2 ["a", "b"] "C" hsolid
  exact ⟨hextension, hslash, hsolid, hpath, hnamespace, (hinjective _ _ hslash hslash').mpr hsame,
    hfiles ["a", "b"] "C" (by decide)⟩

end Dotted

end SourceCensus
