import Mathlib.Data.List.Pairwise
import Mathlib.Order.Preorder.Chain
import SourceCensus.Proofs.Dotted.Components
import SourceCensus.Proofs.Graph.Construction

/-!
# The order of names

Whether a name lies under a namespace is found out by comparing texts, with a dot put behind the namespace.
What it means is said of components:

> the components of the namespace are the first ones of the name (`isUnder_iff_isPrefix`).

So `alphabet.X` does not lie under `alpha`, and a name with dots at odd places lies under the beginnings of
the list that its empty components belong to.  A list and its beginnings are in order, and names are no
worse: lying under is a partial order on all texts, because the components say what the name was.  The
namespaces above one name are beginnings of one list and form a chain, so that one import never leads to two
namespaces of which neither lies under the other (`isUnder_by_components`).
-/

set_option autoImplicit false

namespace SourceCensus.Dotted

variable {name ns ns' : String}

/-- The components tell names apart. -/
theorem components_injective : Function.Injective components :=
  Function.LeftInverse.injective intercalate_components

theorem isPartialOrder_isUnder : IsPartialOrder String fun ns name => isUnder name ns = true where
  refl name := by
    apply isUnder_iff_isPrefix.mpr
    exact List.prefix_rfl
  trans a b c hab hbc := by
    rw [isUnder_iff_isPrefix] at hab hbc ⊢
    exact hab.trans hbc
  antisymm a b hab hba := by
    rw [isUnder_iff_isPrefix] at hab hba
    apply components_injective
    exact hab.eq_of_length (Nat.le_antisymm hab.length_le hba.length_le)

/-- Of two namespaces above one name, the one with fewer components is above the other. -/
theorem isUnder_or_isUnder (h : isUnder name ns = true) (h' : isUnder name ns' = true) :
    isUnder ns' ns = true ∨ isUnder ns ns' = true := by
  rw [isUnder_iff_isPrefix] at h h' ⊢
  rw [isUnder_iff_isPrefix]
  exact List.prefix_or_prefix_of_prefix h h'

theorem isUnder_of_mem_ofImports {namespaces : List String}
    (h : ns ∈ (Resolution.ofImports namespaces [name]).found) : isUnder name ns = true := by
  obtain ⟨-, other, hother, hunder⟩ := Resolution.mem_ofImports.mp h
  obtain rfl := List.mem_singleton.mp hother
  exact hunder

/-- A name lies under the namespaces whose components are the first ones of its own.  This is a partial order,
and what lies above one name is a chain in it. -/
theorem isUnder_by_components :
    (∀ name ns : String, isUnder name ns = true ↔ components ns <+: components name) ∧
    (IsPartialOrder String fun ns name => isUnder name ns = true) ∧
    (∀ name, IsChain (fun ns ns' => isUnder ns' ns = true) {ns | isUnder name ns = true}) ∧
    ∀ (namespaces : List String) (name : String),
      (Resolution.ofImports namespaces [name]).found.Pairwise fun ns ns' =>
        isUnder ns' ns = true ∨ isUnder ns ns' = true := by
  refine ⟨fun _ _ => isUnder_iff_isPrefix, isPartialOrder_isUnder, ?_, ?_⟩
  · intro name ns h ns' h' _
    exact isUnder_or_isUnder h h'
  · intro namespaces name
    apply List.pairwise_of_forall_mem_list
    intro ns h ns' h'
    exact isUnder_or_isUnder (isUnder_of_mem_ofImports h) (isUnder_of_mem_ofImports h')

example : isUnder "alphabet.X" "alpha" = false := by decide

example : (Resolution.ofImports ["b", "a.b", "a", "a.b."] ["a.b.C"]).found = ["a.b", "a"] := by decide

end SourceCensus.Dotted
