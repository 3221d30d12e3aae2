import Mathlib.Data.Finset.Card
import SourceCensus.Proofs.Graph.Propagation

/-!
# Propagation without a guard

A search keeps the nodes it has visited, because a graph may have circles.  Where it has none, dependencies
can be handed on by plain recursion: to each dependent of a node, and from there on.  Such a recursion comes
past a node once for each path to it, and in another order than the search; the table that it leaves is the
same.

> On a graph without circles the closure is that of the recursion without a guard
> (`closure_eq_unguarded`): the same nodes, and the same dependencies for each.

The recursion ends because what a node reaches is less than what the node before it reaches: that one is
missing (`Acyclic.height_lt`).  What it leaves in the table is found out for all questions of one kind at
once (`handOn_iff`): whether a node is in the table, and whether it has a dependency, are both answered by
what was there before and by where more was put in.
-/

set_option autoImplicit false

namespace SourceCensus.DependencyGraph

variable {Node : Type} [DecidableEq Node] {g : DependencyGraph Node}

/-! ## Graphs without circles -/

def Acyclic (g : DependencyGraph Node) : Prop := ∀ node, ¬ g.LeadsTo node node

/-- The number of nodes that a node reaches. -/
def height (g : DependencyGraph Node) (node : Node) : Nat := (g.reached node).toFinset.card

theorem Acyclic.height_lt (h : g.Acyclic) {node next : Node} (hnext : next ∈ g.dependentsOf node) :
    g.height next < g.height node := by
  refine Finset.card_lt_card (Finset.ssubset_iff_of_subset ?_ |>.mpr ⟨node, ?_, ?_⟩)
  · intro other hother
    rw [List.mem_toFinset, mem_reached_iff] at hother ⊢
    exact .head hnext hother
  · rw [List.mem_toFinset, mem_reached_iff]
    exact .refl
  · rw [List.mem_toFinset, mem_reached_iff]
    exact fun hback => h node (.head' hnext hback)

/-- There are no circles where the nodes can be numbered so that every edge leads upwards. -/
theorem acyclic_of_rank (rank : Node → Nat)
    (h : ∀ entry ∈ g.dependents, ∀ next ∈ entry.2, rank entry.1 < rank next) : g.Acyclic := by
  have hedge : ∀ {node next : Node}, next ∈ g.dependentsOf node → rank node < rank next := by
    intro node next hnext
    rw [dependentsOf] at hnext
    cases hlist : Assoc.get? node g.dependents with
    | none => simp [hlist] at hnext
    | some list => exact h _ (Assoc.mem_of_get? hlist) next (by simpa [hlist] using hnext)
  have hpath : ∀ {node next : Node}, g.LeadsTo node next → rank node < rank next := by
    intro node next hleads
    induction hleads with
    | single hnext => exact hedge hnext
    | tail _ hnext ih => exact Nat.lt_trans ih (hedge hnext)
  exact fun node hcircle => Nat.lt_irrefl _ (hpath hcircle)

/-! ## The recursion -/

/-- The table with `more` handed on to each dependent of the node, and from there to its dependents, and so
on, whether or not they were met before. -/
def handOn (h : g.Acyclic) (more : List String) (node : Node) (table : Assoc Node (List String)) :
    Assoc Node (List String) :=
  (g.dependentsOf node).attach.foldl
    (fun table next => handOn h more next.1 (addTo more table next.1)) table
termination_by g.height node
decreasing_by exact h.height_lt next.2

/-- The dependencies of each file, those of every source handed on without a guard. -/
def unguarded (h : g.Acyclic) : Assoc Node (List String) :=
  g.direct.foldl
    (fun table source => if source.2.isEmpty then table else handOn h source.2 source.1 table) g.direct

section HandOn

variable {more : List String} {table : Assoc Node (List String)} {source node : Node}

/-- What `more` at a node settles is settled by the recursion for each node that the source leads to. -/
theorem handOn_iff (h : g.Acyclic) (P : Assoc Node (List String) → Prop) {Q : Prop}
    (hadd : ∀ table target, P (addTo more table target) ↔ P table ∨ node = target ∧ Q) :
    P (handOn h more source table) ↔ P table ∨ g.LeadsTo source node ∧ Q := by
  induction source, table using handOn.induct h more with
  | case1 source table ih =>
    have hnext (table : Assoc Node (List String)) (next : { next // next ∈ g.dependentsOf source }) :
        P (handOn h more next.1 (addTo more table next.1)) ↔ P table ∨ g.Reaches next.1 node ∧ Q := by
      rw [ih, hadd, reaches_iff, or_and_right, or_assoc]
    -- The dependents in turn, each with what the ones before it have left in the table.
    have hfold (nexts : List { next // next ∈ g.dependentsOf source }) (table : Assoc Node (List String)) :
        P (nexts.foldl (fun table next => handOn h more next.1 (addTo more table next.1)) table) ↔
          P table ∨ (∃ next ∈ nexts, g.Reaches next.1 node) ∧ Q := by
      induction nexts generalizing table with
      | nil => simp
      | cons next nexts ihn =>
        simp only [List.foldl_cons, ihn, hnext, List.mem_cons, exists_eq_or_imp]
        rw [or_and_right, or_assoc]
    have hleads : g.LeadsTo source node ↔ ∃ next ∈ (g.dependentsOf source).attach, g.Reaches next.1 node := by
      rw [LeadsTo, Relation.TransGen.head'_iff]
      simp [Reaches]
    rw [handOn, hfold, hleads]

/-- The same for the recursions from all sources, where having nothing to hand on settles nothing. -/
theorem unguarded_iff (h : g.Acyclic) (P : Assoc Node (List String) → Prop) (Q : List String → Prop)
    (hnone : ¬ Q []) (hadd : ∀ more, more ≠ [] → ∀ table target,
      P (addTo more table target) ↔ P table ∨ node = target ∧ Q more) :
    P (unguarded h) ↔ P g.direct ∨ ∃ source ∈ g.direct, g.LeadsTo source.1 node ∧ Q source.2 := by
  have hfold (sources : List (Node × List String)) (table : Assoc Node (List String)) :
      P (sources.foldl (fun table source =>
          if source.2.isEmpty then table else handOn h source.2 source.1 table) table) ↔
        P table ∨ ∃ source ∈ sources, g.LeadsTo source.1 node ∧ Q source.2 := by
    induction sources generalizing table with
    | nil => simp
    | cons source sources ih =>
      simp only [List.foldl_cons, ih, List.mem_cons, exists_eq_or_imp]
      split
      · next hempty => simp [List.isEmpty_iff.mp hempty, hnone]
      · next hsome =>
        rw [handOn_iff h P (hadd source.2 fun hnil => hsome (List.isEmpty_iff.mpr hnil)), or_assoc]
  exact hfold g.direct g.direct

end HandOn

/-! ## The two propagations -/

/-- On a graph without circles the search and the recursion without a guard leave the same nodes in the
table, and the same dependencies for each. -/
theorem closure_eq_unguarded (h : g.Acyclic) (hdirect : (Assoc.keys g.direct).Nodup) :
    (∀ node, node ∈ Assoc.keys g.closure ↔ node ∈ Assoc.keys (unguarded h)) ∧
    ∀ node ns, ns ∈ (Assoc.get? node g.closure).getD [] ↔ ns ∈ (Assoc.get? node (unguarded h)).getD [] := by
  refine ⟨fun node => ?_, fun node ns => ?_⟩
  · have hkeys := unguarded_iff h (fun table => node ∈ Assoc.keys table) (fun more => more ≠ [])
      (fun hnil => hnil rfl) fun more hmore table target => by rw [mem_keys_addTo, and_iff_left hmore]
    rw [hkeys, mem_keys_closure_iff]
    simp only [and_comm]
  · have hmem := unguarded_iff h (fun table => ns ∈ (Assoc.get? node table).getD []) (fun more => ns ∈ more)
      List.not_mem_nil fun _ _ _ _ => mem_addTo
    have hclosure : ns ∈ (Assoc.get? node g.closure).getD [] ↔ _ := g.mem_closureOf_iff
    rw [hmem, hclosure]
    -- A node that is reached without an edge is looked up in the table as it was.
    have hown : ns ∈ (Assoc.get? node g.direct).getD [] ↔ ∃ own, (node, own) ∈ g.direct ∧ ns ∈ own := by
      simp only [← Assoc.get?_eq_some_iff hdirect]
      cases Assoc.get? node g.direct <;> simp
    rw [hown]
    simp only [reaches_iff, Prod.exists]
    constructor
    · rintro ⟨source, direct, hsource, rfl | hleads, hns⟩
      · exact Or.inl ⟨direct, hsource, hns⟩
      · exact Or.inr ⟨source, direct, hsource, hleads, hns⟩
    · rintro (⟨own, hsource, hns⟩ | ⟨source, direct, hsource, hleads, hns⟩)
      · exact ⟨node, own, hsource, Or.inl rfl, hns⟩
      · exact ⟨source, direct, hsource, Or.inr hleads, hns⟩

/-- Two ways from the first node to the last one, and an edge that comes twice. -/
def diamond : DependencyGraph Nat where
  direct := [(0, ["a"]), (1, []), (2, ["b"])]
  dependents := [(0, [1, 2, 2]), (1, [3]), (2, [3])]
  imports := []
  edgeCount := 5

theorem acyclic_diamond : diamond.Acyclic := acyclic_of_rank id (by decide)

/-- The last node, which the recursion comes past three times, gets what the search finds for it. -/
theorem closure_eq_unguarded_diamond :
    (Assoc.keys diamond.direct).Nodup ∧ 3 ∈ Assoc.keys (unguarded acyclic_diamond) ∧
      "a" ∈ (Assoc.get? 3 (unguarded acyclic_diamond)).getD [] ∧
      "b" ∉ (Assoc.get? 1 (unguarded acyclic_diamond)).getD [] := by
  have hdirect : (Assoc.keys diamond.direct).Nodup := by decide
  obtain ⟨hkeys, hmem⟩ := closure_eq_unguarded acyclic_diamond hdirect
  exact ⟨hdirect, (hkeys 3).mp (by decide +kernel), (hmem 3 "a").mp (by decide +kernel),
    fun hns => absurd ((hmem 1 "b").mpr hns) (by decide +kernel)⟩

end SourceCensus.DependencyGraph
