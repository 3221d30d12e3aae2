import SourceCensus.Proofs.Graph.Reachability

/-!
# The closure as a table

`mem_closureOf_iff` says which dependencies a look-up in the closed table finds.  The table itself says a
little more, because a look-up cannot tell a node with no dependencies from one that is not there.  A node
gets an entry in one of two ways: it had one before, or a search that started at a node with dependencies
came past it.  So

> the nodes of the closed table are those of the direct one, and those that a path leads to from a node whose
> direct dependencies are not empty.

Together with the loop's own facts (it always ends, and it ends with the nodes that can be reached, in
whatever order it takes them) this is all there is to say about the closure; `closure_by_reachability` puts
it together.
-/

set_option autoImplicit false

namespace SourceCensus.DependencyGraph

variable {Node : Type} [DecidableEq Node] {g : DependencyGraph Node}

/-- A path of at least one edge leads from the first node to the second. -/
def LeadsTo (g : DependencyGraph Node) : Node → Node → Prop :=
  Relation.TransGen fun node next => next ∈ g.dependentsOf node

theorem reaches_iff {source node : Node} :
    g.Reaches source node ↔ node = source ∨ g.LeadsTo source node :=
  Relation.reflTransGen_iff_eq_or_transGen

/-! ## The nodes of the table -/

section Keys

variable {more : List String} {closure : Assoc Node (List String)} {node : Node}

theorem mem_keys_addTo {target : Node} :
    node ∈ Assoc.keys (addTo more closure target) ↔ node ∈ Assoc.keys closure ∨ node = target := by
  rw [addTo, Assoc.keys_put]
  split
  · next htarget =>
    refine ⟨Or.inl, ?_⟩
    rintro (hnode | rfl)
    · exact hnode
    · exact htarget
  · rw [List.mem_append, List.mem_singleton]

theorem mem_keys_foldl_addTo {targets : List Node} :
    node ∈ Assoc.keys (targets.foldl (addTo more) closure) ↔
      node ∈ Assoc.keys closure ∨ node ∈ targets := by
  induction targets generalizing closure with
  | nil => simp
  | cons target targets ih => rw [List.foldl_cons, ih, mem_keys_addTo, List.mem_cons, or_assoc]

theorem mem_keys_spread {source : Node × List String} :
    node ∈ Assoc.keys (g.spread closure source) ↔
      node ∈ Assoc.keys closure ∨ source.2 ≠ [] ∧ g.Reaches source.1 node := by
  unfold spread
  split
  · next hnone => simp [List.isEmpty_iff.mp hnone]
  · next hsome =>
    have hne : source.2 ≠ [] := fun hnil => hsome (List.isEmpty_iff.mpr hnil)
    rw [mem_keys_foldl_addTo, mem_reached_iff, and_iff_right hne]

theorem mem_keys_foldl_spread {sources : List (Node × List String)} :
    node ∈ Assoc.keys (sources.foldl g.spread closure) ↔
      node ∈ Assoc.keys closure ∨
        ∃ source ∈ sources, source.2 ≠ [] ∧ g.Reaches source.1 node := by
  induction sources generalizing closure with
  | nil => simp
  | cons source sources ih =>
    simp only [List.foldl_cons, ih, mem_keys_spread, or_assoc, List.mem_cons, exists_eq_or_imp]

/-- A search that comes back to where it started adds no node to the table. -/
theorem mem_keys_closure_iff :
    node ∈ Assoc.keys g.closure ↔ node ∈ Assoc.keys g.direct ∨
      ∃ source ∈ g.direct, source.2 ≠ [] ∧ g.LeadsTo source.1 node := by
  rw [DependencyGraph.closure, mem_keys_foldl_spread]
  constructor
  · rintro (hnode | ⟨source, hsource, hne, hreach⟩)
    · exact Or.inl hnode
    · rcases reaches_iff.mp hreach with rfl | hleads
      · exact Or.inl (List.mem_map_of_mem hsource)
      · exact Or.inr ⟨source, hsource, hne, hleads⟩
  · rintro (hnode | ⟨source, hsource, hne, hleads⟩)
    · exact Or.inl hnode
    · exact Or.inr ⟨source, hsource, hne, hleads.to_reflTransGen⟩

end Keys

/-! ## The closure -/

/-- The loop ends, whichever node of the stack it takes in each round, and then it has visited the nodes
that can be reached from where it started; the search is one of its runs.  In the closed table a node has
what is direct for it or for any node that a path leads from, and nothing else; and it has an entry if it
had one before or if a path leads to it from a node that has direct dependencies. -/
theorem closure_by_reachability (g : DependencyGraph Node) :
    (WellFounded fun s' s => g.Step s s') ∧
    (∀ source, g.Steps (g.start source) ⟨[], g.reached source⟩) ∧
    (∀ source visited, g.Steps (g.start source) ⟨[], visited⟩ →
      ∀ node, node ∈ visited ↔ node = source ∨ g.LeadsTo source node) ∧
    (∀ node ns, ns ∈ (Assoc.get? node g.closure).getD [] ↔
      ∃ source direct, (source, direct) ∈ g.direct ∧ (node = source ∨ g.LeadsTo source node) ∧
        ns ∈ direct) ∧
    ∀ node, node ∈ Assoc.keys g.closure ↔ node ∈ Assoc.keys g.direct ∨
      ∃ source direct, (source, direct) ∈ g.direct ∧ direct ≠ [] ∧ g.LeadsTo source node := by
  refine ⟨wellFounded_step g, steps_reached g, fun source visited hsteps node => ?_,
    fun node ns => ?_, fun node => ?_⟩
  · rw [mem_visited_iff hsteps, reaches_iff]
  · have hmem : ns ∈ g.closureOf node ↔ _ := g.mem_closureOf_iff
    simpa only [reaches_iff, Prod.exists, closureOf] using hmem
  · simpa only [Prod.exists] using mem_keys_closure_iff

/-- Two nodes in a circle, an edge that comes twice, and a node that only takes over. -/
def circle : DependencyGraph Nat where
  direct := [(0, ["a"]), (1, [])]
  dependents := [(0, [1, 1]), (1, [0, 2])]
  imports := []
  edgeCount := 4

/-- A node that has no direct dependencies, not even none, gets those of the circle behind it. -/
theorem closure_by_reachability_circle :
    2 ∉ Assoc.keys circle.direct ∧ 2 ∈ Assoc.keys circle.closure ∧
      "a" ∈ (Assoc.get? 2 circle.closure).getD [] ∧
      ∃ visited, circle.Steps (circle.start 0) ⟨[], visited⟩ ∧ 2 ∈ visited := by
  obtain ⟨-, hsteps, hvisited, hmem, hkeys⟩ := closure_by_reachability circle
  have hleads : circle.LeadsTo 0 2 := by
    have hfirst : 1 ∈ circle.dependentsOf 0 := by decide
    have hsecond : 2 ∈ circle.dependentsOf 1 := by decide
    exact .tail (.single hfirst) hsecond
  have hdirect : (0, ["a"]) ∈ circle.direct := List.mem_cons_self
  refine ⟨by decide, ?_, ?_, _, hsteps 0, ?_⟩
  · exact (hkeys 2).mpr (Or.inr ⟨0, ["a"], hdirect, List.cons_ne_nil _ _, hleads⟩)
  · exact (hmem 2 "a").mpr ⟨0, ["a"], hdirect, Or.inr hleads, List.mem_cons_self⟩
  · exact (hvisited 0 _ (hsteps 0) 2).mpr (Or.inr hleads)

end SourceCensus.DependencyGraph
