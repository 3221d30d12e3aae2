import Mathlib.Logic.Relation
import SourceCensus.Graph.Closure

/-!
# What a search reaches

`DependencyGraph.search` is a loop over a stack and a list of visited nodes, and it runs on fuel.  Two
things are to be said about it, and neither is visible in its text: the fuel is never used up, and the
nodes visited at the end are those that a path leads to.  Both are invariants of the loop.

* **Fuel.**  Each entry of a `dependents` list goes on the stack at most once, when the node that owns the
  list is first visited.  So the stack and the entries of the nodes not yet visited together bound the
  steps to come (`cost`).
* **Reach.**  What is visited or on the stack can be reached, and every edge that leaves a visited node
  ends in a visited node or on the stack (`Searching`).  With the stack empty, the visited nodes are closed
  under edges and hold all that can be reached.

Both are proved of the loop itself, one round at a time (`Step`).  A round may take any node of the stack, so
neither depends on the order in which the stack is kept; `search` is one of the runs (`steps_search`).

From these, `mem_closureOf_iff`: the closed dependencies of a node are what is direct for any node that it
is reached from.  Nothing is assumed of the graph: cycles, loops, repeated entries and nodes without a list
are all allowed.
-/

set_option autoImplicit false

namespace SourceCensus.DependencyGraph

variable {Node : Type} [DecidableEq Node] (g : DependencyGraph Node)

/-- A path along the edges leads from the first node to the second: dependencies of the first one travel
to the second one. -/
def Reaches : Node → Node → Prop :=
  Relation.ReflTransGen fun node next => next ∈ g.dependentsOf node

/-! ## Fuel -/

def unspent (visited : List Node) : Nat :=
  ((g.dependents.filter (·.1 ∉ visited)).flatMap (·.2)).length

theorem unspent_nil : g.unspent [] = g.entryCount := by
  have hall : g.dependents.filter (·.1 ∉ ([] : List Node)) = g.dependents :=
    List.filter_eq_self.mpr (by simp)
  rw [unspent, hall, entryCount]

/-- A visit takes the list of the node out of what is left to spend. -/
theorem length_dependentsOf_add_unspent_le {node : Node} {visited : List Node} (h : node ∉ visited) :
    (g.dependentsOf node).length + g.unspent (node :: visited) ≤ g.unspent visited := by
  unfold dependentsOf unspent
  induction g.dependents with
  | nil => simp
  | cons entry rest ih =>
    obtain ⟨owner, list⟩ := entry
    -- The look-up stops at the first list of `node`; later ones only make the bound looser.
    by_cases howner : node = owner
    · subst howner
      have hrest : ((rest.filter (·.1 ∉ node :: visited)).flatMap (·.2)).length
          ≤ ((rest.filter (·.1 ∉ visited)).flatMap (·.2)).length := by omega
      simp only [Assoc.get?, if_true, Option.getD_some, List.mem_cons, true_or, not_true,
        decide_false, List.filter_cons, h, not_false_eq_true, decide_true, List.flatMap_cons,
        List.length_append] at hrest ⊢
      exact Nat.add_le_add_left hrest _
    · rw [Assoc.get?, if_neg howner]
      by_cases hmem : owner ∈ visited
      · simpa [List.filter_cons, hmem] using ih
      · have hne : owner ≠ node := Ne.symm howner
        simp only [List.filter_cons, List.mem_cons, hne, hmem, or_self, not_false_eq_true,
          decide_true, if_true, List.flatMap_cons, List.length_append] at ih ⊢
        omega

/-! ## The loop -/

/-- What the loop keeps between two rounds. -/
structure SearchState (Node : Type) where
  stack : List Node
  visited : List Node

def start (source : Node) : SearchState Node := ⟨g.dependentsOf source, [source]⟩

/-- One round of the loop.  Some node is taken off the stack; if it is new, it is visited, and those of its
dependents that are not go on the stack.  Which node is taken, and where the others go, is left open. -/
inductive Step : SearchState Node → SearchState Node → Prop
  | skip {node : Node} {stack rest visited : List Node} (htaken : stack.Perm (node :: rest))
      (hseen : node ∈ visited) : Step ⟨stack, visited⟩ ⟨rest, visited⟩
  | visit {node : Node} {stack rest next visited : List Node} (htaken : stack.Perm (node :: rest))
      (hnew : node ∉ visited)
      (hnext : next.Perm ((g.dependentsOf node).filter (· ∉ node :: visited) ++ rest)) :
      Step ⟨stack, visited⟩ ⟨next, node :: visited⟩

def Steps : SearchState Node → SearchState Node → Prop := Relation.ReflTransGen g.Step

/-- The rounds that can still come. -/
def cost (s : SearchState Node) : Nat := s.stack.length + g.unspent s.visited

section Loop

variable {g} {source node : Node} {s s' : SearchState Node} {visited : List Node}

theorem Step.cost_lt (h : g.Step s s') : g.cost s' < g.cost s := by
  cases h with
  | skip htaken hseen =>
    have hlength := htaken.length_eq
    simp only [cost, List.length_cons] at hlength ⊢
    omega
  | @visit node stack rest next visited htaken hnew hnext =>
    have hlength := htaken.length_eq
    have hlength' := hnext.length_eq
    have hspent := g.length_dependentsOf_add_unspent_le hnew
    have hpushed := List.length_filter_le (· ∉ node :: visited) (g.dependentsOf node)
    simp only [cost, List.length_cons, List.length_append] at hlength hlength' ⊢
    omega

/-- There is no run of the loop without an end. -/
theorem wellFounded_step (g : DependencyGraph Node) : WellFounded fun s' s => g.Step s s' :=
  Subrelation.wf Step.cost_lt (InvImage.wf g.cost Nat.lt_wfRel.wf)

/-- A search that has enough fuel is a run of the loop to its end. -/
theorem steps_search {fuel : Nat} {stack visited : List Node}
    (h : g.cost ⟨stack, visited⟩ ≤ fuel) :
    g.Steps ⟨stack, visited⟩ ⟨[], g.search fuel stack visited⟩ := by
  induction fuel generalizing stack visited with
  | zero =>
    -- No fuel is left, and so nothing is left to do.
    have hlength : stack.length ≤ 0 := Nat.le_trans (Nat.le_add_right _ _) h
    obtain rfl : stack = [] := List.length_eq_zero_iff.mp (Nat.le_zero.mp hlength)
    exact .refl
  | succ fuel ih =>
    cases stack with
    | nil => exact .refl
    | cons node stack =>
      rw [search]
      by_cases hnode : node ∈ visited
      · have hstep : g.Step ⟨node :: stack, visited⟩ ⟨stack, visited⟩ := .skip (.refl _) hnode
        rw [if_pos hnode]
        exact .head hstep (ih (Nat.le_of_lt_succ (Nat.lt_of_lt_of_le hstep.cost_lt h)))
      · have hstep : g.Step ⟨node :: stack, visited⟩
            ⟨(g.dependentsOf node).filter (· ∉ node :: visited) ++ stack, node :: visited⟩ :=
          .visit (.refl _) hnode (.refl _)
        rw [if_neg hnode]
        exact .head hstep (ih (Nat.le_of_lt_succ (Nat.lt_of_lt_of_le hstep.cost_lt h)))

theorem steps_reached (g : DependencyGraph Node) (source : Node) :
    g.Steps (g.start source) ⟨[], g.reached source⟩ := by
  have hfuel := g.length_dependentsOf_add_unspent_le (List.not_mem_nil (a := source))
  rw [unspent_nil] at hfuel
  exact steps_search hfuel

/-! ## What the loop keeps -/

variable (g) in
structure Searching (source : Node) (s : SearchState Node) : Prop where
  visited_reached : ∀ node ∈ s.visited, g.Reaches source node
  stack_reached : ∀ node ∈ s.stack, g.Reaches source node
  source_visited : source ∈ s.visited
  edges : ∀ node ∈ s.visited, ∀ next ∈ g.dependentsOf node, next ∈ s.visited ∨ next ∈ s.stack

namespace Searching

theorem init (g : DependencyGraph Node) (source : Node) : g.Searching source (g.start source) where
  visited_reached node hnode := by
    obtain rfl := List.mem_singleton.mp hnode
    exact .refl
  stack_reached _ hnode := .single hnode
  source_visited := List.mem_singleton.mpr rfl
  edges node hnode next hnext := by
    obtain rfl := List.mem_singleton.mp hnode
    exact Or.inr hnext

theorem skip {stack rest : List Node} (h : g.Searching source ⟨stack, visited⟩)
    (htaken : stack.Perm (node :: rest)) (hseen : node ∈ visited) :
    g.Searching source ⟨rest, visited⟩ where
  visited_reached := h.visited_reached
  stack_reached other hother :=
    h.stack_reached other (htaken.mem_iff.mpr (List.mem_cons_of_mem _ hother))
  source_visited := h.source_visited
  edges other hother next hnext := by
    rcases h.edges other hother next hnext with hv | hs
    · exact Or.inl hv
    · rcases List.mem_cons.mp (htaken.mem_iff.mp hs) with rfl | hs
      · exact Or.inl hseen
      · exact Or.inr hs

/-- A node that is visited now leaves its dependents on the stack. -/
theorem visit {stack rest next : List Node} (h : g.Searching source ⟨stack, visited⟩)
    (htaken : stack.Perm (node :: rest))
    (hnext : next.Perm ((g.dependentsOf node).filter (· ∉ node :: visited) ++ rest)) :
    g.Searching source ⟨next, node :: visited⟩ where
  visited_reached other hother := by
    rcases List.mem_cons.mp hother with rfl | hother
    · exact h.stack_reached _ (htaken.mem_iff.mpr List.mem_cons_self)
    · exact h.visited_reached _ hother
  stack_reached other hother := by
    rcases List.mem_append.mp (hnext.mem_iff.mp hother) with hnew | hold
    · have hnode := h.stack_reached _ (htaken.mem_iff.mpr List.mem_cons_self)
      exact hnode.tail (List.mem_filter.mp hnew).1
    · exact h.stack_reached _ (htaken.mem_iff.mpr (List.mem_cons_of_mem _ hold))
  source_visited := List.mem_cons_of_mem _ h.source_visited
  edges other hother target htarget := by
    by_cases hseen : target ∈ node :: visited
    · exact Or.inl hseen
    · refine Or.inr (hnext.mem_iff.mpr (List.mem_append.mpr ?_))
      rcases List.mem_cons.mp hother with rfl | hother
      · exact Or.inl (List.mem_filter.mpr ⟨htarget, by simpa using hseen⟩)
      · rcases h.edges other hother target htarget with hv | hs
        · exact absurd (List.mem_cons_of_mem _ hv) hseen
        · rcases List.mem_cons.mp (htaken.mem_iff.mp hs) with rfl | hs
          · exact absurd List.mem_cons_self hseen
          · exact Or.inr hs

theorem steps (h : g.Searching source s) (hsteps : g.Steps s s') : g.Searching source s' := by
  induction hsteps with
  | refl => exact h
  | tail _ hstep ih =>
    cases hstep with
    | skip htaken hseen => exact ih.skip htaken hseen
    | visit htaken _ hnext => exact ih.visit htaken hnext

end Searching

/-- Whatever order the stack is kept in, a run visits the nodes that a path leads to, and no others. -/
theorem mem_visited_iff (h : g.Steps (g.start source) ⟨[], visited⟩) :
    node ∈ visited ↔ g.Reaches source node := by
  have hdone : g.Searching source ⟨[], visited⟩ := (Searching.init g source).steps h
  refine ⟨hdone.visited_reached node, fun hreach => ?_⟩
  induction hreach with
  | refl => exact hdone.source_visited
  | tail _ hedge ih =>
    rcases hdone.edges _ ih _ hedge with hv | hs
    · exact hv
    · exact absurd hs List.not_mem_nil

theorem mem_reached_iff : node ∈ g.reached source ↔ g.Reaches source node :=
  mem_visited_iff (g.steps_reached source)

end Loop

/-! ## Handing dependencies on -/

section Closure

variable {more : List String} {closure : Assoc Node (List String)} {node : Node} {ns : String}

theorem get?_addTo {target : Node} :
    (Assoc.get? node (addTo more closure target)).getD [] =
      if node = target then
        (Assoc.get? node closure).getD [] ++
          more.filter (· ∉ (Assoc.get? node closure).getD [])
      else (Assoc.get? node closure).getD [] := by
  rw [addTo, Assoc.get?_put]
  split
  · next h => rw [h, Option.getD_some]
  · rfl

theorem mem_addTo {target : Node} :
    ns ∈ (Assoc.get? node (addTo more closure target)).getD [] ↔
      ns ∈ (Assoc.get? node closure).getD [] ∨ node = target ∧ ns ∈ more := by
  rw [get?_addTo]
  split
  · next h =>
    simp only [List.mem_append, List.mem_filter, decide_eq_true_eq, h, true_and]
    by_cases hns : ns ∈ (Assoc.get? target closure).getD [] <;> simp [hns]
  · next h => simp [h]

theorem mem_foldl_addTo {targets : List Node} :
    ns ∈ (Assoc.get? node (targets.foldl (addTo more) closure)).getD [] ↔
      ns ∈ (Assoc.get? node closure).getD [] ∨ node ∈ targets ∧ ns ∈ more := by
  induction targets generalizing closure with
  | nil => simp
  | cons target targets ih =>
    rw [List.foldl_cons, ih, mem_addTo, List.mem_cons, or_and_right, or_assoc]

theorem mem_spread {source : Node × List String} :
    ns ∈ (Assoc.get? node (g.spread closure source)).getD [] ↔
      ns ∈ (Assoc.get? node closure).getD [] ∨ g.Reaches source.1 node ∧ ns ∈ source.2 := by
  unfold spread
  split
  · next h => simp [List.isEmpty_iff.mp h]
  · rw [mem_foldl_addTo, mem_reached_iff]

theorem mem_foldl_spread {sources : List (Node × List String)} :
    ns ∈ (Assoc.get? node (sources.foldl g.spread closure)).getD [] ↔
      ns ∈ (Assoc.get? node closure).getD [] ∨
        ∃ source ∈ sources, g.Reaches source.1 node ∧ ns ∈ source.2 := by
  induction sources generalizing closure with
  | nil => simp
  | cons source sources ih =>
    simp only [List.foldl_cons, ih, mem_spread, or_assoc, List.mem_cons, exists_eq_or_imp]

/-- A node depends on what is direct for any node that a path leads from. -/
theorem mem_closureOf_iff :
    ns ∈ g.closureOf node ↔ ∃ source ∈ g.direct, g.Reaches source.1 node ∧ ns ∈ source.2 := by
  rw [closureOf, DependencyGraph.closure, mem_foldl_spread]
  refine ⟨fun h => ?_, Or.inr⟩
  rcases h with hown | h
  · cases hget : Assoc.get? node g.direct with
    | none => simp [hget] at hown
    | some own => exact ⟨(node, own), Assoc.mem_of_get? hget, .refl, by simpa [hget] using hown⟩
  · exact h

end Closure

/-! ## No dependency is listed twice -/

/-- Each list of the table holds different names. -/
def Unrepeated (t : Assoc Node (List String)) : Prop :=
  ∀ node, ((Assoc.get? node t).getD []).Nodup

theorem Unrepeated.addTo {more : List String} {t : Assoc Node (List String)} (h : Unrepeated t)
    (hmore : more.Nodup) (target : Node) : Unrepeated (addTo more t target) := by
  intro node
  rw [get?_addTo]
  split
  · refine List.nodup_append.mpr ⟨h node, hmore.filter _, ?_⟩
    rintro a ha b hb rfl
    exact of_decide_eq_true (List.mem_filter.mp hb).2 ha
  · exact h node

theorem Unrepeated.foldl_addTo {more : List String} (hmore : more.Nodup) {targets : List Node}
    {t : Assoc Node (List String)} (h : Unrepeated t) :
    Unrepeated (targets.foldl (DependencyGraph.addTo more) t) := by
  induction targets generalizing t with
  | nil => exact h
  | cons target targets ih => exact ih (h.addTo hmore target)

theorem Unrepeated.foldl_spread {sources : List (Node × List String)}
    (hsources : ∀ source ∈ sources, source.2.Nodup) {t : Assoc Node (List String)}
    (h : Unrepeated t) : Unrepeated (sources.foldl g.spread t) := by
  induction sources generalizing t with
  | nil => exact h
  | cons source sources ih =>
    refine ih (fun s hs => hsources s (List.mem_cons_of_mem _ hs)) ?_
    unfold spread
    split
    · exact h
    · exact h.foldl_addTo (hsources source List.mem_cons_self)

theorem nodup_closureOf (h : ∀ source ∈ g.direct, source.2.Nodup) (node : Node) :
    (g.closureOf node).Nodup := by
  refine Unrepeated.foldl_spread g h ?_ node
  intro other
  cases hget : Assoc.get? other g.direct with
  | none => exact List.nodup_nil
  | some own => exact h _ (Assoc.mem_of_get? hget)

end SourceCensus.DependencyGraph
