import Mathlib.Logic.Relation
import SourceCensus.Proofs.Path.Order

/-!
# Depth-first search with pruning

A search goes along the edges of a graph in the order of their names and turns back where it has been before.
What it comes upon, and under which name, is to be said without the search:

* a *route* goes along edges, passes no node twice and none of those to avoid; the *first route* to a node
  is the least one in the order of its names;
* a search that is through with some of the edges of a node has visited just the ends of the routes by
  these edges (`Swept`);

and this is why a node that was visited below an earlier edge can be left out below a later one:

> a route that does not end in what was visited does not touch it (`Route.grow`), and so the first route by
> the next edge goes on with the first route that avoids all that was visited (`Swept.firstRoute_cons_iff`).

`Closed` is behind it.  No edge leads out of what was visited, except to the nodes that the search is still
in, and these no route enters a second time.
-/

set_option autoImplicit false

namespace SourceCensus

/-! ## Routes -/

/-- A route from a node to another one, with the names of its edges; no node is passed twice, and none of
`avoid`. -/
inductive Route {Node : Type} (edge : Node → String → Node → Prop) :
    List Node → Node → List String → Node → Prop where
  | here {avoid : List Node} {node : Node} (hfree : node ∉ avoid) : Route edge avoid node [] node
  | step {avoid : List Node} {node next last : Node} {name : String} {names : List String}
      (hfree : node ∉ avoid) (hedge : edge node name next)
      (hrest : Route edge (node :: avoid) next names last) : Route edge avoid node (name :: names) last

namespace Route

variable {Node : Type} {edge : Node → String → Node → Prop} {avoid more : List Node}
  {node last : Node} {names : List String}

theorem not_mem_cons {a b : Node} {l : List Node} (hne : a ≠ b) (hl : a ∉ l) : a ∉ b :: l := by
  simp [hne, hl]

theorem start_not_mem (h : Route edge avoid node names last) : node ∉ avoid := by
  cases h with
  | here hfree => exact hfree
  | step hfree _ _ => exact hfree

theorem last_not_mem (h : Route edge avoid node names last) : last ∉ avoid := by
  induction h with
  | here hfree => exact hfree
  | step _ _ _ ih => exact fun hlast => ih (List.mem_cons_of_mem _ hlast)

theorem reaches (h : Route edge avoid node names last) :
    Relation.ReflTransGen (fun a b => ∃ name, edge a name b) node last := by
  induction h with
  | here _ => exact .refl
  | step _ hedge _ ih => exact .head ⟨_, hedge⟩ ih

/-- A route can be led on by one edge.  Where the edge leads back, the route ends earlier. -/
theorem exists_extend {name : String} {next : Node} (h : Route edge avoid node names last)
    (hedge : edge last name next) (hnext : next ∉ avoid) :
    ∃ names', Route edge avoid node names' next := by
  induction h with
  | @here avoid node hfree =>
    by_cases hback : next = node
    · exact ⟨[], hback ▸ .here hnext⟩
    · exact ⟨[name], .step hfree hedge (.here (not_mem_cons hback hnext))⟩
  | @step avoid node _ _ first _ hfree hfirst _ ih =>
    by_cases hback : next = node
    · exact ⟨[], hback ▸ .here hnext⟩
    · obtain ⟨names', hroute⟩ := ih hedge (not_mem_cons hback hnext)
      exact ⟨first :: names', .step hfree hfirst hroute⟩

theorem exists_of_reaches (h : Relation.ReflTransGen (fun a b => ∃ name, edge a name b) node last) :
    ∃ names, Route edge [] node names last := by
  induction h with
  | refl => exact ⟨[], .here List.not_mem_nil⟩
  | tail _ hedge ih =>
    obtain ⟨names, hroute⟩ := ih
    obtain ⟨name, hname⟩ := hedge
    exact hroute.exists_extend hname List.not_mem_nil

theorem anti (h : Route edge more node names last) (hsub : avoid ⊆ more) :
    Route edge avoid node names last := by
  induction h generalizing avoid with
  | here hfree => exact .here fun hmem => hfree (hsub hmem)
  | step hfree hedge _ ih =>
    exact .step (fun hmem => hfree (hsub hmem)) hedge (ih (List.cons_subset_cons _ hsub))

/-- Of what `more` has beyond `avoid`, no edge leads out, but to a node of `avoid`. -/
def Closed (edge : Node → String → Node → Prop) (avoid more : List Node) : Prop :=
  ∀ a ∈ more, a ∉ avoid → ∀ name b, edge a name b → b ∉ avoid → b ∈ more

theorem Closed.cons (h : Closed edge avoid more) (node : Node) :
    Closed edge (node :: avoid) (node :: more) := by
  intro a ha hfree name b hab hb
  rw [List.mem_cons, not_or] at hfree hb
  rcases List.mem_cons.mp ha with rfl | ha
  · exact absurd rfl hfree.1
  · exact List.mem_cons_of_mem _ (h a ha hfree.2 name b hab hb.2)

/-- A route that starts in a closed set ends there. -/
theorem last_mem (h : Route edge avoid node names last) (hclosed : Closed edge avoid more)
    (hnode : node ∈ more) : last ∈ more := by
  induction h generalizing more with
  | here _ => exact hnode
  | @step avoid node next _ _ _ hfree hedge hrest ih =>
    have hnext := hrest.start_not_mem
    rw [List.mem_cons, not_or] at hnext
    have hmem : next ∈ more := hclosed node hnode hfree _ next hedge hnext.2
    have hlast := ih (hclosed.cons node) (List.mem_cons_of_mem _ hmem)
    rcases List.mem_cons.mp hlast with rfl | hlast
    · exact hnode
    · exact hlast

/-- A route that does not end in a closed set does not touch it. -/
theorem grow (h : Route edge avoid node names last) (hclosed : Closed edge avoid more)
    (hlast : last ∉ more) : Route edge more node names last := by
  induction h generalizing more with
  | here _ => exact .here hlast
  | @step avoid node _ last _ _ hfree hedge hrest ih =>
    have hnode : node ∉ more := fun hnode =>
      hlast ((Route.step hfree hedge hrest).last_mem hclosed hnode)
    have hne : last ≠ node := fun heq => hrest.last_not_mem (heq ▸ List.mem_cons_self)
    exact .step hnode hedge (ih (hclosed.cons node) (not_mem_cons hne hlast))

end Route

/-! ## First routes -/

/-- The first of the routes in the order of their names, a part of a route before the whole. -/
structure FirstRoute {Node : Type} (edge : Node → String → Node → Prop) (avoid : List Node)
    (node : Node) (names : List String) (last : Node) : Prop where
  route : Route edge avoid node names last
  least : ∀ other, Route edge avoid node other last → names = other ∨ Before names other

namespace FirstRoute

variable {Node : Type} {edge : Node → String → Node → Prop} {avoid : List Node}
  {node last : Node} {names names' : List String}

theorem unique (h : FirstRoute edge avoid node names last)
    (h' : FirstRoute edge avoid node names' last) : names = names' := by
  rcases h.least names' h'.route with heq | hbefore
  · exact heq
  · rcases h'.least names h.route with heq | hafter
    · exact heq.symm
    · exact absurd hafter hbefore.asymm

theorem nil_iff : FirstRoute edge avoid node [] last ↔ node ∉ avoid ∧ last = node := by
  constructor
  · rintro ⟨hroute, -⟩
    cases hroute with
    | here hfree => exact ⟨hfree, rfl⟩
  · rintro ⟨hfree, rfl⟩
    refine ⟨.here hfree, fun other _ => ?_⟩
    cases other with
    | nil => exact .inl rfl
    | cons name names => exact .inr .nil

end FirstRoute

/-! ## Searches -/

/-- What a search from `node` has visited when it is through with the edges in `done`. -/
structure Swept {Node : Type} (edge : Node → String → Node → Prop) (avoid : List Node)
    (node : Node) (done : List String) (visited : List Node) : Prop where
  mem_iff : ∀ there, there ∈ visited ↔ there ∈ node :: avoid ∨
    ∃ name ∈ done, ∃ next, edge node name next ∧
      ∃ names, Route edge (node :: avoid) next names there

namespace Swept

variable {Node : Type} {edge : Node → String → Node → Prop} {avoid visited : List Node}
  {node next there : Node} {done names : List String} {name : String}

theorem start : Swept edge avoid node [] (node :: avoid) where
  mem_iff there := by simp

theorem subset (h : Swept edge avoid node done visited) : node :: avoid ⊆ visited :=
  fun there hthere => (h.mem_iff there).mpr (.inl hthere)

theorem closed (h : Swept edge avoid node done visited) :
    Route.Closed edge (node :: avoid) visited := by
  intro a ha hfree name b hab hb
  obtain ⟨first, hfirst, next, hnext, names, hroute⟩ := ((h.mem_iff a).mp ha).resolve_left hfree
  exact (h.mem_iff b).mpr (.inr ⟨first, hfirst, next, hnext, hroute.exists_extend hab hb⟩)

theorem route_iff (h : Swept edge avoid node done visited) :
    Route edge visited next names there ↔
      Route edge (node :: avoid) next names there ∧ there ∉ visited := by
  constructor
  · intro hroute
    exact ⟨hroute.anti h.subset, hroute.last_not_mem⟩
  · rintro ⟨hroute, hthere⟩
    exact hroute.grow h.closed hthere

/-- A name that leads nowhere, or to what is visited already, changes nothing. -/
theorem skip (h : Swept edge avoid node done visited)
    (hname : ∀ next, edge node name next → next ∈ visited) :
    Swept edge avoid node (done ++ [name]) visited where
  mem_iff there := by
    rw [h.mem_iff]
    constructor
    · rintro (hold | ⟨first, hfirst, hrest⟩)
      · exact .inl hold
      · exact .inr ⟨first, List.mem_append_left _ hfirst, hrest⟩
    · rintro (hold | ⟨first, hfirst, next, hnext, names, hroute⟩)
      · exact .inl hold
      · rcases List.mem_append.mp hfirst with hfirst | hfirst
        · exact .inr ⟨first, hfirst, next, hnext, names, hroute⟩
        · -- What lies behind a node that was visited was visited with it.
          obtain rfl := List.mem_singleton.mp hfirst
          exact (h.mem_iff there).mp (hroute.last_mem h.closed (hname next hnext))

/-- Behind a search from the node that the name leads to, the name is done. -/
theorem visit {visited' : List Node} (h : Swept edge avoid node done visited)
    (hedge : ∀ other, edge node name other ↔ other = next)
    (hvisited : ∀ there, there ∈ visited' ↔
      there ∈ visited ∨ ∃ names, Route edge visited next names there) :
    Swept edge avoid node (done ++ [name]) visited' where
  mem_iff there := by
    rw [hvisited, h.mem_iff]
    simp only [h.route_iff]
    constructor
    · rintro ((hold | ⟨first, hfirst, hrest⟩) | ⟨names, hroute, -⟩)
      · exact .inl hold
      · exact .inr ⟨first, List.mem_append_left _ hfirst, hrest⟩
      · exact .inr ⟨name, List.mem_append_right _ (List.mem_singleton_self name), next,
          (hedge next).mpr rfl, names, hroute⟩
    · rintro (hold | ⟨first, hfirst, other, hother, names, hroute⟩)
      · exact .inl (.inl hold)
      · rcases List.mem_append.mp hfirst with hfirst | hfirst
        · exact .inl (.inr ⟨first, hfirst, other, hother, names, hroute⟩)
        · obtain rfl := List.mem_singleton.mp hfirst
          obtain rfl := (hedge other).mp hother
          by_cases hthere : there ∈ visited
          · exact .inl ((h.mem_iff there).mp hthere)
          · exact .inr ⟨names, hroute, hthere⟩

theorem mem_of_done (h : Swept edge avoid node done visited) (hname : name ∈ done)
    (hedge : edge node name next) (hroute : Route edge (node :: avoid) next names there) :
    there ∈ visited :=
  (h.mem_iff there).mpr (.inr ⟨name, hname, next, hedge, names, hroute⟩)

/-- The first route by the next name is the first route on from where it leads. -/
theorem firstRoute_cons_iff (h : Swept edge avoid node done visited) (hnode : node ∉ avoid)
    (hdone : ∀ other next, edge node other next → (other ∈ done ↔ other < name))
    (hedge : ∀ other, edge node name other ↔ other = next) :
    FirstRoute edge avoid node (name :: names) there ↔ FirstRoute edge visited next names there := by
  have hname : edge node name next := (hedge next).mpr rfl
  constructor
  · rintro ⟨hroute, hleast⟩
    cases hroute with
    | step _ hother hrest =>
      obtain rfl := (hedge _).mp hother
      have hthere : there ∉ visited := by
        intro hmem
        rcases (h.mem_iff there).mp hmem with hold | ⟨first, hfirst, next', hnext', names', hroute'⟩
        · exact hrest.last_not_mem hold
        · -- The node was found by an earlier name already.
          have hlt : first < name := (hdone first next' hnext').mp hfirst
          rcases hleast _ (.step hnode hnext' hroute') with heq | hlex
          · cases heq
            exact String.lt_irrefl _ hlt
          · cases hlex with
            | rel hgt => exact String.lt_asymm hlt hgt
            | cons _ => exact String.lt_irrefl _ hlt
      refine ⟨h.route_iff.mpr ⟨hrest, hthere⟩, fun other hother => ?_⟩
      rcases hleast _ (.step hnode hname (h.route_iff.mp hother).1) with heq | hlex
      · cases heq
        exact .inl rfl
      · cases hlex with
        | rel hlt => exact absurd hlt (String.lt_irrefl _)
        | cons hlex => exact .inr hlex
  · rintro ⟨hroute, hleast⟩
    obtain ⟨hrest, hthere⟩ := h.route_iff.mp hroute
    refine ⟨.step hnode hname hrest, fun other hother => ?_⟩
    cases hother with
    | here _ => exact absurd (h.subset List.mem_cons_self) hthere
    | @step _ _ next' _ first names' _ hfirst hrest' =>
      -- Another route begins with an earlier name, a later one, or this one.
      by_cases hlt : first < name
      · have hdone' : first ∈ done := (hdone first next' hfirst).mpr hlt
        exact absurd (h.mem_of_done hdone' hfirst hrest') hthere
      · by_cases hgt : name < first
        · exact .inr (.rel hgt)
        · obtain rfl : name = first :=
            String.le_antisymm (String.not_lt.mp hlt) (String.not_lt.mp hgt)
          obtain rfl := (hedge _).mp hfirst
          rcases hleast names' (h.route_iff.mpr ⟨hrest', hthere⟩) with rfl | hlex
          · exact .inl rfl
          · exact .inr (.cons hlex)

end Swept

end SourceCensus
