import Mathlib
import SourceCensus.Proofs.Analysis.Outcome

/-!
# Reports by bare name

A census holds a report for each path.  The view by bare name (`Census.byName`) holds one for each name, so
where files share a name it forgets reports.  It is filled by overwriting; the shared names are collected
apart from it, by appending.  Neither looks at the other, and between them they account for every file:

> the reports are as many as the names, and one more for each path but the last one behind a shared name
> (`length_eq_add_sum_collisionsOf`).

Both tables get their keys in the order in which names first come up (`Assoc.keys_foldl`).  What the second one
holds behind a name is the list of its paths, and what the first one holds there is the end of that list.
-/

set_option autoImplicit false

namespace SourceCensus

/-! ## Tables filled step by step -/

namespace Assoc

variable {α β : Type} [DecidableEq α]

/-- The keys of a table stand in the order in which they first came. -/
theorem keys_foldl {γ : Type} {step : Assoc α β → γ → Assoc α β} {key : γ → α}
    (hstep : ∀ t x, ∃ v, step t x = put (key x) v t) (l : List γ) :
    keys (l.foldl step []) = (l.map key).eraseDups := by
  induction l using List.reverseRecOn with
  | nil => rfl
  | append_singleton l x ih =>
    obtain ⟨v, hput⟩ := hstep (l.foldl step []) x
    rw [List.foldl_append, List.foldl_cons, List.foldl_nil, hput, keys_put, ih, List.map_append,
      List.eraseDups_append, List.map_singleton, List.removeAll, List.filter_singleton]
    by_cases h : key x ∈ l.map key
    · simp only [List.mem_eraseDups, h, if_true, List.elem_eq_contains, List.contains_eq_mem]
      simp
    · simp only [List.mem_eraseDups, h, if_false, List.elem_eq_contains, List.contains_eq_mem]
      simp [List.eraseDups_cons]

theorem keys_ofList (pairs : List (α × β)) : keys (ofList pairs) = (keys pairs).eraseDups := by
  have hstep : ∀ (t : Assoc α β) (kv : α × β), ∃ v, put kv.1 kv.2 t = put kv.1 v t :=
    fun t kv => ⟨kv.2, rfl⟩
  exact keys_foldl hstep pairs

theorem get?_eq_head? (k : α) (t : Assoc α β) :
    get? k t = (t.filter (·.1 = k)).head?.map (·.2) := by
  induction t with
  | nil => rfl
  | cons kv t ih =>
    rw [get?, List.filter_cons]
    by_cases h : k = kv.1
    · simp [h]
    · simp [h, Ne.symm h, ih]

/-- Of the pairs with one key the last one stays. -/
theorem get?_ofList (k : α) (pairs : List (α × β)) :
    get? k (ofList pairs) = (pairs.filter (·.1 = k)).getLast?.map (·.2) := by
  rw [ofList, get?_merge, get?_nil, Option.or_none, get?_eq_head?, List.filter_reverse,
    List.head?_reverse]

end Assoc

theorem nodup_eraseDups {α : Type} [DecidableEq α] (l : List α) : l.eraseDups.Nodup := by
  have hkeys := Assoc.nodup_keys_ofList (l.map fun a => (a, ()))
  rw [Assoc.keys_ofList, Assoc.keys, List.map_map] at hkeys
  simpa [Function.comp_def] using hkeys

/-! ## Paths by name -/

/-- The paths with that name, in order. -/
def named (paths : List Path) (name : String) : List Path := paths.filter (·.name = name)

theorem keys_groupByName (paths : List Path) :
    Assoc.keys (groupByName paths) = (paths.map Path.name).eraseDups := by
  unfold groupByName
  exact Assoc.keys_foldl (fun t p => ⟨_, rfl⟩) paths

theorem get?_groupByName (paths : List Path) (name : String) :
    (Assoc.get? name (groupByName paths)).getD [] = named paths name := by
  induction paths using List.reverseRecOn with
  | nil => rfl
  | append_singleton paths p ih =>
    rw [groupByName, List.foldl_append, List.foldl_cons, List.foldl_nil, ← groupByName, groupUnder,
      Assoc.get?_put, named, List.filter_append, ← named]
    by_cases h : name = p.name
    · subst h
      simp [ih]
    · simp [h, Ne.symm h, ih]

/-- The table has a group for each name that comes up, in that order: the paths that have it. -/
theorem groupByName_eq (paths : List Path) :
    groupByName paths = (paths.map Path.name).eraseDups.map fun name => (name, named paths name) := by
  have hnodup : (Assoc.keys (groupByName paths)).Nodup := by
    rw [keys_groupByName]
    exact nodup_eraseDups _
  have hgroup : ∀ group ∈ groupByName paths, group = (group.1, named paths group.1) := by
    intro group hgroup
    have hget := get?_groupByName paths group.1
    rw [(Assoc.get?_eq_some_iff hnodup).mpr hgroup, Option.getD_some] at hget
    rw [← hget]
  calc groupByName paths
      = (groupByName paths).map fun group => group := (List.map_id' _).symm
    _ = (groupByName paths).map fun group => (group.1, named paths group.1) :=
        List.map_congr_left hgroup
    _ = (Assoc.keys (groupByName paths)).map fun name => (name, named paths name) := by
        rw [Assoc.keys, List.map_map]
        rfl
    _ = (paths.map Path.name).eraseDups.map fun name => (name, named paths name) := by
        rw [keys_groupByName]

/-! ## Shared names -/

variable {paths : List Path} {name : String}

theorem collisionsOf_eq (paths : List Path) :
    collisionsOf paths =
      ((paths.map Path.name).eraseDups.filter fun name => 1 < (named paths name).length).map
        fun name => (name, named paths name) := by
  rw [collisionsOf, groupByName_eq, List.filter_map]
  rfl

theorem keys_collisionsOf (paths : List Path) :
    Assoc.keys (collisionsOf paths) =
      (paths.map Path.name).eraseDups.filter fun name => 1 < (named paths name).length := by
  rw [collisionsOf_eq, Assoc.keys, List.map_map]
  exact List.map_id _

theorem mem_keys_collisionsOf :
    name ∈ Assoc.keys (collisionsOf paths) ↔ 2 ≤ (named paths name).length := by
  rw [keys_collisionsOf, List.mem_filter, List.mem_eraseDups, decide_eq_true_eq]
  constructor
  · intro h
    exact h.2
  · intro h
    obtain ⟨p, hp⟩ := List.exists_mem_of_length_pos (Nat.lt_of_succ_lt h)
    obtain ⟨hp, hname⟩ := List.mem_filter.mp hp
    exact ⟨List.mem_map.mpr ⟨p, hp, of_decide_eq_true hname⟩, h⟩

theorem get?_collisionsOf (h : name ∈ Assoc.keys (collisionsOf paths)) :
    Assoc.get? name (collisionsOf paths) = some (named paths name) := by
  have hnodup : (Assoc.keys (collisionsOf paths)).Nodup := by
    rw [keys_collisionsOf]
    exact (nodup_eraseDups _).filter _
  rw [keys_collisionsOf] at h
  rw [Assoc.get?_eq_some_iff hnodup, collisionsOf_eq]
  exact List.mem_map_of_mem h

/-! ## As many as before -/

/-- Each path stands behind one name. -/
theorem sum_length_named (paths : List Path) :
    ((paths.map Path.name).eraseDups.map fun name => (named paths name).length).sum = paths.length := by
  have hcount : ∀ name, (named paths name).length = (paths.map Path.name).count name := by
    intro name
    rw [List.count, List.countP_map, List.countP_eq_length_filter]
    rfl
  have hperm : (paths.map Path.name).eraseDups.Perm (paths.map Path.name).dedup := by
    rw [List.perm_ext_iff_of_nodup (nodup_eraseDups _) (List.nodup_dedup _)]
    simp
  calc ((paths.map Path.name).eraseDups.map fun name => (named paths name).length).sum
      = ((paths.map Path.name).dedup.map fun name => (paths.map Path.name).count name).sum := by
        simp only [hcount]
        exact (hperm.map _).sum_eq
    _ = (paths.map Path.name).length := List.sum_map_count_dedup_eq_length _
    _ = paths.length := List.length_map _

/-- Positive numbers sum up to as many as they are and what they have above one. -/
theorem sum_eq_length_add_sum_filter {α : Type} {f : α → Nat} {l : List α} (h : ∀ a ∈ l, 0 < f a) :
    (l.map f).sum = l.length + ((l.filter fun a => 1 < f a).map fun a => f a - 1).sum := by
  induction l with
  | nil => rfl
  | cons a l ih =>
    rw [List.forall_mem_cons] at h
    have ih := ih h.2
    have hpos := h.1
    rw [List.map_cons, List.sum_cons, ih, List.length_cons, List.filter_cons]
    split
    · next hmore =>
      rw [List.map_cons, List.sum_cons]
      have := of_decide_eq_true hmore
      omega
    · next hone =>
      have : f a = 1 := by
        simp only [decide_eq_true_eq] at hone
        omega
      omega

theorem length_eq_add_sum_collisionsOf (paths : List Path) :
    paths.length = (paths.map Path.name).eraseDups.length +
      ((collisionsOf paths).map fun group => group.2.length - 1).sum := by
  have hpos : ∀ name ∈ (paths.map Path.name).eraseDups, 0 < (named paths name).length := by
    intro name hname
    rw [List.mem_eraseDups, List.mem_map] at hname
    obtain ⟨p, hp, rfl⟩ := hname
    exact List.length_pos_of_mem (List.mem_filter.mpr ⟨hp, decide_eq_true rfl⟩)
  rw [collisionsOf_eq, List.map_map]
  exact (sum_length_named paths).symm.trans (sum_eq_length_add_sum_filter hpos)

/-! ## The reports by name -/

namespace Census

variable {c : Census}

theorem keys_byName (c : Census) : Assoc.keys c.byName = (c.reports.map FileReport.name).eraseDups := by
  rw [byName, Assoc.keys_ofList, Assoc.keys, List.map_map]
  rfl

/-- Under a name stands the last report with it. -/
theorem get?_byName (c : Census) (name : String) :
    Assoc.get? name c.byName = (c.reports.filter (·.name = name)).getLast? := by
  rw [byName, Assoc.get?_ofList, List.filter_map, List.getLast?_map, Option.map_map]
  exact congrFun Option.map_id _

theorem named_map_path (c : Census) (name : String) :
    named (c.reports.map (·.path)) name = (c.reports.filter (·.name = name)).map (·.path) := by
  rw [named, List.filter_map]
  rfl

/-- A name that is not among the collisions has one report only. -/
theorem filter_name_of_not_mem_collisions {r : FileReport} (hr : r ∈ c.reports)
    (hname : r.name ∉ Assoc.keys (collisionsOf (c.reports.map (·.path)))) :
    c.reports.filter (·.name = r.name) = [r] := by
  have hfew := mt mem_keys_collisionsOf.mpr hname
  rw [named_map_path, List.length_map, Nat.not_le] at hfew
  have hmem : r ∈ c.reports.filter (·.name = r.name) :=
    List.mem_filter.mpr ⟨hr, decide_eq_true rfl⟩
  obtain ⟨r₀, hr₀⟩ := List.length_eq_one_iff.mp
    (le_antisymm (Nat.le_of_lt_succ hfew) (List.length_pos_of_mem hmem))
  rw [hr₀, List.mem_singleton] at hmem
  rw [hr₀, hmem]

/-- The collisions that an analysis announces are those of the paths that it reports on. -/
theorem collisions_of_take {fs : FileSystem} {settings : Settings} {root : Path}
    (h : (take fs settings root).outcome = .ok c) :
    c.collisions = collisionsOf (c.reports.map (·.path)) := by
  obtain ⟨subject, -, names, -, files, -, imports, -, reports, hreports, rfl⟩ := take_eq_ok_iff.mp h
  show collisionsOf files = collisionsOf (reports.map (·.path))
  rw [Analysis.map_path_of_reports hreports]

/-- The view by name loses what the collisions announce, and nothing else. -/
theorem byName_and_collisions (c : Census) :
    let paths := c.reports.map (·.path)
    let collisions := collisionsOf paths
    (∀ name, name ∈ Assoc.keys collisions ↔ 2 ≤ (paths.filter (·.name = name)).length) ∧
    (∀ name ∈ Assoc.keys collisions,
      Assoc.get? name collisions = some (paths.filter (·.name = name)) ∧
      ∃ r ∈ c.reports, (paths.filter (·.name = name)).getLast? = some r.path ∧
        Assoc.get? name c.byName = some r) ∧
    (∀ r ∈ c.reports, r.name ∉ Assoc.keys collisions →
      Assoc.get? r.name c.byName = some r ∧ ∀ r' ∈ c.reports, r'.name = r.name → r' = r) ∧
    Assoc.keys c.byName = (c.reports.map FileReport.name).eraseDups ∧
    c.reports.length = c.byName.length + (collisions.map fun group => group.2.length - 1).sum := by
  intro paths collisions
  refine ⟨fun name => mem_keys_collisionsOf, ?_, ?_, keys_byName c, ?_⟩
  · intro name hname
    refine ⟨get?_collisionsOf hname, ?_⟩
    have htwo := mem_keys_collisionsOf.mp hname
    have hnamed := named_map_path c name
    rw [hnamed, List.length_map] at htwo
    obtain ⟨r, hr⟩ : ∃ r, (c.reports.filter (·.name = name)).getLast? = some r :=
      ⟨_, List.getLast?_eq_some_getLast (List.ne_nil_of_length_pos (Nat.lt_of_succ_lt htwo))⟩
    refine ⟨r, (List.mem_filter.mp (List.mem_of_getLast? hr)).1, ?_, ?_⟩
    · show (named paths name).getLast? = some r.path
      rw [hnamed, List.getLast?_map, hr, Option.map_some]
    · rw [get?_byName, hr]
  · intro r hr hname
    have hone := filter_name_of_not_mem_collisions hr hname
    rw [get?_byName, hone]
    refine ⟨rfl, fun r' hr' hsame => ?_⟩
    have hmem' : r' ∈ c.reports.filter (·.name = r.name) :=
      List.mem_filter.mpr ⟨hr', decide_eq_true hsame⟩
    rw [hone] at hmem'
    exact List.mem_singleton.mp hmem'
  · have hlength := length_eq_add_sum_collisionsOf paths
    have hnames : paths.map Path.name = c.reports.map FileReport.name := by
      rw [List.map_map]
      rfl
    rwa [hnames, ← keys_byName, List.length_map, Assoc.keys, List.length_map] at hlength

end Census

end SourceCensus
