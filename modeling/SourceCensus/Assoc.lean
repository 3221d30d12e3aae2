/-!
# Tables in order of insertion

A table maps keys to values and remembers in which order the keys came.  A key that comes again keeps its
place and takes the later value.  Settings, reports and graph nodes are kept this way, because messages and
listings follow the order in which things were met.

* `Assoc.get?`, `Assoc.put`, `Assoc.ofList`, `Assoc.merge`: look-up, insertion and merging;
* `get?_put`, `get?_merge`: what a look-up sees behind an insertion and behind a merge;
* `get?_eq_some_iff`, `get?_map`, `get?_filter_key`: what a look-up sees in a table with each key once, in
  one with other values, and in one without some keys;
* `keys_put`: which keys there are behind it, and in which order.
-/

set_option autoImplicit false

namespace SourceCensus

/-- A table in order of insertion. -/
abbrev Assoc (α β : Type) := List (α × β)

namespace Assoc

variable {α β : Type} [DecidableEq α]

/-- The value of the key. -/
def get? (k : α) : Assoc α β → Option β
  | [] => none
  | (k', v) :: t => if k = k' then some v else get? k t

/-- The table with the value at the key, which keeps its place or goes to the end. -/
def put (k : α) (v : β) : Assoc α β → Assoc α β
  | [] => [(k, v)]
  | (k', v') :: t => if k = k' then (k', v) :: t else (k', v') :: put k v t

/-- The table with `more` put into it, one pair after another. -/
def merge (t more : Assoc α β) : Assoc α β := more.foldl (fun t kv => put kv.1 kv.2 t) t

/-- The table of the pairs, put in one after another. -/
def ofList (pairs : List (α × β)) : Assoc α β := merge [] pairs

/-- The keys in order. -/
def keys (t : Assoc α β) : List α := t.map (·.1)

@[simp] theorem get?_nil (k : α) : get? k ([] : Assoc α β) = none := rfl

theorem get?_put (k k' : α) (v : β) (t : Assoc α β) :
    get? k (put k' v t) = if k = k' then some v else get? k t := by
  induction t with
  | nil => simp [put, get?]
  | cons kv t ih =>
    obtain ⟨k₁, v₁⟩ := kv
    by_cases h₁ : k' = k₁
    · subst h₁
      by_cases h : k = k' <;> simp [put, get?, h]
    · by_cases h : k = k₁
      · subst h
        simp [put, get?, h₁, Ne.symm h₁]
      · simp [put, get?, h₁, h, ih]

theorem get?_append (k : α) (s t : Assoc α β) :
    get? k (s ++ t) = (get? k s).or (get? k t) := by
  induction s with
  | nil => rfl
  | cons kv s ih =>
    obtain ⟨k', v⟩ := kv
    by_cases h : k = k' <;> simp [get?, h, ih]

/-- Of several values of one key the last one that is merged in stays. -/
theorem get?_merge (k : α) (t more : Assoc α β) :
    get? k (merge t more) = (get? k more.reverse).or (get? k t) := by
  induction more generalizing t with
  | nil => rfl
  | cons kv more ih =>
    obtain ⟨k', v⟩ := kv
    rw [merge, List.foldl_cons, ← merge, ih, get?_put, List.reverse_cons, get?_append]
    by_cases h : k = k' <;> cases get? k more.reverse <;> simp [get?, h]

omit [DecidableEq α] in
theorem mem_keys_of_mem {k : α} {v : β} {t : Assoc α β} (h : (k, v) ∈ t) : k ∈ keys t :=
  List.mem_map_of_mem h

theorem mem_of_get? {k : α} {v : β} {t : Assoc α β} (h : get? k t = some v) : (k, v) ∈ t := by
  induction t with
  | nil => simp at h
  | cons kv t ih =>
    obtain ⟨k', v'⟩ := kv
    rw [get?] at h
    split at h
    · next hk =>
      obtain rfl := Option.some.inj h
      exact hk ▸ List.mem_cons_self
    · exact List.mem_cons_of_mem _ (ih h)

/-- In a table that has each key once, the pairs are what a look-up finds. -/
theorem get?_eq_some_iff {k : α} {v : β} {t : Assoc α β} (h : (keys t).Nodup) :
    get? k t = some v ↔ (k, v) ∈ t := by
  refine ⟨mem_of_get?, fun hmem => ?_⟩
  induction t with
  | nil => simp at hmem
  | cons kv t ih =>
    have hkv : kv.1 ∉ keys t := (List.nodup_cons.mp h).1
    rcases List.mem_cons.mp hmem with rfl | hmem
    · simp [get?]
    · have hne : k ≠ kv.1 := by
        intro hk
        exact hkv (hk ▸ mem_keys_of_mem hmem)
      rw [get?, if_neg hne]
      exact ih (List.nodup_cons.mp h).2 hmem

theorem get?_map {γ : Type} (f : α × β → γ) (k : α) (t : Assoc α β) :
    get? k (t.map fun kv => (kv.1, f kv)) = (get? k t).map fun v => f (k, v) := by
  induction t with
  | nil => rfl
  | cons kv t ih =>
    obtain ⟨k', v⟩ := kv
    by_cases h : k = k'
    · subst h
      simp [get?]
    · simp only [List.map_cons, get?, if_neg h, ih]

/-- Of a table without some keys the others are looked up as before. -/
theorem get?_filter_key (p : α → Bool) (k : α) (t : Assoc α β) :
    get? k (t.filter fun kv => p kv.1) = if p k then get? k t else none := by
  induction t with
  | nil => simp
  | cons kv t ih =>
    obtain ⟨k', v⟩ := kv
    rw [List.filter_cons]
    by_cases h : k = k'
    · subst h
      by_cases hp : p k = true <;> simp_all [get?]
    · by_cases hp' : p k' = true <;> simp [hp', get?, h, ih]

/-- A table whose values depend on their keys only answers by that dependence. -/
theorem get?_map_key {γ : Type} (f : α → γ) (k : α) (t : Assoc α β) :
    get? k (t.map fun kv => (kv.1, f kv.1)) = if k ∈ keys t then some (f k) else none := by
  induction t with
  | nil => rfl
  | cons kv t ih =>
    by_cases h : k = kv.1
    · subst h
      simp [get?, keys]
    · have hkeys : k ∈ keys (kv :: t) ↔ k ∈ keys t := by simp [keys, h]
      rw [List.map_cons, get?, if_neg h, ih]
      simp only [hkeys]

theorem keys_put (k : α) (v : β) (t : Assoc α β) :
    keys (put k v t) = if k ∈ keys t then keys t else keys t ++ [k] := by
  induction t with
  | nil => simp [put, keys]
  | cons kv t ih =>
    obtain ⟨k', v'⟩ := kv
    by_cases h : k = k'
    · subst h
      simp [put, keys]
    · simp only [keys] at ih
      simp only [put, h, keys, if_false, List.map_cons, List.mem_cons, false_or, ih]
      split <;> simp_all

/-- Putting a pair in keeps the keys apart. -/
theorem nodup_keys_put {k : α} {v : β} {t : Assoc α β} (h : (keys t).Nodup) :
    (keys (put k v t)).Nodup := by
  rw [keys_put]
  split
  · exact h
  · next hk =>
    rw [List.nodup_append]
    refine ⟨h, by simp, ?_⟩
    intro a ha b hb hab
    rw [List.mem_singleton] at hb
    exact hk (hb ▸ hab ▸ ha)

theorem nodup_keys_merge {t more : Assoc α β} (h : (keys t).Nodup) :
    (keys (merge t more)).Nodup := by
  induction more generalizing t with
  | nil => exact h
  | cons kv more ih => exact ih (nodup_keys_put h)

/-- A table of pairs has each key once. -/
theorem nodup_keys_ofList (pairs : List (α × β)) : (keys (ofList pairs)).Nodup :=
  nodup_keys_merge (by simp [keys])

end Assoc

end SourceCensus
