import Pro5Android.Python.Bytes

/-!
# Dictionaries

A `dict` as the function `dict.get`; a comprehension `{k: v for …}` assigns one
pair after the other, so a later pair wins. Where the order of the items matters, a
`dict` is an `OrderedDict`: its items in order of insertion, where assigning to a
key that is there already keeps its place.

Results:
* `Dict.ofPairs_cons`, `Dict.ofPairs_eq_some_iff`: which pair wins.
* `OrderedDict.mem_items`: the items are what `get?` returns.
* `OrderedDict.get?_ofPairs`, `OrderedDict.get?_update`: which assignment wins.
-/

namespace Pro5Android.Python

/-- `dict.get`. -/
abbrev Dict (κ ν : Type) := κ → Option ν

namespace Dict

variable {κ ν : Type} [DecidableEq κ]

/-- `d[k] = v`. -/
def set (d : Dict κ ν) (k : κ) (v : ν) : Dict κ ν := fun k' => if k' = k then some v else d k'

/-- `{k: v for k, v in l}`. -/
def ofPairs (l : List (κ × ν)) : Dict κ ν := l.foldl (fun d kv => d.set kv.1 kv.2) fun _ => none

theorem ofPairs_append_singleton (l : List (κ × ν)) (kv : κ × ν) :
    ofPairs (l ++ [kv]) = (ofPairs l).set kv.1 kv.2 := by
  simp [ofPairs]

/-- A later pair wins over the first one. -/
theorem ofPairs_cons (kv : κ × ν) (l : List (κ × ν)) (k : κ) :
    ofPairs (kv :: l) k = (ofPairs l k).or (if k = kv.1 then some kv.2 else none) := by
  induction l using List.reverseRecOn with
  | nil => simp [ofPairs, set]
  | append_singleton l kv' ih =>
    rw [← List.cons_append, ofPairs_append_singleton, ofPairs_append_singleton, set, set, ih]
    split_ifs <;> simp

theorem mem_of_ofPairs {l : List (κ × ν)} {k : κ} {v : ν} (h : ofPairs l k = some v) :
    (k, v) ∈ l := by
  induction l using List.reverseRecOn with
  | nil => cases h
  | append_singleton l kv ih =>
    rw [ofPairs_append_singleton, set] at h
    split_ifs at h with hk
    · obtain rfl := Option.some.inj h
      simp [hk]
    · exact List.mem_append_left _ (ih h)

theorem ofPairs_eq_none_iff {l : List (κ × ν)} {k : κ} :
    ofPairs l k = none ↔ k ∉ l.map Prod.fst := by
  induction l using List.reverseRecOn with
  | nil => simp [ofPairs]
  | append_singleton l kv ih =>
    rw [ofPairs_append_singleton, set]
    split_ifs with hk
    · simp [hk]
    · simp only [List.map_append, List.map_cons, List.map_nil, List.mem_append,
        List.mem_singleton, hk, or_false]
      exact ih

/-- With distinct keys, the dict has just the pairs of the list. -/
theorem ofPairs_eq_some_iff {l : List (κ × ν)} (h : (l.map Prod.fst).Nodup) {k : κ} {v : ν} :
    ofPairs l k = some v ↔ (k, v) ∈ l := by
  refine ⟨mem_of_ofPairs, fun hmem => ?_⟩
  cases hv : ofPairs l k with
  | none => exact absurd (List.mem_map_of_mem hmem) (ofPairs_eq_none_iff.mp hv)
  | some w =>
    have heq := List.inj_on_of_nodup_map h (mem_of_ofPairs hv) hmem rfl
    rw [(Prod.mk.inj heq).2]

/-- `{k: f(k) for k in l}`. -/
theorem ofPairs_graph (f : κ → ν) (l : List κ) (k : κ) :
    ofPairs (l.map fun k' => (k', f k')) k = if k ∈ l then some (f k) else none := by
  induction l with
  | nil => rfl
  | cons k' l ih =>
    rw [List.map_cons, ofPairs_cons, ih]
    by_cases hl : k ∈ l
    · rw [if_pos hl, if_pos (List.mem_cons_of_mem _ hl)]
      rfl
    · rw [if_neg hl, Option.none_or]
      by_cases hk : k = k'
      · simp [hk]
      · simp [hk, hl]

/-- The same value for all keys. -/
theorem ofPairs_const (l : List κ) (v : ν) (k : κ) :
    ofPairs (l.map fun k' => (k', v)) k = if k ∈ l then some v else none :=
  ofPairs_graph (fun _ => v) l k

theorem ofPairs_map {μ : Type} (f : ν → μ) (l : List (κ × ν)) (k : κ) :
    ofPairs (l.map fun kv => (kv.1, f kv.2)) k = (ofPairs l k).map f := by
  induction l with
  | nil => rfl
  | cons kv l ih =>
    rw [List.map_cons, ofPairs_cons, ofPairs_cons, ih]
    cases ofPairs l k with
    | some v => rfl
    | none =>
      dsimp only
      split_ifs <;> rfl

end Dict

/-! ## Items in order of insertion -/

/-- A `dict` with its items in order of insertion. -/
structure OrderedDict (κ ν : Type) where
  items : List (κ × ν)
  nodup : (items.map Prod.fst).Nodup

namespace OrderedDict

variable {κ ν : Type} [DecidableEq κ]

/-- `{}`. -/
def empty : OrderedDict κ ν := ⟨[], List.nodup_nil⟩

/-- `d.get(k)`. -/
def get? (d : OrderedDict κ ν) : Dict κ ν := fun k => d.items.lookup k

/-- The items after `d[k] = v`. -/
def setItems (items : List (κ × ν)) (k : κ) (v : ν) : List (κ × ν) :=
  if k ∈ items.map Prod.fst then items.map fun kv => if kv.1 = k then (k, v) else kv
  else items ++ [(k, v)]

theorem nodup_setItems {items : List (κ × ν)} (h : (items.map Prod.fst).Nodup) (k : κ) (v : ν) :
    ((setItems items k v).map Prod.fst).Nodup := by
  rw [setItems]
  split_ifs with hk
  · have hkeys : (items.map fun kv => if kv.1 = k then (k, v) else kv).map Prod.fst =
        items.map Prod.fst := by
      rw [List.map_map]
      apply List.map_congr_left
      intro kv _
      by_cases hkv : kv.1 = k <;> simp [hkv]
    rwa [hkeys]
  · rw [List.map_append, List.map_singleton, ← List.concat_eq_append]
    exact h.concat hk

/-- `d[k] = v`. -/
def set (d : OrderedDict κ ν) (k : κ) (v : ν) : OrderedDict κ ν :=
  ⟨setItems d.items k v, nodup_setItems d.nodup k v⟩

/-- One assignment after the other. -/
def setAll (d : OrderedDict κ ν) (l : List (κ × ν)) : OrderedDict κ ν :=
  l.foldl (fun d kv => d.set kv.1 kv.2) d

/-- `dict(l)`, and `{k: v for k, v in l}`. -/
def ofPairs (l : List (κ × ν)) : OrderedDict κ ν := empty.setAll l

/-- `d.update(e)`. -/
def update (d e : OrderedDict κ ν) : OrderedDict κ ν := d.setAll e.items

theorem lookup_eq_some_iff {items : List (κ × ν)} (h : (items.map Prod.fst).Nodup) {k : κ} {v : ν} :
    items.lookup k = some v ↔ (k, v) ∈ items := by
  induction items with
  | nil => simp
  | cons kv items ih =>
    obtain ⟨k', v'⟩ := kv
    obtain ⟨hk', hnodup⟩ := List.nodup_cons.mp h
    rw [List.lookup_cons]
    by_cases hk : k = k'
    · subst hk
      have hnot : (k, v) ∉ items := fun hmem => hk' (List.mem_map.mpr ⟨_, hmem, rfl⟩)
      simp [hnot, eq_comm]
    · rw [beq_eq_false_iff_ne.mpr hk]
      simp [ih hnodup, hk]

/-- The items are what `get?` returns. -/
theorem mem_items {d : OrderedDict κ ν} {k : κ} {v : ν} : (k, v) ∈ d.items ↔ d.get? k = some v :=
  (lookup_eq_some_iff d.nodup).symm

theorem get?_set (d : OrderedDict κ ν) (k : κ) (v : ν) : (d.set k v).get? = d.get?.set k v := by
  funext k'
  apply Option.ext
  intro v'
  rw [← mem_items, Dict.set]
  show (k', v') ∈ setItems d.items k v ↔ _
  rw [setItems]
  by_cases hk : k' = k
  · subst hk
    rw [if_pos rfl]
    split_ifs with hmem
    · obtain ⟨⟨k₀, v₀⟩, hkv, rfl⟩ := List.mem_map.mp hmem
      simp only [List.mem_map, Option.some.injEq]
      constructor
      · rintro ⟨kv, -, heq⟩
        split_ifs at heq with h0
        · exact (Prod.mk.inj heq).2
        · exact absurd (congrArg Prod.fst heq) h0
      · rintro rfl
        exact ⟨_, hkv, if_pos rfl⟩
    · have hnot : (k', v') ∉ d.items := fun h => hmem (List.mem_map.mpr ⟨_, h, rfl⟩)
      simp [hnot, eq_comm]
  · rw [if_neg hk, ← mem_items]
    split_ifs with hmem
    · simp only [List.mem_map]
      constructor
      · rintro ⟨kv, hkv, heq⟩
        split_ifs at heq
        · exact absurd (Prod.mk.inj heq).1.symm hk
        · rwa [← heq]
      · intro h
        exact ⟨_, h, if_neg hk⟩
    · simp [hk]

theorem get?_setAll (d : OrderedDict κ ν) (l : List (κ × ν)) (k : κ) :
    (d.setAll l).get? k = (Dict.ofPairs l k).or (d.get? k) := by
  induction l using List.reverseRecOn with
  | nil => rfl
  | append_singleton l kv ih =>
    rw [Dict.ofPairs_append_singleton, setAll, List.foldl_append]
    show ((d.setAll l).set kv.1 kv.2).get? k = _
    rw [get?_set, Dict.set, Dict.set]
    split_ifs
    · rfl
    · exact ih

theorem get?_ofPairs (l : List (κ × ν)) : (ofPairs l).get? = Dict.ofPairs l := by
  funext k
  rw [ofPairs, get?_setAll]
  exact Option.or_none

theorem get?_update (d e : OrderedDict κ ν) (k : κ) :
    (d.update e).get? k = (e.get? k).or (d.get? k) := by
  have hitems : Dict.ofPairs e.items k = e.get? k := by
    apply Option.ext
    intro v
    rw [Dict.ofPairs_eq_some_iff e.nodup, mem_items]
  rw [update, get?_setAll, hitems]

end OrderedDict

end Pro5Android.Python
