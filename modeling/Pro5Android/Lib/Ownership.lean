import Mathlib.Logic.Function.Basic
import Mathlib.Tactic.TypeStar

/-!
# Ownership of resources

A table has the resources in use, each with what is known of it; `owner` says which of
them a place holds. `Owned` is the balance of both: what a place holds is in use, no two
places hold the same, and nothing is in use without a place that holds it.

Results:
* `Owned.acquire`, `Owned.release`: a resource comes into an empty place, and leaves it.
* `Held.acquire`, `Held.release`, `Held.mono`, `Held.lose`: the same where places may lose
  what they hold; what is lost stays in use.
-/

namespace Pro5Android.Lib

variable {ι κ ν : Type*}

structure Owned (table : κ → Option ν) (owner : ι → Option (κ × ν)) : Prop where
  held : ∀ {i k v}, owner i = some (k, v) → table k = some v
  unique : ∀ {i j k v w}, owner i = some (k, v) → owner j = some (k, w) → i = j
  complete : ∀ {k v}, table k = some v → ∃ i, owner i = some (k, v)

namespace Owned

variable {table : κ → Option ν} {owner : ι → Option (κ × ν)} {i : ι} {k : κ} {v : ν}

theorem empty : Owned (fun _ : κ => (none : Option ν)) fun _ : ι => none :=
  ⟨nofun, nofun, nofun⟩

/-- Nothing is in use when no place holds anything. -/
theorem eq_empty (h : Owned table owner) (hnone : ∀ i, owner i = none) (k : κ) :
    table k = none := by
  by_contra hk
  obtain ⟨v, hv⟩ := Option.ne_none_iff_exists'.mp hk
  obtain ⟨i, hi⟩ := h.complete hv
  exact absurd ((hnone i).symm.trans hi) (by simp)

/-- What a place holds is not held by another one. -/
theorem ne_of_held (h : Owned table owner) (hi : owner i = some (k, v)) {j : ι} (hj : j ≠ i)
    {k' : κ} {w : ν} (hk : owner j = some (k', w)) : k' ≠ k := by
  rintro rfl
  exact hj (h.unique hk hi)

variable [DecidableEq ι] [DecidableEq κ]

theorem acquire (h : Owned table owner) (hempty : owner i = none) (hfree : table k = none) :
    Owned (Function.update table k (some v)) (Function.update owner i (some (k, v))) := by
  have hne {j k' w} (hk : owner j = some (k', w)) : k' ≠ k := by
    rintro rfl
    exact absurd (hfree.symm.trans (h.held hk)) (by simp)
  refine ⟨fun {j k' w} hj => ?_, fun {j l k' w w'} hj hl => ?_, fun {k' w} hk => ?_⟩
  · by_cases hji : j = i
    · subst hji
      rw [Function.update_self] at hj
      obtain ⟨rfl, rfl⟩ := Prod.mk.inj (Option.some.inj hj)
      rw [Function.update_self]
    · rw [Function.update_of_ne hji] at hj
      rw [Function.update_of_ne (hne hj)]
      exact h.held hj
  · by_cases hji : j = i <;> by_cases hli : l = i
    · rw [hji, hli]
    · rw [hji, Function.update_self] at hj
      rw [Function.update_of_ne hli] at hl
      exact absurd (Prod.mk.inj (Option.some.inj hj)).1.symm (hne hl)
    · rw [hli, Function.update_self] at hl
      rw [Function.update_of_ne hji] at hj
      exact absurd (Prod.mk.inj (Option.some.inj hl)).1.symm (hne hj)
    · rw [Function.update_of_ne hji] at hj
      rw [Function.update_of_ne hli] at hl
      exact h.unique hj hl
  · by_cases hkk : k' = k
    · subst hkk
      rw [Function.update_self] at hk
      exact ⟨i, by rw [Function.update_self, Option.some.inj hk]⟩
    · rw [Function.update_of_ne hkk] at hk
      obtain ⟨j, hj⟩ := h.complete hk
      have hji : j ≠ i := by
        rintro rfl
        exact absurd (hempty.symm.trans hj) (by simp)
      exact ⟨j, by rw [Function.update_of_ne hji, hj]⟩

theorem release (h : Owned table owner) (hi : owner i = some (k, v)) :
    Owned (Function.update table k none) (Function.update owner i none) := by
  have hne {j w} (hj : Function.update owner i none j = some w) : j ≠ i ∧ owner j = some w := by
    by_cases hji : j = i
    · simp [hji] at hj
    · exact ⟨hji, by rwa [Function.update_of_ne hji] at hj⟩
  refine ⟨fun {j k' w} hj => ?_, fun {j l k' w w'} hj hl => ?_, fun {k' w} hk => ?_⟩
  · obtain ⟨hji, hj⟩ := hne hj
    rw [Function.update_of_ne (h.ne_of_held hi hji hj)]
    exact h.held hj
  · exact h.unique (hne hj).2 (hne hl).2
  · by_cases hkk : k' = k
    · subst hkk
      simp at hk
    · rw [Function.update_of_ne hkk] at hk
      obtain ⟨j, hj⟩ := h.complete hk
      have hji : j ≠ i := by
        rintro rfl
        exact hkk (Prod.mk.inj (Option.some.inj (hj.symm.trans hi))).1
      exact ⟨j, by rw [Function.update_of_ne hji, hj]⟩

end Owned

/-- What the places hold is in use and held once; what is lost is in use too, and no place
    holds it. -/
structure Held (table : κ → Option ν) (owner : ι → Option (κ × ν)) (lost : κ → ν → Prop) :
    Prop where
  held : ∀ {i k v}, owner i = some (k, v) → table k = some v
  unique : ∀ {i j k v w}, owner i = some (k, v) → owner j = some (k, w) → i = j
  kept : ∀ {k v}, lost k v → table k = some v
  unheld : ∀ {i k v w}, lost k v → owner i ≠ some (k, w)

namespace Held

variable {table : κ → Option ν} {owner owner' : ι → Option (κ × ν)} {lost : κ → ν → Prop}
  {i : ι} {k : κ} {v : ν}

theorem empty : Held (fun _ : κ => (none : Option ν)) (fun _ : ι => none) fun _ _ => False :=
  ⟨nofun, nofun, nofun, nofun⟩

/-- Places may be emptied without a word. -/
theorem mono (h : Held table owner lost) (hsub : ∀ i x, owner' i = some x → owner i = some x) :
    Held table owner' lost :=
  ⟨fun hi => h.held (hsub _ _ hi), fun hi hj => h.unique (hsub _ _ hi) (hsub _ _ hj), h.kept,
    fun hlost hi => h.unheld hlost (hsub _ _ hi)⟩

/-- What a place held is lost when nobody holds it afterwards. -/
theorem lose (h : Held table owner lost) (hi : owner i = some (k, v))
    (hsub : ∀ j x, owner' j = some x → owner j = some x) (hself : owner' i = none) :
    Held table owner' fun k' v' => lost k' v' ∨ (k' = k ∧ v' = v) where
  held hj := h.held (hsub _ _ hj)
  unique hj hl := h.unique (hsub _ _ hj) (hsub _ _ hl)
  kept := by
    rintro k' v' (hlost | ⟨rfl, rfl⟩)
    · exact h.kept hlost
    · exact h.held hi
  unheld := by
    rintro j k' v' w (hlost | ⟨rfl, rfl⟩) hj
    · exact h.unheld hlost (hsub _ _ hj)
    · obtain rfl := h.unique (hsub _ _ hj) hi
      exact absurd (hself.symm.trans hj) (by simp)

variable [DecidableEq ι] [DecidableEq κ]

theorem acquire (h : Held table owner lost) (hfree : table k = none) :
    Held (Function.update table k (some v)) (Function.update owner i (some (k, v))) lost := by
  have hne {k' w} (hk : table k' = some w) : k' ≠ k := by
    rintro rfl
    exact absurd (hfree.symm.trans hk) (by simp)
  have hcases {j x} (hj : Function.update owner i (some (k, v)) j = some x) :
      (j = i ∧ x = (k, v)) ∨ (j ≠ i ∧ owner j = some x) := by
    by_cases hji : j = i
    · rw [hji, Function.update_self] at hj
      exact .inl ⟨hji, (Option.some.inj hj).symm⟩
    · rw [Function.update_of_ne hji] at hj
      exact .inr ⟨hji, hj⟩
  refine ⟨fun {j k' w} hj => ?_, fun {j l k' w w'} hj hl => ?_, fun {k' w} hlost => ?_,
    fun {j k' w w'} hlost hj => ?_⟩
  · obtain ⟨-, hx⟩ | ⟨-, hj⟩ := hcases hj
    · obtain ⟨rfl, rfl⟩ := Prod.mk.inj hx
      exact Function.update_self _ _ _
    · rw [Function.update_of_ne (hne (h.held hj))]
      exact h.held hj
  · obtain ⟨hji, hx⟩ | ⟨-, hj⟩ := hcases hj <;> obtain ⟨hli, hy⟩ | ⟨-, hl⟩ := hcases hl
    · rw [hji, hli]
    · exact absurd (Prod.mk.inj hx).1 (hne (h.held hl))
    · exact absurd (Prod.mk.inj hy).1 (hne (h.held hj))
    · exact h.unique hj hl
  · rw [Function.update_of_ne (hne (h.kept hlost))]
    exact h.kept hlost
  · obtain ⟨-, hx⟩ | ⟨-, hj⟩ := hcases hj
    · exact absurd (Prod.mk.inj hx).1 (hne (h.kept hlost))
    · exact h.unheld hlost hj

theorem release (h : Held table owner lost) (hi : owner i = some (k, v)) :
    Held (Function.update table k none) (Function.update owner i none) lost := by
  have hcases {j x} (hj : Function.update owner i none j = some x) :
      j ≠ i ∧ owner j = some x := by
    by_cases hji : j = i
    · rw [hji, Function.update_self] at hj
      exact absurd hj (by simp)
    · rw [Function.update_of_ne hji] at hj
      exact ⟨hji, hj⟩
  refine ⟨fun {j k' w} hj => ?_, fun hj hl => h.unique (hcases hj).2 (hcases hl).2,
    fun {k' w} hlost => ?_, fun hlost hj => h.unheld hlost (hcases hj).2⟩
  · obtain ⟨hji, hj⟩ := hcases hj
    have hne : k' ≠ k := by
      rintro rfl
      exact hji (h.unique hj hi)
    rw [Function.update_of_ne hne]
    exact h.held hj
  · have hne : k' ≠ k := by
      rintro rfl
      exact h.unheld hlost hi
    rw [Function.update_of_ne hne]
    exact h.kept hlost

end Held

end Pro5Android.Lib
