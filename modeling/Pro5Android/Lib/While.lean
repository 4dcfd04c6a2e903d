import Mathlib.Algebra.Order.Group.Nat
import Mathlib.Tactic.TypeStar

/-!
# While loops

A loop tests its state and, while the test is true, runs its body, which may fail.
`Ends` relates the states before and after a loop that terminates without failing.

Results:
* `Ends.invariant`: what the body preserves holds at the end, where the test is false.
* `ends_of_measure`, `not_ends`: termination by a measure, and how to refute it.
* `Ends.simulate`: two loops whose bodies keep their states related.
* `ends_of_run`, `Ends.exists_run`: what ends does so in some number of rounds.
-/

namespace Pro5Android.Lib

structure Loop (σ : Type*) where
  more : σ → Bool
  body : σ → Option σ

namespace Loop

variable {σ τ : Type*} {L : Loop σ} {s s₁ s' : σ}

inductive Ends (L : Loop σ) : σ → σ → Prop
  | stop {s : σ} (h : L.more s = false) : Ends L s s
  | step {s s₁ s' : σ} (h : L.more s = true) (hbody : L.body s = some s₁) (hrest : Ends L s₁ s') :
      Ends L s s'

theorem Ends.unique {s'' : σ} (h : L.Ends s s') (h' : L.Ends s s'') : s' = s'' := by
  induction h with
  | stop hmore =>
    cases h' with
    | stop _ => rfl
    | step hmore' _ _ => exact absurd (hmore.symm.trans hmore') Bool.false_ne_true
  | step hmore hbody _ ih =>
    cases h' with
    | stop hmore' => exact absurd (hmore'.symm.trans hmore) Bool.false_ne_true
    | step _ hbody' hrest' =>
      obtain rfl := Option.some.inj (hbody.symm.trans hbody')
      exact ih hrest'

/-- What the body preserves holds at the end, and there the test is false. -/
theorem Ends.invariant (P : σ → Prop)
    (hbody : ∀ {s s₁}, P s → L.more s = true → L.body s = some s₁ → P s₁) (h : L.Ends s s')
    (h0 : P s) : P s' ∧ L.more s' = false := by
  induction h with
  | stop hmore => exact ⟨h0, hmore⟩
  | step hmore hstep _ ih => exact ih (hbody h0 hmore hstep)

/-- A loop ends if its body never fails and a measure goes down. -/
theorem ends_of_measure (P : σ → Prop) (measure : σ → ℕ)
    (hbody : ∀ {s}, P s → L.more s = true →
      ∃ s₁, L.body s = some s₁ ∧ P s₁ ∧ measure s₁ < measure s) (h0 : P s) : ∃ s', L.Ends s s' := by
  induction hn : measure s using Nat.strong_induction_on generalizing s with
  | _ n ih =>
    cases hmore : L.more s with
    | false => exact ⟨s, .stop hmore⟩
    | true =>
      obtain ⟨s₁, hs₁, h₁, hlt⟩ := hbody h0 hmore
      obtain ⟨s', hs'⟩ := ih (measure s₁) (hn ▸ hlt) h₁ rfl
      exact ⟨s', .step hmore hs₁ hs'⟩

/-- A loop does not end where its test is true and stays so. -/
theorem not_ends (P : σ → Prop) (hmore : ∀ {s}, P s → L.more s = true)
    (hbody : ∀ {s s₁}, P s → L.body s = some s₁ → P s₁) (h0 : P s) : ¬ ∃ s', L.Ends s s' := by
  rintro ⟨s', h⟩
  obtain ⟨hP, hstop⟩ := h.invariant P (fun hP _ hstep => hbody hP hstep) h0
  exact absurd (hstop.symm.trans (hmore hP)) Bool.false_ne_true

/-- A loop whose body does on related states what that of `L` does ends, too. -/
theorem Ends.simulate {L' : Loop τ} {t : τ} (related : σ → τ → Prop)
    (hmore : ∀ {s t}, related s t → L'.more t = L.more s)
    (hbody : ∀ {s s₁ t}, related s t → L.more s = true → L.body s = some s₁ →
      ∃ t₁, L'.body t = some t₁ ∧ related s₁ t₁)
    (h : L.Ends s s') (h0 : related s t) : ∃ t', L'.Ends t t' ∧ related s' t' := by
  induction h generalizing t with
  | stop hstop => exact ⟨t, .stop (by rw [hmore h0, hstop]), h0⟩
  | step hgo hstep _ ih =>
    obtain ⟨t₁, ht₁, h₁⟩ := hbody h0 hgo hstep
    obtain ⟨t', ht', h'⟩ := ih h₁
    exact ⟨t', .step (by rw [hmore h0, hgo]) ht₁ ht', h'⟩

/-- At most `fuel` rounds. -/
def run (L : Loop σ) : ℕ → σ → Option σ
  | 0, _ => none
  | fuel + 1, s => if L.more s then (L.body s).bind (L.run fuel) else some s

theorem ends_of_run {fuel : ℕ} (h : L.run fuel s = some s') : L.Ends s s' := by
  induction fuel generalizing s with
  | zero => cases h
  | succ fuel ih =>
    rw [run] at h
    cases hmore : L.more s with
    | false =>
      rw [hmore] at h
      obtain rfl := Option.some.inj h
      exact .stop hmore
    | true =>
      rw [hmore] at h
      obtain ⟨s₁, hs₁, hrest⟩ := Option.bind_eq_some_iff.mp h
      exact .step hmore hs₁ (ih hrest)

theorem Ends.exists_run (h : L.Ends s s') : ∃ fuel, L.run fuel s = some s' := by
  induction h with
  | stop hmore => exact ⟨1, by rw [run, hmore, if_neg Bool.false_ne_true]⟩
  | step hmore hbody _ ih =>
    obtain ⟨fuel, hfuel⟩ := ih
    exact ⟨fuel + 1, by rw [run, hmore, if_pos rfl, hbody, Option.bind_some, hfuel]⟩

end Loop

end Pro5Android.Lib
