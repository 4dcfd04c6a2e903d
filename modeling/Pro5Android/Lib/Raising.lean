import Mathlib.Tactic.TypeStar

/-!
# Programs with state and exceptions

A program `m : EStateM ε σ α` keeps what it did to the state when it raises an
exception. `Leaves r Q E` says of a result `r` that `Q` holds of value and state if
the program has returned, and `E` of the state if it has raised.

Results:
* `bind_eq_ok`: a program without state, step by step.
* `Leaves.bind`, `Leaves.finallyDo`: the rules for sequencing and for clean-up.
-/

namespace Pro5Android.Lib

universe u

variable {ε ε' σ α β : Type u}

/-- A step that returns, and then the rest. -/
theorem bind_eq_ok {x : Except ε α} {f : α → Except ε β} {b : β} :
    (x >>= f) = .ok b ↔ ∃ a, x = .ok a ∧ f a = .ok b := by
  cases x with
  | error err => exact ⟨fun h => (by cases h), fun ⟨_, h, _⟩ => (by cases h)⟩
  | ok a => exact ⟨fun h => ⟨a, rfl, h⟩, fun ⟨a', ha, h⟩ => by cases ha; exact h⟩

/-- `Q` after a return, `E` after an exception. -/
def Leaves (r : EStateM.Result ε σ α) (Q : α → σ → Prop) (E : σ → Prop) : Prop :=
  match r with
  | .ok a s => Q a s
  | .error _ s => E s

/-- The state that is left, in either case. -/
def stateOf : EStateM.Result ε σ α → σ
  | .ok _ s => s
  | .error _ s => s

/-- `m`, and then `cleanup`, also after an exception of `m`. -/
def finallyDo (m : EStateM ε σ α) (cleanup : EStateM ε σ PUnit) : EStateM ε σ α := fun s =>
  match m s with
  | .ok a s =>
    match cleanup s with
    | .ok _ s => .ok a s
    | .error e s => .error e s
  | .error e s =>
    match cleanup s with
    | .ok _ s => .error e s
    | .error e' s => .error e' s

namespace Leaves

variable {Q Q' : α → σ → Prop} {R : β → σ → Prop} {E E' : σ → Prop}

theorem mono {r : EStateM.Result ε σ α} (h : Leaves r Q E) (hQ : ∀ a s, Q a s → Q' a s)
    (hE : ∀ s, E s → E' s) : Leaves r Q' E' := by
  cases r with
  | ok a s => exact hQ a s h
  | error e s => exact hE s h

theorem stateOf {P : σ → Prop} {r : EStateM.Result ε σ α} (h : Leaves r (fun _ => P) P) :
    P (Lib.stateOf r) := by
  cases r with
  | ok a s => exact h
  | error e s => exact h

theorem bind {m : EStateM ε σ α} {f : α → EStateM ε σ β} {s : σ} (h : Leaves (m s) Q E)
    (hf : ∀ a s', m s = .ok a s' → Q a s' → Leaves (f a s') R E) :
    Leaves ((m >>= f) s) R E := by
  show Leaves (EStateM.bind m f s) R E
  rw [EStateM.bind]
  cases hm : m s with
  | ok a s' =>
    rw [hm] at h
    exact hf a s' hm h
  | error e s' =>
    rw [hm] at h
    exact h

theorem adaptExcept {f : ε → ε'} {m : EStateM ε σ α} {s : σ} (h : Leaves (m s) Q E) :
    Leaves (EStateM.adaptExcept f m s) Q E := by
  rw [EStateM.adaptExcept]
  cases hm : m s with
  | ok a s' =>
    rw [hm] at h
    exact h
  | error e s' =>
    rw [hm] at h
    exact h

theorem finallyDo {m : EStateM ε σ α} {cleanup : EStateM ε σ PUnit} {s : σ}
    (h : Leaves (m s) Q E) (hQ : ∀ a s', Q a s' → Leaves (cleanup s') (fun _ => Q' a) E')
    (hE : ∀ s', E s' → Leaves (cleanup s') (fun _ => E') E') :
    Leaves (Lib.finallyDo m cleanup s) Q' E' := by
  rw [Lib.finallyDo]
  cases hm : m s with
  | ok a s' =>
    rw [hm] at h
    have hc := hQ a s' h
    dsimp only
    cases hcs : cleanup s' with
    | ok _ s'' =>
      rw [hcs] at hc
      exact hc
    | error e s'' =>
      rw [hcs] at hc
      exact hc
  | error e s' =>
    rw [hm] at h
    have hc := hE s' h
    dsimp only
    cases hcs : cleanup s' with
    | ok _ s'' =>
      rw [hcs] at hc
      exact hc
    | error e' s'' =>
      rw [hcs] at hc
      exact hc

end Leaves

end Pro5Android.Lib
