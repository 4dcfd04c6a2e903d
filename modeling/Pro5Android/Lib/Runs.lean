import Mathlib.Logic.Relation

/-!
# Runs of a system

A system takes one input after the other. `legal` says which inputs its callers
may give it in a state, `next` what an input makes of the state; what a run may do
besides is restricted by the argument `good`. An observer keeps a record beside a
system without changing it.

Results:
* `Reach.invariant`: what holds at the start and is preserved by every input holds
  along a run.
* `reach_after`: an executable run is a run.
* `foldlM_invariant`: a run none of whose steps can fail while `P` holds.
-/

namespace Pro5Android.Lib

/-- Inputs `ι` to states `σ`. -/
structure System (σ ι : Type*) where
  legal : σ → ι → Prop
  next : σ → ι → σ

namespace System

variable {σ ι γ : Type*}

/-- One input that `good` allows. -/
def Step (S : System σ ι) (good : σ → ι → Prop) (s s' : σ) : Prop :=
  ∃ i, S.legal s i ∧ good s i ∧ s' = S.next s i

/-- The states of the runs from `s₀` all of whose inputs are `good`. -/
abbrev Reach (S : System σ ι) (good : σ → ι → Prop) : σ → σ → Prop :=
  Relation.ReflTransGen (S.Step good)

/-- Any legal input. -/
abbrev AnyInput : σ → ι → Prop := fun _ _ => True

variable {S : System σ ι} {good : σ → ι → Prop} {s₀ s : σ}

/-- What every input preserves holds along a run. -/
theorem Reach.invariant (P : σ → Prop) (h0 : P s₀)
    (hnext : ∀ {s i}, S.legal s i → good s i → P s → P (S.next s i)) (h : S.Reach good s₀ s) :
    P s := by
  induction h with
  | refl => exact h0
  | tail _ hstep ih =>
    obtain ⟨i, hlegal, hgood, rfl⟩ := hstep
    exact hnext hlegal hgood ih

/-! ## Executable runs -/

variable (S)

/-- The state after a list of inputs. -/
def after (s : σ) (inputs : List ι) : σ := inputs.foldl S.next s

/-- Every input is legal and `good` where it comes. -/
def Allowed (good : σ → ι → Prop) : σ → List ι → Prop
  | _, [] => True
  | s, i :: inputs => S.legal s i ∧ good s i ∧ Allowed good (S.next s i) inputs

variable {S}

theorem reach_after {inputs : List ι} (h : S.Allowed good s inputs) :
    S.Reach good s (S.after s inputs) := by
  induction inputs generalizing s with
  | nil => exact .refl
  | cons i inputs ih =>
    obtain ⟨hlegal, hgood, hrest⟩ := h
    exact .head ⟨i, hlegal, hgood, rfl⟩ (ih hrest)

/-- Steps that may fail: where none does as long as `P` holds and all of them
    preserve `P`, the run goes through and ends with `P`. -/
theorem foldlM_invariant {f : σ → ι → Option σ} {P : σ → Prop} {ok : ι → Prop}
    (hstep : ∀ {s i}, P s → ok i → ∃ s', f s i = some s' ∧ P s') {inputs : List ι}
    (hok : ∀ i ∈ inputs, ok i) (h : P s) : ∃ s', inputs.foldlM f s = some s' ∧ P s' := by
  induction inputs generalizing s with
  | nil => exact ⟨s, rfl, h⟩
  | cons i inputs ih =>
    obtain ⟨s₁, hs₁, h₁⟩ := hstep h (hok i List.mem_cons_self)
    obtain ⟨s', hs', h'⟩ := ih (fun j hj => hok j (List.mem_cons_of_mem i hj)) h₁
    refine ⟨s', ?_, h'⟩
    rw [List.foldlM_cons, hs₁]
    exact hs'

/-! ## Observers -/

/-- The system with a record that `record` keeps of its states and inputs. -/
def observed (S : System σ ι) (record : σ → ι → γ → γ) : System (σ × γ) ι where
  legal s i := S.legal s.1 i
  next s i := (S.next s.1 i, record s.1 i s.2)

end System

end Pro5Android.Lib
