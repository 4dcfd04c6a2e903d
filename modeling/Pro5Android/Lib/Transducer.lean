import Pro5Android.Lib.Queue

/-!
# Transducers

A transducer answers every input and moves to another state. One refines another
where a relation between their states is preserved and the answers agree, so that
their traces agree too. What the answers of a trace show to be appended to and
removed from a queue follows the rules of `Lib.Queue`.

Results:
* `Refinement.trace_eq`, `Refinement.rel_after`: a refinement has the same traces
  and stays in the relation.
* `ObservedQueue.removed_append`: along a trace, what was removed followed by what
  waits is what waited at the start followed by what was inserted.
-/

namespace Pro5Android.Lib

/-- An answer and a next state for every state and input. -/
structure Transducer (σ ι ω : Type*) where
  step : σ → ι → ω × σ

namespace Transducer

variable {σ τ ι ω ε : Type*}

/-- The transducer as a system, every input allowed. -/
def system (T : Transducer σ ι ω) : System σ ι where
  legal _ _ := True
  next s i := (T.step s i).2

/-- The state after a list of inputs. -/
def after (T : Transducer σ ι ω) (s : σ) (inputs : List ι) : σ := T.system.after s inputs

/-- The inputs of a run with their answers. -/
def trace (T : Transducer σ ι ω) : σ → List ι → List (ι × ω)
  | _, [] => []
  | s, i :: inputs => (i, (T.step s i).1) :: trace T (T.step s i).2 inputs

theorem allowed (T : Transducer σ ι ω) (s : σ) (inputs : List ι) :
    T.system.Allowed System.AnyInput s inputs := by
  induction inputs generalizing s with
  | nil => trivial
  | cons i inputs ih => exact ⟨trivial, trivial, ih _⟩

/-! ## Refinement -/

/-- A relation that every input preserves and under which the answers agree. -/
structure Refinement (T : Transducer σ ι ω) (U : Transducer τ ι ω) where
  rel : σ → τ → Prop
  answer_eq : ∀ {s t}, rel s t → ∀ i, (T.step s i).1 = (U.step t i).1
  rel_next : ∀ {s t}, rel s t → ∀ i, rel (T.step s i).2 (U.step t i).2

namespace Refinement

variable {T : Transducer σ ι ω} {U : Transducer τ ι ω} (R : T.Refinement U) {s : σ} {t : τ}

theorem trace_eq (h : R.rel s t) (inputs : List ι) : T.trace s inputs = U.trace t inputs := by
  induction inputs generalizing s t with
  | nil => rfl
  | cons i inputs ih => rw [trace, trace, R.answer_eq h i, ih (R.rel_next h i)]

theorem rel_after (h : R.rel s t) (inputs : List ι) :
    R.rel (T.after s inputs) (U.after t inputs) := by
  induction inputs generalizing s t with
  | nil => exact h
  | cons i inputs ih => exact ih (R.rel_next h i)

end Refinement

/-! ## Queues seen through the answers -/

/-- A queue in the states of a transducer, with what an input and its answer say was
    inserted and removed. -/
structure ObservedQueue (T : Transducer σ ι ω) (ε : Type*) where
  events : σ → List ε
  inserted : ι × ω → List ε
  removed : ι × ω → List ε
  conserved : ∀ s i, removed (i, (T.step s i).1) ++ events (T.step s i).2 =
    events s ++ inserted (i, (T.step s i).1)

namespace ObservedQueue

variable {T : Transducer σ ι ω} (Q : T.ObservedQueue ε)

/-- The queue of the system. -/
def toQueue : Queue T.system ε where
  events := Q.events
  added s i := Q.inserted (i, (T.step s i).1)
  removed s i := Q.removed (i, (T.step s i).1)
  conserved := fun {s i} _ => Q.conserved s i

theorem addedAll_eq (s : σ) (inputs : List ι) :
    Q.toQueue.addedAll s inputs = (T.trace s inputs).flatMap Q.inserted := by
  induction inputs generalizing s with
  | nil => rfl
  | cons i inputs ih =>
    rw [Queue.addedAll, ih, trace, List.flatMap_cons]
    rfl

theorem removedAll_eq (s : σ) (inputs : List ι) :
    Q.toQueue.removedAll s inputs = (T.trace s inputs).flatMap Q.removed := by
  induction inputs generalizing s with
  | nil => rfl
  | cons i inputs ih =>
    rw [Queue.removedAll, ih, trace, List.flatMap_cons]
    rfl

theorem removed_append (s : σ) (inputs : List ι) :
    (T.trace s inputs).flatMap Q.removed ++ Q.events (T.after s inputs) =
      Q.events s ++ (T.trace s inputs).flatMap Q.inserted := by
  rw [← Q.removedAll_eq, ← Q.addedAll_eq]
  exact Q.toQueue.removedAll_append (T.allowed s inputs)

end ObservedQueue

end Transducer

end Pro5Android.Lib
