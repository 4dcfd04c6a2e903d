import Pro5Android.Lib.Runs
import Mathlib.Data.List.Infix

/-!
# Queues of a system

A system serves a queue: inputs append events at its end and remove them at its
front. Over a run, what was removed followed by what still waits is what waited at
the start followed by what was appended, so everything that waited has been removed
once as many events have been.

Results:
* `removedAll_append`: events are neither lost nor overtaken.
* `served`: what waits is removed in time.
-/

namespace Pro5Android.Lib

/-- A first-in first-out view of the states of a system. -/
structure Queue {σ ι : Type*} (S : System σ ι) (ε : Type*) where
  events : σ → List ε
  added : σ → ι → List ε
  removed : σ → ι → List ε
  conserved : ∀ {s i}, S.legal s i → removed s i ++ events (S.next s i) = events s ++ added s i

namespace Queue

variable {σ ι ε : Type*} {S : System σ ι} {good : σ → ι → Prop} {s : σ} {inputs : List ι}
variable (Q : Queue S ε)

/-- What a list of inputs appends. -/
def addedAll : σ → List ι → List ε
  | _, [] => []
  | s, i :: inputs => Q.added s i ++ addedAll (S.next s i) inputs

/-- What a list of inputs removes. -/
def removedAll : σ → List ι → List ε
  | _, [] => []
  | s, i :: inputs => Q.removed s i ++ removedAll (S.next s i) inputs

theorem removedAll_append (h : S.Allowed good s inputs) :
    Q.removedAll s inputs ++ Q.events (S.after s inputs) =
      Q.events s ++ Q.addedAll s inputs := by
  induction inputs generalizing s with
  | nil => exact (List.append_nil _).symm
  | cons i inputs ih =>
    obtain ⟨hlegal, -, hrest⟩ := h
    calc Q.removedAll s (i :: inputs) ++ Q.events (S.after s (i :: inputs))
        = Q.removed s i ++ (Q.removedAll (S.next s i) inputs ++
            Q.events (S.after (S.next s i) inputs)) := List.append_assoc _ _ _
      _ = Q.removed s i ++ (Q.events (S.next s i) ++ Q.addedAll (S.next s i) inputs) := by
          rw [ih hrest]
      _ = Q.events s ++ (Q.added s i ++ Q.addedAll (S.next s i) inputs) := by
          rw [← List.append_assoc, Q.conserved hlegal, List.append_assoc]

/-- What waits is removed once as many events have been as wait. -/
theorem served (h : S.Allowed good s inputs)
    (hlen : (Q.events s).length ≤ (Q.removedAll s inputs).length) {e : ε}
    (he : e ∈ Q.events s) : e ∈ Q.removedAll s inputs := by
  have hprefix : Q.events s <+: Q.removedAll s inputs ++ Q.events (S.after s inputs) := by
    rw [Q.removedAll_append h]
    exact List.prefix_append _ _
  exact (List.prefix_of_prefix_length_le hprefix (List.prefix_append _ _) hlen).subset he

end Queue

end Pro5Android.Lib
