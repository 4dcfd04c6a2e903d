import Mathlib.Algebra.Order.BigOperators.Group.List
import Mathlib.Algebra.Order.Group.Nat
import Mathlib.Logic.Relation
import Mathlib.Tactic.Abel

/-!
# Machines of threads with atomic stretches

A machine runs any number of threads over one shared state. A thread is a stack
of activations: the stretch on top runs next, in one atomic step, and may push
further stretches above the rest of its stack and start new threads. The
environment may call into the machine at any time, which starts a thread of its
own; `exec` answers `none` where the stretch on top is blocked. The argument
`good` of a run restricts the steps it may take.

Results:
* `weigh_split`, `weigh_run`, `has_split`, `has_run`: what one step does to the
  total weight of all activations, and to the existence of one of a kind.
* `Reach.weigh_invariant`: a relation between the shared state and the total
  weight that every call and every stretch preserves holds in every run.
* `Reach.every_invariant`: the same for a property of the shared state together
  with one of single activations.
* `reach_of_runAll`: executable runs are runs.
-/

namespace Pro5Android.Lib

/-- What one stretch leaves behind: the shared state, the stretches its thread
    runs next, and the threads it starts. -/
structure Outcome (σ ι : Type*) where
  shared : σ
  push : List ι
  fork : List (List ι)

/-- Calls `κ` into the machine and activations `ι` over a shared state `σ`; a
    stretch reads the environment's answer `α`. -/
structure Machine (σ ι κ α : Type*) where
  enter : σ → κ → Option (σ × List ι)
  exec : ι → α → σ → Option (Outcome σ ι)

/-- The shared state and the stacks of all threads, finished ones included. -/
structure Config (σ ι : Type*) where
  shared : σ
  threads : List (List ι)

namespace Machine

variable {σ ι κ α : Type*}

/-- One step: a call from the environment, or the stretch on top of some stack. -/
inductive Step (M : Machine σ ι κ α) (good : Config σ ι → ι → α → Prop) :
    Config σ ι → Config σ ι → Prop
  | call {s s' : σ} {threads : List (List ι)} {stack : List ι} (k : κ)
      (henter : M.enter s k = some (s', stack)) :
      Step M good ⟨s, threads⟩ ⟨s', threads ++ [stack]⟩
  | run {s : σ} {A B : List (List ι)} {i : ι} {rest : List ι} {o : Outcome σ ι} (x : α)
      (hgood : good ⟨s, A ++ (i :: rest) :: B⟩ i x) (hexec : M.exec i x s = some o) :
      Step M good ⟨s, A ++ (i :: rest) :: B⟩ ⟨o.shared, A ++ (o.push ++ rest) :: B ++ o.fork⟩

/-- The configurations of a run from `c₀` all of whose stretches are `good`. -/
abbrev Reach (M : Machine σ ι κ α) (good : Config σ ι → ι → α → Prop) :
    Config σ ι → Config σ ι → Prop :=
  Relation.ReflTransGen (Step M good)

/-! ## Weights -/

section Weigh

variable {N τ : Type*} [AddCommMonoid N]

/-- The total weight of a list. -/
def weighList (w : τ → N) (l : List τ) : N := (l.map w).sum

section List

variable (w : τ → N)

@[simp] theorem weighList_nil : weighList w [] = 0 := rfl

@[simp] theorem weighList_cons (a : τ) (l : List τ) :
    weighList w (a :: l) = w a + weighList w l := by
  rw [weighList, List.map_cons, List.sum_cons, weighList]

@[simp] theorem weighList_append (l l' : List τ) :
    weighList w (l ++ l') = weighList w l + weighList w l' := by
  rw [weighList, List.map_append, List.sum_append, weighList, weighList]

theorem weighList_eq_zero {l : List τ} (h : ∀ a ∈ l, w a = 0) : weighList w l = 0 := by
  apply List.sum_eq_zero
  intro x hx
  obtain ⟨a, ha, rfl⟩ := List.mem_map.mp hx
  exact h a ha

theorem weighList_perm {l l' : List τ} (h : l.Perm l') : weighList w l = weighList w l' :=
  (h.map w).sum_eq

end List

variable (w : ι → N)

/-- The total weight of all activations of all threads. -/
def weigh (threads : List (List ι)) : N := (threads.map (weighList w)).sum

@[simp] theorem weigh_nil : weigh w [] = 0 := rfl

@[simp] theorem weigh_cons (stack : List ι) (threads : List (List ι)) :
    weigh w (stack :: threads) = weighList w stack + weigh w threads := by
  rw [weigh, List.map_cons, List.sum_cons, weigh]

@[simp] theorem weigh_append (A B : List (List ι)) : weigh w (A ++ B) = weigh w A + weigh w B := by
  rw [weigh, List.map_append, List.sum_append, weigh, weigh]

/-- The weight of the activation about to run, apart from all others. -/
theorem weigh_split (A B : List (List ι)) (i : ι) (rest : List ι) :
    weigh w (A ++ (i :: rest) :: B) = weigh w (A ++ rest :: B) + w i := by
  simp only [weigh_append, weigh_cons, weighList_cons]
  abel

/-- After its step, what it pushed and started stands in its place. -/
theorem weigh_run (A B fork : List (List ι)) (push rest : List ι) :
    weigh w (A ++ (push ++ rest) :: B ++ fork) =
      weigh w (A ++ rest :: B) + (weighList w push + weigh w fork) := by
  simp only [weigh_append, weigh_cons, weighList_append]
  abel

end Weigh

theorem weigh_le {v w : ι → ℕ} (h : ∀ i, v i ≤ w i) (threads : List (List ι)) :
    weigh v threads ≤ weigh w threads :=
  List.sum_le_sum fun _ _ => List.sum_le_sum fun i _ => h i

/-! ## Existence and universality -/

/-- Some thread has an activation with property `p`. -/
def Has (p : ι → Prop) (threads : List (List ι)) : Prop :=
  ∃ stack ∈ threads, ∃ i ∈ stack, p i

/-- Every activation has property `p`. -/
def Every (p : ι → Prop) (threads : List (List ι)) : Prop :=
  ∀ stack ∈ threads, ∀ i ∈ stack, p i

variable {p : ι → Prop}

@[simp] theorem has_nil : Has p [] ↔ False := by
  simp [Has]

@[simp] theorem has_cons (stack : List ι) (threads : List (List ι)) :
    Has p (stack :: threads) ↔ (∃ i ∈ stack, p i) ∨ Has p threads := by
  simp only [Has, List.exists_mem_cons_iff]

theorem has_append (A B : List (List ι)) : Has p (A ++ B) ↔ Has p A ∨ Has p B := by
  simp only [Has, List.mem_append, or_and_right, exists_or]

theorem has_split (A B : List (List ι)) (i : ι) (rest : List ι) :
    Has p (A ++ (i :: rest) :: B) ↔ Has p (A ++ rest :: B) ∨ p i := by
  simp only [has_append, has_cons, List.exists_mem_cons_iff]
  grind

theorem has_run (A B fork : List (List ι)) (push rest : List ι) :
    Has p (A ++ (push ++ rest) :: B ++ fork) ↔
      Has p (A ++ rest :: B) ∨ (∃ i ∈ push, p i) ∨ Has p fork := by
  simp only [has_append, has_cons, List.mem_append, or_and_right, exists_or]
  grind

theorem Has.mono {q : ι → Prop} {threads : List (List ι)} (h : Has p threads)
    (hpq : ∀ i, p i → q i) : Has q threads := by
  obtain ⟨stack, hs, i, hi, hp⟩ := h
  exact ⟨stack, hs, i, hi, hpq i hp⟩

/-- After a step there is still one of the kind: it was not the activation that
    ran, or `C` holds, or what that pushed is one. -/
theorem Has.step {q : ι → Prop} {C : Prop} {A B fork : List (List ι)} {i : ι} {push rest : List ι}
    (h : Has p (A ++ (i :: rest) :: B)) (hkeep : ∀ j, p j → q j)
    (hi : p i → C ∨ ∃ j ∈ push, q j) : C ∨ Has q (A ++ (push ++ rest) :: B ++ fork) := by
  rw [has_run]
  rcases (has_split A B i rest).mp h with hothers | hrun
  · exact .inr (.inl (hothers.mono hkeep))
  · exact (hi hrun).imp id fun hpush => .inr (.inl hpush)

theorem every_iff_not_has : Every p threads ↔ ¬ Has (fun i => ¬ p i) threads := by
  simp only [Every, Has, not_exists, not_and, not_not]

theorem every_split (A B : List (List ι)) (i : ι) (rest : List ι) :
    Every p (A ++ (i :: rest) :: B) ↔ Every p (A ++ rest :: B) ∧ p i := by
  rw [every_iff_not_has, every_iff_not_has, has_split, not_or, not_not]

theorem every_run (A B fork : List (List ι)) (push rest : List ι) :
    Every p (A ++ (push ++ rest) :: B ++ fork) ↔
      Every p (A ++ rest :: B) ∧ (∀ i ∈ push, p i) ∧ Every p fork := by
  simp only [every_iff_not_has, has_run, not_or, not_exists, not_and, not_not]

theorem every_call (threads : List (List ι)) (stack : List ι) :
    Every p (threads ++ [stack]) ↔ Every p threads ∧ ∀ i ∈ stack, p i := by
  simp only [every_iff_not_has, has_append, has_cons, has_nil, or_false, not_or, not_exists,
    not_and, not_not]

theorem Every.mono {q : ι → Prop} {threads : List (List ι)} (h : Every p threads)
    (hpq : ∀ i, p i → q i) : Every q threads :=
  fun stack hs i hi => hpq i (h stack hs i hi)

theorem weigh_eq_zero {N : Type*} [AddCommMonoid N] {w : ι → N} {threads : List (List ι)}
    (h : Every (fun i => w i = 0) threads) : weigh w threads = 0 := by
  apply List.sum_eq_zero
  intro x hx
  obtain ⟨stack, hs, rfl⟩ := List.mem_map.mp hx
  exact weighList_eq_zero w fun i hi => h stack hs i hi

/-! ## Rules for runs -/

variable {M : Machine σ ι κ α} {good : Config σ ι → ι → α → Prop} {c₀ c c' : Config σ ι}

/-- A relation `Φ` between the shared state and the total weight holds along a
    run if every call and every stretch preserves it. -/
theorem Reach.weigh_invariant {N : Type*} [AddCommMonoid N] (w : ι → N) (Φ : σ → N → Prop)
    (h0 : Φ c₀.shared (weigh w c₀.threads))
    (hcall : ∀ {s k s' stack} (T : N), M.enter s k = some (s', stack) → Φ s T →
      Φ s' (T + weighList w stack))
    (hrun : ∀ {s A i rest B x o} (R : N), Reach M good c₀ ⟨s, A ++ (i :: rest) :: B⟩ →
      good ⟨s, A ++ (i :: rest) :: B⟩ i x → M.exec i x s = some o →
      R = weigh w (A ++ rest :: B) → Φ s (R + w i) →
      Φ o.shared (R + (weighList w o.push + weigh w o.fork)))
    (h : Reach M good c₀ c) : Φ c.shared (weigh w c.threads) := by
  induction h with
  | refl => exact h0
  | tail hreach hstep ih =>
    cases hstep with
    | call k henter =>
      have := hcall _ henter ih
      show Φ _ (weigh w (_ ++ [_]))
      rwa [weigh_append, weigh_cons, weigh_nil, add_zero]
    | run x hgood hexec =>
      rw [weigh_split] at ih
      show Φ _ (weigh w (_ ++ _ :: _ ++ _))
      rw [weigh_run]
      exact hrun _ hreach hgood hexec rfl ih

/-- A property `P` of the shared state and a property `L` of single activations
    relative to it hold along a run if every call and every stretch preserves
    both: `L` for the other activations, and for the new ones. -/
theorem Reach.every_invariant (P : σ → Prop) (L : σ → ι → Prop)
    (h0 : P c₀.shared ∧ Every (L c₀.shared) c₀.threads)
    (hcall : ∀ {s k s' stack}, M.enter s k = some (s', stack) → P s →
      P s' ∧ (∀ i, L s i → L s' i) ∧ ∀ i ∈ stack, L s' i)
    (hrun : ∀ {s A i rest B x o}, Reach M good c₀ ⟨s, A ++ (i :: rest) :: B⟩ →
      good ⟨s, A ++ (i :: rest) :: B⟩ i x → M.exec i x s = some o → P s → L s i →
      P o.shared ∧ (∀ j, L s j → L o.shared j) ∧ (∀ j ∈ o.push, L o.shared j) ∧
        Every (L o.shared) o.fork)
    (h : Reach M good c₀ c) : P c.shared ∧ Every (L c.shared) c.threads := by
  induction h with
  | refl => exact h0
  | tail hreach hstep ih =>
    cases hstep with
    | call k henter =>
      obtain ⟨hP, hkeep, hnew⟩ := hcall henter ih.1
      exact ⟨hP, (every_call _ _).mpr ⟨ih.2.mono hkeep, hnew⟩⟩
    | run x hgood hexec =>
      obtain ⟨hothers, hi⟩ := (every_split _ _ _ _).mp ih.2
      obtain ⟨hP, hkeep, hpush, hfork⟩ := hrun hreach hgood hexec ih.1 hi
      exact ⟨hP, (every_run _ _ _ _ _).mpr ⟨hothers.mono hkeep, hpush, hfork⟩⟩

/-- A property of the shared state holds along a run if every call and every
    stretch preserves it. -/
theorem Reach.shared_invariant (P : σ → Prop) (h0 : P c₀.shared)
    (hcall : ∀ {s k s' stack}, M.enter s k = some (s', stack) → P s → P s')
    (hrun : ∀ {s A i rest B x o}, Reach M good c₀ ⟨s, A ++ (i :: rest) :: B⟩ →
      good ⟨s, A ++ (i :: rest) :: B⟩ i x → M.exec i x s = some o → P s → P o.shared)
    (h : Reach M good c₀ c) : P c.shared := by
  induction h with
  | refl => exact h0
  | tail hreach hstep ih =>
    cases hstep with
    | call k henter => exact hcall henter ih
    | run x hgood hexec => exact hrun hreach hgood hexec ih

/-! ## Executable runs -/

/-- What the environment chooses: a call, or which thread runs with which answer. -/
inductive Action (κ α : Type*)
  | call (k : κ)
  | run (thread : ℕ) (x : α)

/-- Any run at all. -/
abbrev AnyStep : Config σ ι → ι → α → Prop := fun _ _ _ => True

variable (M) (ok : Config σ ι → ι → α → Bool)

/-- The step an action takes; `none` where it is not possible, or a stretch does
    not pass `ok`. -/
def act (c : Config σ ι) : Action κ α → Option (Config σ ι)
  | .call k => (M.enter c.shared k).map fun e => ⟨e.1, c.threads ++ [e.2]⟩
  | .run t x =>
    match c.threads.drop t with
    | (i :: rest) :: B =>
      if ok c i x then
        (M.exec i x c.shared).map fun o =>
          ⟨o.shared, c.threads.take t ++ (o.push ++ rest) :: B ++ o.fork⟩
      else none
    | _ => none

/-- The configuration after a list of actions. -/
def runAll : Config σ ι → List (Action κ α) → Option (Config σ ι)
  | c, [] => some c
  | c, a :: acts => (M.act ok c a).bind fun c' => runAll c' acts

variable {M ok}

theorem step_of_act (hok : ∀ c i x, ok c i x = true → good c i x) {a : Action κ α}
    (h : M.act ok c a = some c') : Step M good c c' := by
  cases a with
  | call k =>
    obtain ⟨e, he, rfl⟩ := Option.map_eq_some_iff.mp h
    exact .call k he
  | run t x =>
    rw [act] at h
    split at h
    · next i rest B hdrop =>
      split_ifs at h with hgood
      obtain ⟨o, ho, rfl⟩ := Option.map_eq_some_iff.mp h
      have hsplit : c = ⟨c.shared, c.threads.take t ++ (i :: rest) :: B⟩ := by
        rw [← hdrop, List.take_append_drop]
      have hg := hok _ _ _ hgood
      rw [hsplit] at hg
      have hstep : Step M good ⟨c.shared, c.threads.take t ++ (i :: rest) :: B⟩
          ⟨o.shared, c.threads.take t ++ (o.push ++ rest) :: B ++ o.fork⟩ := .run x hg ho
      rwa [← hsplit] at hstep
    · cases h

/-- Executable runs are runs. -/
theorem reach_of_runAll (hok : ∀ c i x, ok c i x = true → good c i x) {acts : List (Action κ α)}
    (h : M.runAll ok c acts = some c') : Reach M good c c' := by
  induction acts generalizing c with
  | nil =>
    obtain rfl := Option.some.inj h
    exact .refl
  | cons a acts ih =>
    obtain ⟨c₁, h1, h2⟩ := Option.bind_eq_some_iff.mp h
    exact .head (step_of_act hok h1) (ih h2)

variable (M ok)

/-- The configuration after a list of actions; the one before them where they are not
    possible. -/
def after (c : Config σ ι) (acts : List (Action κ α)) : Config σ ι := (M.runAll ok c acts).getD c

variable {M ok}

theorem reach_after (hok : ∀ c i x, ok c i x = true → good c i x) {acts : List (Action κ α)}
    (h : (M.runAll ok c acts).isSome) : Reach M good c (M.after ok c acts) := by
  obtain ⟨c', hc⟩ := Option.isSome_iff_exists.mp h
  rw [after, hc]
  exact reach_of_runAll hok hc

end Machine

end Pro5Android.Lib
