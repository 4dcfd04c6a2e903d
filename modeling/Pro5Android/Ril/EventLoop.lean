import Mathlib.Logic.Relation
import Pro5Android.Ril.WatchTable

/-!
# The event loop of the radio daemon

Model of `ril_event_loop` (`legacy/device-meizu-m86-cm14/libril/ril_event.cpp` lines
343–384) together with the clients of the event module, which call from the callbacks of
the loop or from other threads (`ril.cpp` lines 3603–3617, 3899–3909, 4337–4385,
5096–5122). A call of a client is one step, since it holds the list mutex; what the loop
reads without the mutex is a step each. `select` may return anything at any time.

What holds along every run is `Inv`: the lists and the table are consistent; the armed
timers are those called, pending and in the list, by their deadlines; and what the loop
waits for is up to date unless it is about to be woken.
-/

namespace Pro5Android.Ril

open Lib (Links Circle)

/-! ## States -/

/-- Where the loop is; `since` is the time at which `wait` was calculated. -/
inductive Turn
  | top
  | copied (rfds : ℤ → Bool)
  | first (rfds : ℤ → Bool) (tev : Addr)
  | timed (rfds : ℤ → Bool) (wait : Option Timeval) (since : Timeval)
  | waiting (rfds : ℤ → Bool) (nfds : ℤ) (wait : Option Timeval) (since : Timeval)
  | selected (ready : List ℤ)
  | expired (ready : List ℤ)
  | firing (ev : Addr)
  | returned

/-- A call of a callback, and the deadline its event had. -/
structure Call where
  ev : Addr
  fd : ℤ
  timeout : Timeval

/-- The call of `ev` as its memory says. -/
def callOf (m : Memory) (ev : Addr) : Call := ⟨ev, (m.event ev).fd, (m.event ev).timeout⟩

/-- `known` are the events that were set, `adders` the threads that still have to write to
    the wake-up pipe, which holds `pipe` bytes; `armed` and `called` record the timers
    added and the callbacks called so far. -/
structure State where
  memory : Memory
  turn : Turn
  now : Timeval
  known : Addr → Bool
  pipe : ℕ
  adders : ℕ
  armed : List (Addr × Timeval)
  called : List Call

/-- `s_wakeupfd_event`. -/
def wakeup : Addr := .event 0

/-- What `select` returns. -/
inductive Select
  | ready (fds : List ℤ)
  | interrupted
  | failed

/-- What happens next; `inLoop` says that a callback of the loop is the client. -/
inductive Input
  | tick (now : Timeval)
  | set (inLoop : Bool) (ev : Addr) (fd : ℤ) (persist : Bool)
  | add (inLoop : Bool) (ev : Addr)
  | timer (inLoop : Bool) (ev : Addr) (tv : Timeval)
  | del (inLoop : Bool) (ev : Addr)
  | trigger
  | loop (result : Select)

/-- `eventLoop` up to `ril_event_loop`: the read end of the pipe is watched. -/
def start (memory : Memory) (wakeFd : ℤ) (now : Timeval) : State where
  memory := ril_event_add (ril_event_set (ril_event_init memory) wakeup wakeFd true) wakeup
  turn := .top
  now := now
  known a := decide (a = wakeup)
  pipe := 0
  adders := 0
  armed := []
  called := []

/-! ## Steps -/

/-- `triggerEvLoop` is still to come unless the loop itself is the caller. -/
def State.added (s : State) (inLoop : Bool) : State :=
  if inLoop then s else { s with adders := s.adders + 1 }

section Added

variable (s : State) (inLoop : Bool)

@[simp] theorem State.added_memory : (s.added inLoop).memory = s.memory := by
  cases inLoop <;> rfl

@[simp] theorem State.added_turn : (s.added inLoop).turn = s.turn := by
  cases inLoop <;> rfl

@[simp] theorem State.added_now : (s.added inLoop).now = s.now := by
  cases inLoop <;> rfl

@[simp] theorem State.added_known : (s.added inLoop).known = s.known := by
  cases inLoop <;> rfl

@[simp] theorem State.added_armed : (s.added inLoop).armed = s.armed := by
  cases inLoop <;> rfl

@[simp] theorem State.added_called : (s.added inLoop).called = s.called := by
  cases inLoop <;> rfl

end Added

/-- The call of `ev`; `processWakeupCallback` empties the pipe. -/
def State.call (s : State) (ev : Addr) : State :=
  { s with
    called := s.called ++ [callOf s.memory ev]
    pipe := if ev = wakeup then 0 else s.pipe }

/-- The loop goes on (lines 350–382, 201–212). -/
def State.turnOn (s : State) (fuel : ℕ) (result : Select) : Option State :=
  match s.turn with
  | .top => some { s with turn := .copied s.memory.readFds }
  | .copied rfds =>
    (s.memory.links .timerList).next.map fun tev => { s with turn := .first rfds tev }
  | .first rfds tev =>
    some { s with turn := .timed rfds (calcNextTimeout s.memory tev s.now) s.now }
  | .timed rfds wait since => some { s with turn := .waiting rfds s.memory.nfds wait since }
  | .waiting _ _ _ _ =>
    match result with
    | .ready fds => some { s with turn := .selected fds }
    | .interrupted => some { s with turn := .top }
    | .failed => some { s with turn := .returned }
  | .selected fds =>
    (processTimeouts s.memory fuel s.now).map fun m => { s with memory := m, turn := .expired fds }
  | .expired fds =>
    (processReadReadies s.memory (fun fd => decide (fd ∈ fds)) fds.length).bind fun m =>
      (m.links .pendingList).next.map fun ev => { s with memory := m, turn := .firing ev }
  | .firing ev =>
    if ev = .pendingList then some { s with turn := .top }
    else
      (takePending s.memory ev).map fun r =>
        State.call { s with memory := r.1, turn := .firing r.2 } ev
  | .returned => some s

section TurnOn

variable {s : State} {fuel : ℕ} {result : Select}

theorem State.turnOn_expired {fds : List ℤ} (h : s.turn = .expired fds) :
    s.turnOn fuel result =
      (processReadReadies s.memory (fun fd => decide (fd ∈ fds)) fds.length).bind fun m =>
        (m.links .pendingList).next.map fun ev => { s with memory := m, turn := .firing ev } := by
  rw [State.turnOn.eq_def, h]

theorem State.turnOn_firing {ev : Addr} (h : s.turn = .firing ev) (hev : ev ≠ .pendingList) :
    s.turnOn fuel result = (takePending s.memory ev).map fun r =>
      State.call { s with memory := r.1, turn := .firing r.2 } ev := by
  rw [State.turnOn.eq_def, h]
  exact if_neg hev

end TurnOn

def State.step (s : State) (fuel : ℕ) : Input → Option State
  | .tick now => some { s with now := now }
  | .set _ ev fd persist =>
    some { s with
      memory := ril_event_set s.memory ev fd persist
      known := Function.update s.known ev true }
  | .add inLoop ev => some (State.added { s with memory := ril_event_add s.memory ev } inLoop)
  | .timer inLoop ev tv =>
    (ril_timer_add s.memory fuel s.now ev (some tv)).map fun m =>
      State.added { s with
        memory := m
        armed := s.armed ++ [(ev, (m.event ev).timeout)] } inLoop
  | .del _ ev => some { s with memory := ril_event_del s.memory ev }
  | .trigger => some { s with adders := s.adders - 1, pipe := s.pipe + 1 }
  | .loop result => s.turnOn fuel result

/-! ## Fuel -/

theorem processTimeouts_unique {m m₁ m₂ : Memory} {fuel fuel' : ℕ} {now : Timeval}
    (h : processTimeouts m fuel now = some m₁) (h' : processTimeouts m fuel' now = some m₂) :
    m₁ = m₂ := by
  obtain ⟨tev, htev, hrun⟩ := Option.bind_eq_some_iff.mp h
  obtain ⟨tev', htev', hrun'⟩ := Option.bind_eq_some_iff.mp h'
  obtain rfl := Option.some.inj (htev.symm.trans htev')
  obtain ⟨p, hp, rfl⟩ := Option.map_eq_some_iff.mp hrun
  obtain ⟨q, hq, rfl⟩ := Option.map_eq_some_iff.mp hrun'
  rw [(Lib.Loop.ends_of_run hp).unique (Lib.Loop.ends_of_run hq)]

theorem ril_timer_add_unique {m m₁ m₂ : Memory} {fuel fuel' : ℕ} {now : Timeval} {ev : Addr}
    {tv : Option Timeval} (h : ril_timer_add m fuel now ev tv = some m₁)
    (h' : ril_timer_add m fuel' now ev tv = some m₂) : m₁ = m₂ := by
  cases tv with
  | none => exact Option.some.inj (h.symm.trans h')
  | some tv =>
    obtain ⟨list, hlist, hrun⟩ := Option.bind_eq_some_iff.mp h
    obtain ⟨list', hlist', hrun'⟩ := Option.bind_eq_some_iff.mp h'
    obtain rfl := Option.some.inj (hlist.symm.trans hlist')
    obtain ⟨p, hp, hadd⟩ := Option.bind_eq_some_iff.mp hrun
    obtain ⟨q, hq, hadd'⟩ := Option.bind_eq_some_iff.mp hrun'
    rw [(Lib.Loop.ends_of_run hp).unique (Lib.Loop.ends_of_run hq)] at hadd
    exact Option.some.inj (hadd.symm.trans hadd')

theorem State.turnOn_unique {s s₁ s₂ : State} {fuel fuel' : ℕ} {result : Select}
    (h : s.turnOn fuel result = some s₁) (h' : s.turnOn fuel' result = some s₂) : s₁ = s₂ := by
  rw [State.turnOn.eq_def] at h h'
  cases hturn : s.turn with
  | selected fds =>
    rw [hturn] at h h'
    obtain ⟨m, hm, rfl⟩ := Option.map_eq_some_iff.mp h
    obtain ⟨m', hm', rfl⟩ := Option.map_eq_some_iff.mp h'
    rw [processTimeouts_unique hm hm']
  | _ =>
    rw [hturn] at h h'
    exact Option.some.inj (h.symm.trans h')

/-- The fuel does not matter where it is enough. -/
theorem State.step_unique {s s₁ s₂ : State} {fuel fuel' : ℕ} {i : Input}
    (h : s.step fuel i = some s₁) (h' : s.step fuel' i = some s₂) : s₁ = s₂ := by
  cases i with
  | timer inLoop ev tv =>
    obtain ⟨m, hm, rfl⟩ := Option.map_eq_some_iff.mp h
    obtain ⟨m', hm', rfl⟩ := Option.map_eq_some_iff.mp h'
    rw [ril_timer_add_unique hm hm']
  | loop result => exact State.turnOn_unique h h'
  | _ => exact Option.some.inj (h.symm.trans h')

/-! ## What clients may do -/

/-- Neither in a list nor in the table. -/
def Idle (m : Memory) (ev : Addr) : Prop :=
  (m.links ev).next = none ∧ ∀ i, m.watchTable i ≠ some ev

/-- A client calls from its own thread, or from a callback. -/
def State.Calling (s : State) (inLoop : Bool) : Prop := inLoop = true → ∃ ev, s.turn = .firing ev

/-- What the event module relies on. The clients own their events, except for `wakeup`; what
    was set and is not idle is not set or armed again; only an event that is not watched is
    added, with a descriptor that `select` takes and that is not watched either. The daemon
    keeps to this as long as it has one socket: `processCommandsCallback` (`ril.cpp` line 3996)
    adds `s_listen_event` again whatever socket has closed, so with `SIM_COUNT` 2 it may be
    watched already. -/
def Legal (s : State) : Input → Prop
  | .tick now => s.now ≤ now
  | .set inLoop ev _ _ =>
    s.Calling inLoop ∧ ev ≠ .timerList ∧ ev ≠ .pendingList ∧ ev ≠ wakeup ∧
      (s.known ev = true → Idle s.memory ev)
  | .add inLoop ev =>
    s.Calling inLoop ∧ s.known ev = true ∧ ev ≠ wakeup ∧ (∀ i, s.memory.watchTable i ≠ some ev) ∧
      (0 ≤ (s.memory.event ev).fd ∧ (s.memory.event ev).fd < FD_SETSIZE) ∧
      s.memory.readFds (s.memory.event ev).fd = false
  | .timer inLoop ev tv =>
    s.Calling inLoop ∧ s.known ev = true ∧ ev ≠ wakeup ∧ Idle s.memory ev ∧
      0 ≤ tv.tv_sec ∧ 0 ≤ tv.tv_usec
  | .del inLoop ev => s.Calling inLoop ∧ s.known ev = true ∧ ev ≠ wakeup
  | .trigger => 0 < s.adders
  | .loop _ => True

def Step (good : State → Prop) (s s' : State) : Prop :=
  ∃ i fuel, Legal s i ∧ good s ∧ s.step fuel i = some s'

/-- The states of the runs from `s` all of whose steps are taken in `good` states. -/
abbrev Reach (good : State → Prop) : State → State → Prop := Relation.ReflTransGen (Step good)

abbrev Always : State → Prop := fun _ => True

abbrev Firing : State → Prop := fun s => ∃ ev, s.turn = .firing ev

/-! ## What holds along a run -/

/-- Timers with their deadlines. -/
def entries (m : Memory) (timers : List Addr) : List (Addr × Timeval) :=
  timers.map fun a => (a, (m.event a).timeout)

/-- The timers among the calls. -/
def timerCalls (called : List Call) : List (Addr × Timeval) :=
  (called.filter fun c => c.fd = -1).map fun c => (c.ev, c.timeout)

/-- The timers that have expired: the called ones and those about to be called. -/
def State.past (s : State) (pending : List Addr) : List (Addr × Timeval) :=
  timerCalls s.called ++ entries s.memory (pending.filter fun a => (s.memory.event a).fd = -1)

/-- What is pending is called before the loop waits again. -/
def PendingInv (m : Memory) (pending : List Addr) : Turn → Prop
  | .expired _ => ∀ a ∈ pending, (m.event a).fd = -1
  | .firing ev => ev = pending.head?.getD .pendingList
  | _ => pending = []

/-- The loop is going to be woken. -/
def Notified (s : State) : Prop := 0 < s.adders ∨ 0 < s.pipe

/-- The set for `select` has all that is watched. -/
def Watching (s : State) (wakeFd : ℤ) (rfds : ℤ → Bool) : Prop :=
  rfds wakeFd = true ∧
    (Notified s ∨ ∀ i a, s.memory.watchTable i = some a → rfds (s.memory.event a).fd = true)

/-- The time to wait is that to the first timer. -/
def Timed (s : State) (timers : List Addr) (wait : Option Timeval) (since : Timeval) : Prop :=
  since ≤ s.now ∧
    (Notified s ∨ wait = calcNextTimeout s.memory (timers.head?.getD .timerList) since)

/-- What the loop has read is up to date. -/
def Awake (s : State) (wakeFd : ℤ) (timers : List Addr) : Turn → Prop
  | .copied rfds => Watching s wakeFd rfds
  | .first rfds tev =>
    Watching s wakeFd rfds ∧ (Notified s ∨ tev = timers.head?.getD .timerList)
  | .timed rfds wait since => Watching s wakeFd rfds ∧ Timed s timers wait since
  | .waiting rfds nfds wait since =>
    Watching s wakeFd rfds ∧ Timed s timers wait since ∧ wakeFd < nfds ∧
      (Notified s ∨ ∀ i a, s.memory.watchTable i = some a → (s.memory.event a).fd < nfds)
  | _ => True

structure Inv (wakeFd : ℤ) (s : State) (timers pending : List Addr) : Prop where
  lists : Lists s.memory s.known timers pending
  table : Table s.memory s.known
  wake_slot : ∃ i, s.memory.watchTable i = some wakeup
  wake_fd : (s.memory.event wakeup).fd = wakeFd
  wake_persist : (s.memory.event wakeup).persist = true
  queue : PendingInv s.memory pending s.turn
  conserved : s.armed.Perm (s.past pending ++ entries s.memory timers)
  past_sorted : (s.past pending).Pairwise fun d e => d.2 ≤ e.2
  past_over : ∀ d ∈ s.past pending, d.2 < s.now
  past_first : ∀ d ∈ s.past pending, ∀ a ∈ timers, d.2 ≤ (s.memory.event a).timeout
  awake : Awake s wakeFd timers s.turn

end Pro5Android.Ril
