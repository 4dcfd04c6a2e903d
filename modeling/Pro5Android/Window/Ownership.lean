import Pro5Android.Lib.Machine
import Pro5Android.Window.Buffers
import Mathlib.Algebra.Order.Group.Multiset
import Mathlib.Data.Multiset.Filter

/-!
# Who owns the buffers of the preview window

The engine calls the operations of the preview window from any threads, and the start
worker frees the buffers. What runs under the lock of the window is atomic.
`enqueue_buffer` looks for the slot under the lock, delivers the buffer without it, and
clears the busy bit in another stretch (lines 1518–1546).

Beside the window it is kept which slots the engine holds, from `dequeue_buffer` until it
enqueues or cancels them, and which buffers are being delivered. Neither is read by the
code: any setting that changes an allocated parameter frees all the buffers at once.

Results:
* `exec_dequeue_cases`, `exec_lookup_cases`, `exec_cancel_cases`, `exec_set_cases`: what the
  stretches do.
* `described`: the allocated parameters, in every run.
* `owned_exec`: what every stretch preserves.
* `slots_owned`: the runs in which no slot in use is handed out or freed.
* `slots_not_owned`: a run in which it happens.
-/

namespace Pro5Android.Window

open Lib Lib.Machine

/-! ## Threads -/

/-- A slot that is in use, with the handle that is used. -/
structure Loan where
  slot : Slot
  address : Option ℕ
  deriving DecidableEq

/-- What is logged; whether the slot or the buffer is in use then. -/
inductive Event
  | handedOut (slot : Slot) (stride : ℤ) (used : Bool)
  | freed (handle : BufferHandle) (used : Bool)
  | delivered (address : Option ℕ) (timestamp : ℤ)
  | returned (status : ℤ)
  deriving DecidableEq

/-- The window, the slots that the engine holds, those that are being delivered, and the
    log. -/
structure Shared where
  window : PreviewWindow
  held : List Loan
  delivering : List Loan
  log : List Event

/-- A call of the engine; `m86_now_ns` answers `now`. The worker starts. -/
inductive Call
  | dequeueBuffer
  | enqueueBuffer (buffer : Option BufferPointer) (now : ℤ)
  | cancelBuffer (buffer : Option BufferPointer)
  | set (setting : Setting)
  | setTimestamp (timestamp : ℤ)
  | startWorker

/-- Where a call is. -/
inductive Activation
  | dequeue
  | lookup (buffer : BufferPointer) (now : ℤ)
  /-- `*buffer` is read again and delivered. -/
  | deliver (loan : Loan) (buffer : BufferPointer) (timestamp : ℤ)
  | finish (loan : Loan)
  | cancel (buffer : BufferPointer)
  | set (setting : Setting)
  | setTimestamp (timestamp : ℤ)
  | reset

namespace Shared

variable (s : Shared)

def loans : List Loan := s.held ++ s.delivering

def returns (status : ℤ) : Shared := { s with log := s.log ++ [.returned status] }

/-- Buffers are freed. -/
def free (w : PreviewWindow) (freed : List BufferHandle) : Shared :=
  { s with
    window := w
    log := s.log ++ freed.map fun handle =>
      .freed handle (s.loans.any fun loan => loan.address = some handle.address) }

/-- `m86_preview_window_alloc_buffers_locked`. -/
def alloc (a : Allocator) : ℤ × Shared :=
  let (err, w, freed) := s.window.allocBuffers a
  (err, s.free w freed)

/-- `dequeue_buffer` after the allocation (lines 1494–1504). -/
def handOut : Shared :=
  match s.window.findFree with
  | none => s.returns enomem
  | some i =>
    { s with
      window := s.window.setBusy i true
      held := ⟨i, s.window.address i⟩ :: s.held
      log := s.log ++ [.handedOut i (s.window.buffers i).stride
        (s.loans.any fun loan => loan.slot = i), .returned 0] }

/-- A call begins: the checks before the lock is taken. -/
def enter : Call → Option (Shared × List Activation)
  | .dequeueBuffer => some (s, [.dequeue])
  | .enqueueBuffer none _ => some (s.returns einval, [])
  | .enqueueBuffer (some buffer) now =>
    if (buffer.read s.window).isNone then some (s.returns einval, [])
    else some (s, [.lookup buffer now])
  | .cancelBuffer none => some (s.returns einval, [])
  | .cancelBuffer (some buffer) =>
    if (buffer.read s.window).isNone then some (s.returns einval, [])
    else some (s, [.cancel buffer])
  | .set setting => some (s, [.set setting])
  | .setTimestamp timestamp => some (s, [.setTimestamp timestamp])
  | .startWorker => some (s, [.reset])

/-- A stretch runs. -/
def exec : Activation → Allocator → Shared → Option (Outcome Shared Activation)
  | .dequeue, a, s =>
    if (s.window.buffers firstSlot).handle.isNone then
      let (err, s) := s.alloc a
      if err ≠ 0 then some ⟨s.returns err, [], []⟩ else some ⟨s.handOut, [], []⟩
    else some ⟨s.handOut, [], []⟩
  | .lookup buffer now, _, s =>
    let address := buffer.read s.window
    match s.window.findIndex address with
    | none => some ⟨s.returns einval, [], []⟩
    | some i =>
      let timestamp := if s.window.lastTimestamp > 0 then s.window.lastTimestamp else now
      some ⟨{ s with
          held := s.held.filter fun loan => loan.slot ≠ i
          delivering := ⟨i, address⟩ :: s.delivering },
        [.deliver ⟨i, address⟩ buffer timestamp], []⟩
  | .deliver loan buffer timestamp, _, s =>
    let address := buffer.read s.window
    some ⟨{ s with
        delivering := ⟨loan.slot, address⟩ :: s.delivering.erase loan
        log := s.log ++ [.delivered address timestamp] },
      [.finish ⟨loan.slot, address⟩], []⟩
  | .finish loan, _, s =>
    some ⟨{ s with
        window := s.window.setBusy loan.slot false
        delivering := s.delivering.erase loan
        log := s.log ++ [.returned 0] }, [], []⟩
  | .cancel buffer, _, s =>
    match s.window.findIndex (buffer.read s.window) with
    | none => some ⟨s.returns einval, [], []⟩
    | some i =>
      some ⟨{ s with
          window := s.window.setBusy i false
          held := s.held.filter fun loan => loan.slot ≠ i
          log := s.log ++ [.returned 0] }, [], []⟩
  | .set setting, a, s =>
    match setting.apply s.window with
    | none => some ⟨s.returns einval, [], []⟩
    | some (w, ready) =>
      let s := { s with window := w }
      if ready then
        let (err, s) := s.alloc a
        some ⟨s.returns err, [], []⟩
      else some ⟨s.returns 0, [], []⟩
  | .setTimestamp timestamp, _, s =>
    let s := { s with window := { s.window with lastTimestamp := timestamp } }
    some ⟨s.returns 0, [], []⟩
  | .reset, _, s => some ⟨s.free s.window.freeBuffers s.window.handles, [], []⟩

/-- The window of a device that is opened. -/
def opened : Shared := ⟨.init, [], [], []⟩

end Shared

/-- The window under the threads of its callers. -/
def windowMachine : Machine Shared Activation Call Allocator := ⟨Shared.enter, Shared.exec⟩

/-! ## Ownership -/

/-- No slot is handed out, and no buffer freed, that is in use. -/
def SafeEvent : Event → Prop
  | .handedOut _ _ used => used = false
  | .freed _ used => used = false
  | _ => True

/-- What a call delivers. -/
def Activation.loan : Activation → Option Loan
  | .deliver loan _ _ => some loan
  | .finish loan => some loan
  | _ => none

/-- Nothing is held or delivered. -/
def Shared.idle (s : Shared) : Bool := s.held.isEmpty && s.delivering.isEmpty

/-- The engine holds what it enqueues or cancels, and the buffers are reallocated, or freed
    by the worker, while nothing is held or delivered. -/
def orderly (c : Config Shared Activation) : Activation → Allocator → Bool
  | .lookup buffer _, _ | .cancel buffer, _ =>
    (c.shared.window.findIndex (buffer.read c.shared.window)).all fun i =>
      c.shared.held.any fun loan => loan.slot = i
  | .set setting, _ =>
    match setting.apply c.shared.window with
    | some (w, true) => w.upToDate || c.shared.idle
    | _ => true
  | .reset, _ => c.shared.idle
  | _, _ => true

/-! ## What a stretch does -/

section

variable {s : Shared} {a : Allocator} {o : Outcome Shared Activation}

/-- A buffer is dequeued: the allocation fails, or a slot is handed out. -/
theorem exec_dequeue_cases (hexec : Shared.exec .dequeue a s = some o) :
    ((s.window.buffers firstSlot).handle = none ∧ ∃ status,
      o = ⟨(s.alloc a).2.returns status, [], []⟩) ∨
    ((s.window.buffers firstSlot).handle = none ∧ o = ⟨(s.alloc a).2.handOut, [], []⟩) ∨
    o = ⟨s.handOut, [], []⟩ := by
  unfold Shared.exec at hexec
  dsimp only at hexec
  split_ifs at hexec with hfirst herror
  · obtain rfl := Option.some.inj hexec
    exact .inl ⟨Option.isNone_iff_eq_none.mp hfirst, _, rfl⟩
  · obtain rfl := Option.some.inj hexec
    exact .inr (.inl ⟨Option.isNone_iff_eq_none.mp hfirst, rfl⟩)
  · obtain rfl := Option.some.inj hexec
    exact .inr (.inr rfl)

/-- A buffer is looked for: it is none of the window, or its delivery begins. -/
theorem exec_lookup_cases {buffer : BufferPointer} {now : ℤ}
    (hexec : Shared.exec (.lookup buffer now) a s = some o) :
    o = ⟨s.returns einval, [], []⟩ ∨
    ∃ i timestamp, s.window.findIndex (buffer.read s.window) = some i ∧
      o = ⟨{ s with
          held := s.held.filter fun loan => loan.slot ≠ i
          delivering := ⟨i, buffer.read s.window⟩ :: s.delivering },
        [.deliver ⟨i, buffer.read s.window⟩ buffer timestamp], []⟩ := by
  unfold Shared.exec at hexec
  dsimp only at hexec
  cases hfound : s.window.findIndex (buffer.read s.window) with
  | none =>
    rw [hfound] at hexec
    exact .inl (Option.some.inj hexec).symm
  | some i =>
    rw [hfound] at hexec
    exact .inr ⟨i, _, rfl, (Option.some.inj hexec).symm⟩

/-- A buffer is cancelled: it is none of the window, or its busy bit is cleared. -/
theorem exec_cancel_cases {buffer : BufferPointer}
    (hexec : Shared.exec (.cancel buffer) a s = some o) :
    o = ⟨s.returns einval, [], []⟩ ∨
    ∃ i, s.window.findIndex (buffer.read s.window) = some i ∧
      o = ⟨{ s with
          window := s.window.setBusy i false
          held := s.held.filter fun loan => loan.slot ≠ i
          log := s.log ++ [.returned 0] }, [], []⟩ := by
  unfold Shared.exec at hexec
  dsimp only at hexec
  cases hfound : s.window.findIndex (buffer.read s.window) with
  | none =>
    rw [hfound] at hexec
    exact .inl (Option.some.inj hexec).symm
  | some i =>
    rw [hfound] at hexec
    exact .inr ⟨i, rfl, (Option.some.inj hexec).symm⟩

/-- A setting is refused, or changes the window, and then the buffers are allocated or
    not. -/
theorem exec_set_cases {setting : Setting} (hexec : Shared.exec (.set setting) a s = some o) :
    o = ⟨s.returns einval, [], []⟩ ∨
    ∃ w, (setting.apply s.window = some (w, false) ∧
        o = ⟨({ s with window := w } : Shared).returns 0, [], []⟩) ∨
      setting.apply s.window = some (w, true) ∧
        ∃ status, o = ⟨(({ s with window := w } : Shared).alloc a).2.returns status, [], []⟩ := by
  unfold Shared.exec at hexec
  dsimp only at hexec
  cases hset : setting.apply s.window with
  | none =>
    rw [hset] at hexec
    exact .inl (Option.some.inj hexec).symm
  | some applied =>
    obtain ⟨w, ready⟩ := applied
    rw [hset] at hexec
    cases ready with
    | false => exact .inr ⟨w, .inl ⟨rfl, (Option.some.inj hexec).symm⟩⟩
    | true => exact .inr ⟨w, .inr ⟨rfl, _, (Option.some.inj hexec).symm⟩⟩

/-! ## What is allocated -/

/-- The settings leave the buffers alone. -/
theorem Setting.apply_eq {setting : Setting} {w w' : PreviewWindow} {ready : Bool}
    (h : setting.apply w = some (w', ready)) :
    w'.buffers = w.buffers ∧ w'.allocatedCount = w.allocatedCount ∧ w'.allocated = w.allocated := by
  cases setting with
  | bufferCount count =>
    unfold Setting.apply PreviewWindow.setBufferCount at h
    dsimp only at h
    split_ifs at h
    obtain rfl := (Prod.mk.inj (Option.some.inj h)).1
    exact ⟨rfl, rfl, rfl⟩
  | buffersGeometry width height format =>
    unfold Setting.apply PreviewWindow.setBuffersGeometry at h
    dsimp only at h
    split_ifs at h
    obtain rfl := (Prod.mk.inj (Option.some.inj h)).1
    exact ⟨rfl, rfl, rfl⟩
  | usage flags =>
    obtain rfl := (Prod.mk.inj (Option.some.inj h)).1
    exact ⟨rfl, rfl, rfl⟩

theorem Setting.described {setting : Setting} {w w' : PreviewWindow} {ready : Bool}
    (h : setting.apply w = some (w', ready)) (hw : w.Described) : w'.Described := by
  obtain ⟨hbuffers, hcount, hallocated⟩ := Setting.apply_eq h
  refine hw.of_handles (fun i => ?_) hcount hallocated
  rw [hbuffers]

/-- The busy bit is no part of a handle. -/
theorem handle_setBusy (w : PreviewWindow) (i j : Slot) (busy : Bool) :
    ((w.setBusy i busy).buffers j).handle = (w.buffers j).handle := by
  unfold PreviewWindow.setBusy
  by_cases h : j = i
  · subst h
    dsimp only
    rw [Function.update_self]
  · dsimp only
    rw [Function.update_of_ne h]

theorem described_setBusy {w : PreviewWindow} (h : w.Described) (i : Slot) (busy : Bool) :
    (w.setBusy i busy).Described :=
  h.of_handles (fun j => handle_setBusy w i j busy) rfl rfl

theorem described_alloc (h : s.window.Described) (a : Allocator) :
    (s.alloc a).2.window.Described :=
  PreviewWindow.described_allocBuffers h a

theorem described_handOut (h : s.window.Described) : s.handOut.window.Described := by
  unfold Shared.handOut
  cases s.window.findFree with
  | none => exact h
  | some i => exact described_setBusy h i true

/-- **Every stretch keeps the description** of what is allocated. -/
theorem described_exec {i : Activation} (hexec : Shared.exec i a s = some o)
    (h : s.window.Described) : o.shared.window.Described := by
  cases i with
  | dequeue =>
    obtain ⟨-, status, rfl⟩ | ⟨-, rfl⟩ | rfl := exec_dequeue_cases hexec
    · exact described_alloc h a
    · exact described_handOut (described_alloc h a)
    · exact described_handOut h
  | lookup buffer now =>
    obtain rfl | ⟨i, timestamp, -, rfl⟩ := exec_lookup_cases hexec
    · exact h
    · exact h
  | cancel buffer =>
    obtain rfl | ⟨i, -, rfl⟩ := exec_cancel_cases hexec
    · exact h
    · exact described_setBusy h i false
  | set setting =>
    obtain rfl | ⟨w, ⟨hset, rfl⟩ | ⟨hset, status, rfl⟩⟩ := exec_set_cases hexec
    · exact h
    · exact Setting.described hset h
    · have hw : ({ s with window := w } : Shared).window.Described := Setting.described hset h
      exact described_alloc hw a
  | finish loan =>
    obtain rfl := Option.some.inj hexec
    exact described_setBusy h loan.slot false
  | reset =>
    obtain rfl := Option.some.inj hexec
    exact s.window.described_freeBuffers
  | deliver loan buffer timestamp =>
    obtain rfl := Option.some.inj hexec
    exact h
  | setTimestamp timestamp =>
    obtain rfl := Option.some.inj hexec
    exact h.of_handles (fun _ => rfl) rfl rfl

/-- A call begins: only the log changes, and nothing is delivered yet. -/
theorem enter_cases {s' : Shared} {call : Call} {stack : List Activation}
    (henter : s.enter call = some (s', stack)) :
    (s' = s ∨ ∃ status, s' = s.returns status) ∧ ∀ j ∈ stack, j.loan = none := by
  have hrefused {stack : List Activation} (h : some (s.returns einval, []) = some (s', stack)) :
      (s' = s ∨ ∃ status, s' = s.returns status) ∧ ∀ j ∈ stack, j.loan = none := by
    obtain ⟨rfl, rfl⟩ := Prod.mk.inj (Option.some.inj h)
    exact ⟨.inr ⟨_, rfl⟩, fun j hj => absurd hj List.not_mem_nil⟩
  have hbegun {i : Activation} {stack : List Activation} (h : some (s, [i]) = some (s', stack))
      (hi : i.loan = none) :
      (s' = s ∨ ∃ status, s' = s.returns status) ∧ ∀ j ∈ stack, j.loan = none := by
    obtain ⟨rfl, rfl⟩ := Prod.mk.inj (Option.some.inj h)
    refine ⟨.inl rfl, fun j hj => ?_⟩
    rwa [List.mem_singleton.mp hj]
  cases call with
  | enqueueBuffer buffer now =>
    cases buffer with
    | none => exact hrefused henter
    | some buffer =>
      rw [Shared.enter] at henter
      split_ifs at henter
      · exact hrefused henter
      · exact hbegun henter rfl
  | cancelBuffer buffer =>
    cases buffer with
    | none => exact hrefused henter
    | some buffer =>
      rw [Shared.enter] at henter
      split_ifs at henter
      · exact hrefused henter
      · exact hbegun henter rfl
  | dequeueBuffer | set setting | setTimestamp timestamp | startWorker =>
    exact hbegun henter rfl

variable {good : Config Shared Activation → Activation → Allocator → Prop}
  {c : Config Shared Activation}

/-- **The allocated parameters** describe the handles in every run. -/
theorem described (h : windowMachine.Reach good ⟨.opened, []⟩ c) :
    c.shared.window.Described := by
  refine h.shared_invariant (fun s => s.window.Described) PreviewWindow.described_init ?_ ?_
  · intro s k s' stack henter hs
    obtain ⟨rfl | ⟨status, rfl⟩, -⟩ := enter_cases henter
    · exact hs
    · exact hs
  · intro s A i rest B x o _ _ hexec hs
    exact described_exec hexec hs

end

/-! ## Runs in order -/

/-- A slot in use is in use once, its buffer is busy and is the one that is used; and the
    log is safe. -/
structure Owned (s : Shared) : Prop where
  described : s.window.Described
  busy : ∀ loan ∈ s.loans, (s.window.buffers loan.slot).busy = true
  address : ∀ loan ∈ s.loans,
    loan.address.isSome = true ∧ s.window.address loan.slot = loan.address
  once : (s.loans.map Loan.slot).Nodup
  safe : ∀ e ∈ s.log, SafeEvent e

/-- The activations deliver what is being delivered, and find it where they read it. -/
structure Delivers (s : Shared) (T : Multiset Activation) : Prop where
  loans : T.filterMap Activation.loan = (s.delivering : Multiset Loan)
  reads : ∀ loan buffer timestamp, .deliver loan buffer timestamp ∈ T →
    buffer.read s.window = loan.address

section

variable {s s' : Shared} {w : PreviewWindow} {T : Multiset Activation}

theorem address_setBusy (w : PreviewWindow) (i j : Slot) (busy : Bool) :
    (w.setBusy i busy).address j = w.address j := by
  unfold PreviewWindow.address
  rw [handle_setBusy]

theorem busy_setBusy_self (w : PreviewWindow) (i : Slot) (busy : Bool) :
    ((w.setBusy i busy).buffers i).busy = busy := by
  unfold PreviewWindow.setBusy
  dsimp only
  rw [Function.update_self]

theorem buffers_setBusy_of_ne {i j : Slot} (busy : Bool) (h : j ≠ i) :
    (w.setBusy i busy).buffers j = w.buffers j :=
  Function.update_of_ne h _ _

/-- A pointer reads what the slots have. -/
theorem read_congr {w' : PreviewWindow} (h : ∀ i, w'.address i = w.address i)
    (buffer : BufferPointer) : buffer.read w' = buffer.read w := by
  cases buffer with
  | slot i => exact h i
  | copy address => rfl

theorem idle_iff : s.idle = true ↔ s.loans = [] := by
  unfold Shared.idle Shared.loans
  rw [Bool.and_eq_true, List.isEmpty_iff, List.isEmpty_iff, List.append_eq_nil_iff]

theorem Delivers.congr (h : Delivers s T) (hdelivering : s'.delivering = s.delivering)
    (haddress : ∀ i, s'.window.address i = s.window.address i) : Delivers s' T := by
  refine ⟨by rw [hdelivering]; exact h.loans, fun loan buffer timestamp hmem => ?_⟩
  rw [read_congr haddress]
  exact h.reads loan buffer timestamp hmem

/-- While nothing is delivered, nothing is read. -/
theorem Delivers.of_idle (h : Delivers s T) (hidle : s.delivering = [])
    (hidle' : s'.delivering = []) : Delivers s' T := by
  have hnone : T.filterMap Activation.loan = 0 := by rw [h.loans, hidle]; rfl
  refine ⟨by rw [hnone, hidle']; rfl, fun loan buffer timestamp hmem => ?_⟩
  have hloan : loan ∈ T.filterMap Activation.loan :=
    (Multiset.mem_filterMap _ _).mpr ⟨_, hmem, rfl⟩
  rw [hnone] at hloan
  exact absurd hloan (Multiset.notMem_zero loan)

theorem Owned.returns (h : Owned s) (status : ℤ) : Owned (s.returns status) := by
  refine ⟨h.described, h.busy, h.address, h.once, fun e he => ?_⟩
  obtain he | he := List.mem_append.mp he
  · exact h.safe e he
  · rw [List.mem_singleton.mp he]
    exact trivial

/-- Buffers are freed while nothing is in use. -/
theorem Owned.free (h : Owned s) (hidle : s.loans = []) (hw : w.Described)
    (freed : List BufferHandle) : Owned (s.free w freed) := by
  have hidle' : (s.free w freed).loans = [] := hidle
  refine ⟨hw, ?_, ?_, ?_, fun e he => ?_⟩
  · rw [hidle']
    exact fun loan hloan => absurd hloan List.not_mem_nil
  · rw [hidle']
    exact fun loan hloan => absurd hloan List.not_mem_nil
  · rw [hidle']
    exact List.nodup_nil
  · obtain he | he := List.mem_append.mp he
    · exact h.safe e he
    · obtain ⟨handle, -, rfl⟩ := List.mem_map.mp he
      rw [hidle]
      rfl

/-- A slot that is not busy is not in use. -/
theorem Owned.slot_ne (h : Owned s) {i : Slot} (hfree : (s.window.buffers i).busy = false) :
    ∀ loan ∈ s.loans, loan.slot ≠ i := by
  rintro loan hloan rfl
  rw [h.busy loan hloan] at hfree
  cases hfree

/-- **A slot is handed out** that is not in use. -/
theorem Owned.handOut (h : Owned s) : Owned s.handOut := by
  unfold Shared.handOut
  cases hfound : s.window.findFree with
  | none => exact h.returns enomem
  | some i =>
    obtain ⟨hhandle, hfree⟩ := PreviewWindow.findFree_eq_some hfound
    have hne := h.slot_ne hfree
    have hunused : (s.loans.any fun loan => loan.slot = i) = false := by
      rw [List.any_eq_false]
      exact fun loan hloan hslot => hne loan hloan (of_decide_eq_true hslot)
    refine ⟨described_setBusy h.described i true, fun loan hloan => ?_, fun loan hloan => ?_, ?_,
      fun e he => ?_⟩
    · obtain rfl | hloan := List.mem_cons.mp hloan
      · exact busy_setBusy_self _ i true
      · show ((s.window.setBusy i true).buffers loan.slot).busy = true
        rw [buffers_setBusy_of_ne true (hne loan hloan)]
        exact h.busy loan hloan
    · show _ ∧ (s.window.setBusy i true).address loan.slot = loan.address
      rw [address_setBusy]
      obtain rfl | hloan := List.mem_cons.mp hloan
      · refine ⟨?_, rfl⟩
        show ((s.window.buffers i).handle.map BufferHandle.address).isSome = true
        rw [Option.isSome_map]
        exact hhandle
      · exact h.address loan hloan
    · show (i :: s.loans.map Loan.slot).Nodup
      refine List.nodup_cons.mpr ⟨fun hmem => ?_, h.once⟩
      obtain ⟨loan, hloan, hslot⟩ := List.mem_map.mp hmem
      exact hne loan hloan hslot
    · obtain he | he := List.mem_append.mp he
      · exact h.safe e he
      · rw [hunused] at he
        simp only [List.mem_cons, List.not_mem_nil, or_false] at he
        obtain rfl | rfl := he
        · exact rfl
        · exact trivial

theorem delivers_handOut (h : Delivers s T) : Delivers s.handOut T := by
  unfold Shared.handOut
  cases s.window.findFree with
  | none => exact h.congr rfl fun i => rfl
  | some i => exact h.congr rfl fun j => address_setBusy s.window i j true

/-- Without a first buffer nothing is in use. -/
theorem Owned.idle_of_first (h : Owned s) (hfirst : (s.window.buffers firstSlot).handle = none) :
    s.loans = [] := by
  refine List.eq_nil_iff_forall_not_mem.mpr fun loan hloan => ?_
  obtain ⟨hsome, haddress⟩ := h.address loan hloan
  rw [← haddress, h.described.none_of_first hfirst] at hsome
  cases hsome

/-- Slots that are in use apart from one that is. -/
theorem Owned.others (h : Owned s) {loan : Loan} {removed loans : List Loan}
    (hperm : (removed ++ loans).Perm s.loans) (hremoved : loan ∈ removed) :
    (loans.map Loan.slot).Nodup ∧
      ∀ other ∈ loans, other ∈ s.loans ∧ other.slot ≠ loan.slot := by
  have honce : ((removed ++ loans).map Loan.slot).Nodup := (hperm.map _).nodup_iff.mpr h.once
  rw [List.map_append, List.nodup_append] at honce
  obtain ⟨-, hloans, hdisjoint⟩ := honce
  refine ⟨hloans, fun other hother => ⟨hperm.subset (List.mem_append_right _ hother), fun heq => ?_⟩⟩
  exact hdisjoint _ (List.mem_map_of_mem hremoved) _ (List.mem_map_of_mem hother) heq.symm

/-- Those apart from a slot that the engine holds. -/
theorem Owned.others_of_held (h : Owned s) {i : Slot}
    (hheld : (s.held.any fun loan => loan.slot = i) = true) :
    (((s.held.filter fun loan => loan.slot ≠ i) ++ s.delivering).map Loan.slot).Nodup ∧
      ∀ other ∈ (s.held.filter fun loan => loan.slot ≠ i) ++ s.delivering,
        other ∈ s.loans ∧ other.slot ≠ i := by
  obtain ⟨loan, hloan, hslot⟩ := List.any_eq_true.mp hheld
  have hslot : loan.slot = i := of_decide_eq_true hslot
  have hperm : ((s.held.filter fun loan => loan.slot = i) ++
      ((s.held.filter fun loan => loan.slot ≠ i) ++ s.delivering)).Perm s.loans := by
    rw [← List.append_assoc]
    refine List.Perm.append_right s.delivering ?_
    have hsplit := List.filter_append_perm (fun loan : Loan => decide (loan.slot = i)) s.held
    simp only [← decide_not] at hsplit
    exact hsplit
  rw [← hslot] at hperm ⊢
  exact h.others hperm (List.mem_filter.mpr ⟨hloan, decide_eq_true rfl⟩)

/-- Those apart from one that is being delivered. -/
theorem Owned.others_of_delivering (h : Owned s) {loan : Loan} (hmem : loan ∈ s.delivering) :
    ((s.held ++ s.delivering.erase loan).map Loan.slot).Nodup ∧
      ∀ other ∈ s.held ++ s.delivering.erase loan,
        other ∈ s.loans ∧ other.slot ≠ loan.slot := by
  have hfront : ([loan] ++ (s.held ++ s.delivering.erase loan)).Perm
      (s.held ++ loan :: s.delivering.erase loan) := by
    rw [List.singleton_append]
    exact List.perm_middle.symm
  have hperm := hfront.trans ((List.perm_cons_erase hmem).symm.append_left s.held)
  exact h.others hperm (List.mem_singleton_self loan)

/-- **The use of a slot ends**, and its busy bit is cleared. -/
theorem Owned.finish (h : Owned s) {i : Slot} {held delivering : List Loan}
    (hothers : ((held ++ delivering).map Loan.slot).Nodup ∧
      ∀ other ∈ held ++ delivering, other ∈ s.loans ∧ other.slot ≠ i) :
    Owned ⟨s.window.setBusy i false, held, delivering, s.log ++ [.returned 0]⟩ := by
  obtain ⟨honce, hothers⟩ := hothers
  refine ⟨described_setBusy h.described i false, fun loan hloan => ?_, fun loan hloan => ?_, honce,
    (h.returns 0).safe⟩
  · obtain ⟨hmem, hne⟩ := hothers loan hloan
    dsimp only
    rw [buffers_setBusy_of_ne false hne]
    exact h.busy loan hmem
  · dsimp only
    rw [address_setBusy]
    exact h.address loan (hothers loan hloan).1

/-- **A slot that the engine holds** is enqueued. -/
theorem Owned.enqueue (h : Owned s) {i : Slot} {address : Option ℕ}
    (hheld : (s.held.any fun loan => loan.slot = i) = true)
    (haddress : s.window.address i = address) :
    Owned { s with
      held := s.held.filter fun loan => loan.slot ≠ i
      delivering := ⟨i, address⟩ :: s.delivering } := by
  obtain ⟨honce, hothers⟩ := h.others_of_held hheld
  obtain ⟨held, hmem, hslot⟩ := List.any_eq_true.mp hheld
  have hslot : held.slot = i := of_decide_eq_true hslot
  have hloans : held ∈ s.loans := List.mem_append_left _ hmem
  have hperm : ((s.held.filter fun loan => loan.slot ≠ i) ++ ⟨i, address⟩ :: s.delivering).Perm
      (⟨i, address⟩ :: ((s.held.filter fun loan => loan.slot ≠ i) ++ s.delivering)) :=
    List.perm_middle
  refine ⟨h.described, fun loan hloan => ?_, fun loan hloan => ?_, ?_, h.safe⟩
  · obtain rfl | hloan := List.mem_cons.mp (hperm.subset hloan)
    · have hbusy := h.busy held hloans
      rwa [hslot] at hbusy
    · exact h.busy loan (hothers loan hloan).1
  · obtain rfl | hloan := List.mem_cons.mp (hperm.subset hloan)
    · have hheldAddress := h.address held hloans
      rw [hslot, haddress] at hheldAddress
      exact ⟨hheldAddress.2 ▸ hheldAddress.1, haddress⟩
    · exact h.address loan (hothers loan hloan).1
  · refine (hperm.map Loan.slot).nodup_iff.mpr (List.nodup_cons.mpr ⟨fun hin => ?_, honce⟩)
    obtain ⟨other, hother, heq⟩ := List.mem_map.mp hin
    exact (hothers other hother).2 heq

/-- The order in which slots are delivered does not matter. -/
theorem Owned.deliver (h : Owned s) {delivering : List Loan} (address : Option ℕ) (timestamp : ℤ)
    (hperm : delivering.Perm s.delivering) :
    Owned { s with delivering := delivering, log := s.log ++ [.delivered address timestamp] } := by
  have hloans : (s.held ++ delivering).Perm s.loans := hperm.append_left s.held
  refine ⟨h.described, fun loan hloan => h.busy loan (hloans.subset hloan),
    fun loan hloan => h.address loan (hloans.subset hloan), (hloans.map _).nodup_iff.mpr h.once,
    fun e he => ?_⟩
  obtain he | he := List.mem_append.mp he
  · exact h.safe e he
  · rw [List.mem_singleton.mp he]
    exact trivial

/-! ### Stretches -/

/-- The activations of all threads. -/
def activation (i : Activation) : Multiset Activation := {i}

/-- An activation that delivers nothing. -/
theorem Delivers.of_none {i : Activation} (h : Delivers s (T + activation i))
    (hi : i.loan = none) : Delivers s T := by
  refine ⟨?_, fun loan buffer timestamp hmem => ?_⟩
  · rw [← h.loans, Multiset.filterMap_add]
    unfold activation
    rw [← Multiset.cons_zero, Multiset.filterMap_cons_none _ _ hi, Multiset.filterMap_zero,
      Multiset.add_zero]
  · exact h.reads loan buffer timestamp (Multiset.mem_add.mpr (.inl hmem))

/-- An activation that delivers a slot in use. -/
theorem Delivers.of_some {i : Activation} {loan : Loan} (h : Delivers s (T + activation i))
    (hi : i.loan = some loan) : loan ∈ s.delivering ∧
      T.filterMap Activation.loan = (s.delivering.erase loan : Multiset Loan) := by
  have hloans : loan ::ₘ T.filterMap Activation.loan = (s.delivering : Multiset Loan) := by
    rw [← h.loans, Multiset.filterMap_add]
    unfold activation
    rw [← Multiset.cons_zero, Multiset.filterMap_cons_some _ _ _ hi, Multiset.filterMap_zero,
      Multiset.add_comm, Multiset.cons_zero, Multiset.singleton_add]
  refine ⟨?_, ?_⟩
  · rw [← Multiset.mem_coe, ← hloans]
    exact Multiset.mem_cons_self _ _
  · rw [← Multiset.coe_erase, ← hloans, Multiset.erase_cons_head]

theorem Delivers.reads_left {i : Activation} (h : Delivers s (T + activation i)) :
    ∀ loan buffer timestamp, .deliver loan buffer timestamp ∈ T →
      buffer.read s.window = loan.address :=
  fun loan buffer timestamp hmem =>
    h.reads loan buffer timestamp (Multiset.mem_add.mpr (.inl hmem))

/-- What a stretch has to leave: it pushes one activation at most, and starts no thread. -/
structure Leaves (R : Multiset Activation) (o : Outcome Shared Activation) : Prop where
  owned : Owned o.shared
  delivers : Delivers o.shared (R + weighList activation o.push)
  fork : o.fork = []

theorem leaves_of_end (howned : Owned s) (hdelivers : Delivers s T) : Leaves T ⟨s, [], []⟩ := by
  refine ⟨howned, ?_, rfl⟩
  show Delivers s (T + 0)
  rwa [Multiset.add_zero]

variable {a : Allocator} {o : Outcome Shared Activation} {threads : List (List Activation)}

/-- An allocation while nothing is in use, or that finds nothing to do. -/
theorem owned_alloc (h : Owned s) (hd : Delivers s T)
    (hidle : s.window.upToDate = true ∨ s.loans = []) :
    Owned (s.alloc a).2 ∧ Delivers (s.alloc a).2 T := by
  obtain hupToDate | hidle := hidle
  · have hsame : s.window.allocBuffers a = (0, s.window, []) := by
      unfold PreviewWindow.allocBuffers
      rw [if_pos hupToDate]
    have halloc : (s.alloc a).2 = s.free s.window [] := by
      unfold Shared.alloc
      rw [hsame]
    rw [halloc]
    refine ⟨⟨h.described, h.busy, h.address, h.once, fun e he => ?_⟩, hd.congr rfl fun i => rfl⟩
    obtain he | he := List.mem_append.mp he
    · exact h.safe e he
    · exact absurd he List.not_mem_nil
  · have hdelivering := (List.append_eq_nil_iff.mp hidle).2
    exact ⟨h.free hidle (PreviewWindow.described_allocBuffers h.described a) _,
      hd.of_idle hdelivering hdelivering⟩

/-- A setting changes nothing that is in use. -/
theorem owned_set (h : Owned s) (hd : Delivers s T) {setting : Setting} {ready : Bool}
    (hset : setting.apply s.window = some (w, ready)) :
    Owned { s with window := w } ∧ Delivers { s with window := w } T := by
  obtain ⟨hbuffers, -⟩ := Setting.apply_eq hset
  have haddress (i : Slot) : w.address i = s.window.address i := by
    unfold PreviewWindow.address
    rw [hbuffers]
  refine ⟨⟨Setting.described hset h.described, fun loan hloan => ?_, fun loan hloan => ?_,
    h.once, h.safe⟩, hd.congr rfl haddress⟩
  · dsimp only
    rw [hbuffers]
    exact h.busy loan hloan
  · dsimp only
    rw [haddress]
    exact h.address loan hloan

/-- **Every stretch of a run in order** keeps the ownership. -/
theorem owned_exec {i : Activation} (hexec : Shared.exec i a s = some o)
    (horderly : orderly ⟨s, threads⟩ i a = true) (h : Owned s)
    (hd : Delivers s (T + activation i)) : Leaves T o := by
  cases i with
  | dequeue =>
    have hd := hd.of_none rfl
    obtain ⟨hfirst, status, rfl⟩ | ⟨hfirst, rfl⟩ | rfl := exec_dequeue_cases hexec
    · obtain ⟨howned, hdelivers⟩ := owned_alloc (a := a) h hd (.inr (h.idle_of_first hfirst))
      exact leaves_of_end (howned.returns _) (hdelivers.congr rfl fun i => rfl)
    · obtain ⟨howned, hdelivers⟩ := owned_alloc (a := a) h hd (.inr (h.idle_of_first hfirst))
      exact leaves_of_end howned.handOut (delivers_handOut hdelivers)
    · exact leaves_of_end h.handOut (delivers_handOut hd)
  | lookup buffer now =>
    have hd := hd.of_none rfl
    obtain rfl | ⟨i, timestamp, hfound, rfl⟩ := exec_lookup_cases hexec
    · exact leaves_of_end (h.returns _) (hd.congr rfl fun i => rfl)
    · unfold orderly at horderly
      dsimp only at horderly
      rw [hfound] at horderly
      have haddress := PreviewWindow.address_of_findIndex hfound
      refine ⟨h.enqueue horderly haddress, ⟨?_, fun loan buffer' timestamp' hmem => ?_⟩, rfl⟩
      · rw [weighList_cons, weighList_nil, add_zero, Multiset.filterMap_add, hd.loans]
        show (s.delivering : Multiset Loan) + {⟨i, buffer.read s.window⟩} = _
        rw [Multiset.add_comm, Multiset.singleton_add]
        rfl
      · rw [weighList_cons, weighList_nil, add_zero, Multiset.mem_add] at hmem
        obtain hmem | hmem := hmem
        · exact hd.reads loan buffer' timestamp' hmem
        · obtain ⟨rfl, rfl, -⟩ := Activation.deliver.inj (Multiset.mem_singleton.mp hmem)
          rfl
  | deliver loan buffer timestamp =>
    obtain rfl := Option.some.inj hexec
    have hread : buffer.read s.window = loan.address := hd.reads loan buffer timestamp
      (Multiset.mem_add.mpr (.inr (Multiset.mem_singleton_self _)))
    obtain ⟨hmem, hloans⟩ := hd.of_some rfl
    rw [hread]
    have hperm : (loan :: s.delivering.erase loan).Perm s.delivering :=
      (List.perm_cons_erase hmem).symm
    refine ⟨h.deliver _ timestamp hperm, ⟨?_, fun other buffer' timestamp' hother => ?_⟩, rfl⟩
    · rw [weighList_cons, weighList_nil, add_zero, Multiset.filterMap_add, hloans]
      show (s.delivering.erase loan : Multiset Loan) + {loan} = _
      rw [Multiset.add_comm, Multiset.singleton_add]
      rfl
    · rw [weighList_cons, weighList_nil, add_zero, Multiset.mem_add] at hother
      obtain hother | hother := hother
      · exact hd.reads_left other buffer' timestamp' hother
      · cases Multiset.mem_singleton.mp hother
  | finish loan =>
    obtain rfl := Option.some.inj hexec
    obtain ⟨hmem, hloans⟩ := hd.of_some rfl
    refine leaves_of_end (h.finish (h.others_of_delivering hmem)) ⟨hloans, ?_⟩
    intro other buffer timestamp hother
    rw [read_congr fun i => address_setBusy s.window loan.slot i false]
    exact hd.reads_left other buffer timestamp hother
  | cancel buffer =>
    have hd := hd.of_none rfl
    obtain rfl | ⟨i, hfound, rfl⟩ := exec_cancel_cases hexec
    · exact leaves_of_end (h.returns _) (hd.congr rfl fun i => rfl)
    · unfold orderly at horderly
      dsimp only at horderly
      rw [hfound] at horderly
      exact leaves_of_end (h.finish (h.others_of_held horderly))
        (hd.congr rfl fun j => address_setBusy s.window i j false)
  | set setting =>
    have hd := hd.of_none rfl
    obtain rfl | ⟨w, ⟨hset, rfl⟩ | ⟨hset, status, rfl⟩⟩ := exec_set_cases hexec
    · exact leaves_of_end (h.returns _) (hd.congr rfl fun i => rfl)
    · obtain ⟨howned, hdelivers⟩ := owned_set h hd hset
      exact leaves_of_end (howned.returns _) (hdelivers.congr rfl fun i => rfl)
    · obtain ⟨howned, hdelivers⟩ := owned_set h hd hset
      unfold orderly at horderly
      dsimp only at horderly
      rw [hset] at horderly
      dsimp only at horderly
      rw [Bool.or_eq_true, idle_iff] at horderly
      obtain ⟨hallocated, hdelivers⟩ := owned_alloc (a := a) howned hdelivers horderly
      exact leaves_of_end (hallocated.returns _) (hdelivers.congr rfl fun i => rfl)
  | setTimestamp timestamp =>
    have hd := hd.of_none rfl
    obtain rfl := Option.some.inj hexec
    refine leaves_of_end ?_ (hd.congr rfl fun i => rfl)
    have howned : Owned { s with window := { s.window with lastTimestamp := timestamp } } :=
      ⟨h.described.of_handles (fun i => rfl) rfl rfl, h.busy, h.address, h.once, h.safe⟩
    exact howned.returns 0
  | reset =>
    have hd := hd.of_none rfl
    have hidle := idle_iff.mp horderly
    have hdelivering := (List.append_eq_nil_iff.mp hidle).2
    obtain rfl := Option.some.inj hexec
    exact leaves_of_end (h.free hidle s.window.described_freeBuffers _)
      (hd.of_idle hdelivering hdelivering)

/-! ### Runs -/

theorem mem_weighList_activation {stack : List Activation} {i : Activation} :
    i ∈ weighList activation stack ↔ i ∈ stack := by
  induction stack with
  | nil => exact iff_of_false (Multiset.notMem_zero i) List.not_mem_nil
  | cons j stack ih =>
    rw [weighList_cons, Multiset.mem_add, ih, List.mem_cons]
    exact or_congr_left Multiset.mem_singleton

/-- A call begins with nothing to deliver. -/
theorem Delivers.call (h : Delivers s T) {stack : List Activation}
    (hstack : ∀ j ∈ stack, j.loan = none) : Delivers s (T + weighList activation stack) := by
  have hnone : (weighList activation stack).filterMap Activation.loan = 0 := by
    refine Multiset.eq_zero_of_forall_notMem fun loan hloan => ?_
    obtain ⟨j, hj, hsome⟩ := (Multiset.mem_filterMap _ _).mp hloan
    rw [hstack j (mem_weighList_activation.mp hj)] at hsome
    cases hsome
  refine ⟨by rw [Multiset.filterMap_add, hnone, Multiset.add_zero, h.loans], ?_⟩
  intro loan buffer timestamp hmem
  obtain hmem | hmem := Multiset.mem_add.mp hmem
  · exact h.reads loan buffer timestamp hmem
  · have hloan := hstack _ (mem_weighList_activation.mp hmem)
    cases hloan

/-- **In a run in order** everything in use is owned. -/
theorem owned {c : Config Shared Activation}
    (h : windowMachine.Reach (fun c i a => orderly c i a = true) ⟨.opened, []⟩ c) :
    Owned c.shared ∧ Delivers c.shared (weigh activation c.threads) := by
  refine h.weigh_invariant activation (fun s T => Owned s ∧ Delivers s T) ?_ ?_ ?_
  · refine ⟨⟨PreviewWindow.described_init, ?_, ?_, List.nodup_nil, ?_⟩, ⟨rfl, ?_⟩⟩
    · exact fun loan hloan => absurd hloan List.not_mem_nil
    · exact fun loan hloan => absurd hloan List.not_mem_nil
    · exact fun e he => absurd he List.not_mem_nil
    · exact fun loan buffer timestamp hmem => absurd hmem (Multiset.notMem_zero _)
  · rintro s k s' stack T henter ⟨howned, hdelivers⟩
    obtain ⟨rfl | ⟨status, rfl⟩, hstack⟩ := enter_cases henter
    · exact ⟨howned, hdelivers.call hstack⟩
    · have hreturned : Delivers (s.returns status) T := hdelivers.congr rfl fun i => rfl
      exact ⟨howned.returns status, hreturned.call hstack⟩
  · rintro s A i rest B a o R _ horderly hexec - ⟨howned, hdelivers⟩
    obtain ⟨howned, hdelivers, hfork⟩ := owned_exec hexec horderly howned hdelivers
    rw [hfork, weigh_nil, add_zero]
    exact ⟨howned, hdelivers⟩

end

/-! ## A setting that changes while a slot is held -/

/-- Every allocation succeeds. -/
def plenty : Allocator where
  answer i := some (i + 1, 640)
  injective i j got got' h h' heq := by
    obtain rfl := Option.some.inj h
    obtain rfl := Option.some.inj h'
    exact Fin.ext (Nat.succ.inj heq)

/-- The usage changes while the engine holds the first slot. -/
def usageWhileHeld : List (Action Call Allocator) :=
  [.call (.set (.buffersGeometry 640 480 yCrCb420Sp)), .run 0 plenty,
    .call .dequeueBuffer, .run 1 plenty, .call (.set (.usage 0x100)), .run 2 plenty,
    .call .dequeueBuffer, .run 3 plenty]

/-- The handle of the first slot. -/
def firstHandle : BufferHandle := ⟨1, ⟨640, 480, yCrCb420Sp, 0x20003⟩⟩

/-- **A buffer that the engine holds is freed**, and its slot is handed out again. -/
theorem slots_not_owned :
    let c := windowMachine.after (fun _ _ _ => true) ⟨.opened, []⟩ usageWhileHeld
    windowMachine.Reach AnyStep ⟨.opened, []⟩ c ∧ .freed firstHandle true ∈ c.shared.log ∧
      .handedOut firstSlot 640 true ∈ c.shared.log ∧ ¬ ∀ e ∈ c.shared.log, SafeEvent e := by
  intro c
  have hfreed : .freed firstHandle true ∈ c.shared.log := by decide
  have hhandedOut : .handedOut firstSlot 640 true ∈ c.shared.log := by decide
  refine ⟨reach_after (fun _ _ _ _ => trivial) rfl, hfreed, hhandedOut, fun hsafe => ?_⟩
  exact absurd (hsafe _ hfreed) Bool.false_ne_true.symm

/-- **The slots of the window**: the allocated parameters describe the handles in every run,
    an allocation that fails leaves none, and in a run in order no slot in use is handed out
    and no buffer in use is freed. -/
theorem slots_owned (c : Config Shared Activation) (w : PreviewWindow) (a : Allocator) :
    (windowMachine.Reach AnyStep ⟨.opened, []⟩ c → c.shared.window.Described) ∧
      ((w.allocBuffers a).1 ≠ 0 → ∀ i, ((w.allocBuffers a).2.1.buffers i).handle = none) ∧
      (windowMachine.Reach (fun c i a => orderly c i a = true) ⟨.opened, []⟩ c →
        ∀ e ∈ c.shared.log, SafeEvent e) :=
  ⟨fun hrun => described hrun, fun hfailed => w.handle_of_failed a hfailed,
    fun hrun => (owned hrun).1.safe⟩

/-- A slot is dequeued and enqueued before the usage changes. -/
def usageInTurn : List (Action Call Allocator) :=
  [.call (.set (.buffersGeometry 640 480 yCrCb420Sp)), .run 0 plenty,
    .call .dequeueBuffer, .run 1 plenty, .call (.enqueueBuffer (some (.slot firstSlot)) 5),
    .run 2 plenty, .run 2 plenty, .run 2 plenty, .call (.set (.usage 0x100)), .run 3 plenty]

theorem slots_owned_in_turn :
    let c := windowMachine.after orderly ⟨.opened, []⟩ usageInTurn
    .freed firstHandle false ∈ c.shared.log ∧ ∀ e ∈ c.shared.log, SafeEvent e := by
  intro c
  have hrun : windowMachine.Reach (fun c i a => orderly c i a = true) ⟨.opened, []⟩ c :=
    reach_after (fun _ _ _ hok => hok) rfl
  exact ⟨by decide, (slots_owned c .init plenty).2.2 hrun⟩

end Pro5Android.Window
