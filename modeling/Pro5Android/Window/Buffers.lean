import Mathlib.Data.Int.Notation
import Mathlib.Data.List.FinRange
import Mathlib.Logic.Function.Basic
import Mathlib.Tactic.SplitIfs

/-!
# The buffers of the preview window

`m86_preview_window` of `camera_m86_module.cpp` (lines 132–161), and what
`m86_preview_window_alloc_buffers_locked` and its callers (lines 1404–1628) do with it
while they hold its lock. The allocator's answers are given to them.

Results:
* `allocBuffers_cases`, `handle_of_failed`: what an allocation leaves.
* `Described`: the allocated parameters are those of the handles; `described_allocBuffers`.
* `findIndex_slot`: a slot is found by the handle in it.
-/

namespace Pro5Android.Window

/-! ## The window -/

/-- `M86_PREVIEW_WINDOW_MAX_BUFFERS` and `_MIN_BUFFERS`. -/
abbrev maxBuffers : ℕ := 16

def minBuffers : ℕ := 12

def einval : ℤ := -22
def enomem : ℤ := -12

/-- `HAL_PIXEL_FORMAT_YCrCb_420_SP`. -/
def yCrCb420Sp : ℤ := 0x11

/-- `GRALLOC_USAGE_HW_CAMERA_WRITE` and `GRALLOC_USAGE_SW_READ_OFTEN`. -/
def hwCameraWrite : BitVec 64 := 0x20000

def swReadOften : BitVec 64 := 0x3

/-- What a buffer is allocated for. -/
structure Parameters where
  width : ℤ
  height : ℤ
  format : ℤ
  usage : BitVec 64
  deriving DecidableEq

/-- A `buffer_handle_t`, with what it was allocated for. -/
structure BufferHandle where
  address : ℕ
  parameters : Parameters
  deriving DecidableEq

/-- `m86_preview_window_buffer_t`. -/
structure WindowBuffer where
  handle : Option BufferHandle
  stride : ℤ
  busy : Bool

abbrev Slot : Type := Fin maxBuffers

def firstSlot : Slot := ⟨0, by decide⟩

/-- `m86_preview_window_t`; `allocated` has the members `allocated_width` to
    `allocated_usage`. -/
structure PreviewWindow where
  bufferCount : ℤ
  width : ℤ
  height : ℤ
  format : ℤ
  usage : BitVec 32
  allocatedCount : ℤ
  allocated : Parameters
  lastTimestamp : ℤ
  buffers : Slot → WindowBuffer

/-- What `allocate` answers for a slot: the address and the stride of a buffer. Buffers that
    are allocated together have different addresses. -/
structure Allocator where
  answer : Slot → Option (ℕ × ℤ)
  injective : ∀ i j got got', answer i = some got → answer j = some got' → got.1 = got'.1 → i = j

/-- A `buffer_handle_t *`: to the handle of a slot, or to another handle. -/
inductive BufferPointer
  | slot (i : Slot)
  | copy (address : Option ℕ)

namespace PreviewWindow

section

variable (w : PreviewWindow)

/-- The handle of a slot. -/
def address (i : Slot) : Option ℕ := (w.buffers i).handle.map BufferHandle.address

/-- The handles that are not null. -/
def handles : List BufferHandle := (List.finRange maxBuffers).filterMap fun i => (w.buffers i).handle

/-- `m86_preview_window_free_buffers_locked` (lines 1404–1420); it frees `handles`. -/
def freeBuffers : PreviewWindow :=
  { w with
    buffers := fun _ => ⟨none, 0, false⟩
    allocatedCount := 0
    allocated := ⟨0, 0, 0, 0⟩ }

/-- `count` (lines 1424–1433). -/
def count : ℤ :=
  if w.bufferCount < minBuffers then minBuffers
  else if w.bufferCount > maxBuffers then maxBuffers
  else w.bufferCount

/-- What a buffer is to be allocated for (lines 1435–1437, 1453–1455). -/
def requested : Parameters where
  width := w.width
  height := w.height
  format := if w.format ≠ 0 then w.format else yCrCb420Sp
  usage := w.usage.signExtend 64 ||| hwCameraWrite ||| swReadOften

/-- There is nothing to allocate (lines 1438–1445). -/
def upToDate : Bool :=
  w.allocatedCount = w.count ∧ w.allocated = w.requested ∧ (w.buffers firstSlot).handle.isSome

/-- The loop over the slots that are to be allocated (lines 1450–1466), and whether it gets
    to the end. -/
def allocLoop (a : Allocator) (p : Parameters) :
    List Slot → (Slot → WindowBuffer) → Bool × (Slot → WindowBuffer)
  | [], buffers => (true, buffers)
  | i :: slots, buffers =>
    match a.answer i with
    | none => (false, buffers)
    | some (address, stride) =>
      allocLoop a p slots (Function.update buffers i ⟨some ⟨address, p⟩, stride, false⟩)

/-- `m86_preview_window_alloc_buffers_locked` (lines 1422–1475): its result, the window, and
    the handles that it frees. -/
def allocBuffers (a : Allocator) : ℤ × PreviewWindow × List BufferHandle :=
  if w.upToDate then (0, w, [])
  else
    let (done, buffers) := allocLoop a w.requested
      ((List.finRange maxBuffers).filter fun i => (i : ℤ) < w.count) w.freeBuffers.buffers
    let filled := { w.freeBuffers with buffers := buffers }
    if done then
      (0, { filled with allocatedCount := w.count, allocated := w.requested }, w.handles)
    else (enomem, filled.freeBuffers, w.handles ++ filled.handles)

/-- The slot that `dequeue_buffer` hands out (lines 1494–1502). -/
def findFree : Option Slot :=
  (List.finRange maxBuffers).find? fun i => (w.buffers i).handle.isSome && !(w.buffers i).busy

/-- `m86_preview_window_find_index_locked` (lines 1507–1516). -/
def findIndex (address : Option ℕ) : Option Slot :=
  (List.finRange maxBuffers).find? fun i => w.address i = address

def setBusy (i : Slot) (busy : Bool) : PreviewWindow :=
  { w with buffers := Function.update w.buffers i { w.buffers i with busy := busy } }

/-! ### Settings -/

/-- `set_buffer_count` up to the allocation (lines 1571–1577): `none` is refused, and whether
    the buffers are to be allocated. -/
def setBufferCount (count : ℤ) : Option (PreviewWindow × Bool) :=
  if count ≤ 0 then none
  else some ({ w with bufferCount := count }, decide (w.width > 0 ∧ w.height > 0))

/-- `set_buffers_geometry` (lines 1592–1600). -/
def setBuffersGeometry (width height format : ℤ) : Option (PreviewWindow × Bool) :=
  if width ≤ 0 ∨ height ≤ 0 then none
  else
    some ({ w with width := width, height := height, format := format }, decide (w.bufferCount > 0))

/-- `set_usage` (lines 1621–1623). -/
def setUsage (usage : BitVec 32) : Option (PreviewWindow × Bool) :=
  some ({ w with usage := usage },
    decide (w.bufferCount > 0 ∧ w.width > 0 ∧ w.height > 0))

end

end PreviewWindow

/-- A setting of the window. -/
inductive Setting
  | bufferCount (count : ℤ)
  | buffersGeometry (width height format : ℤ)
  | usage (flags : BitVec 32)

def Setting.apply (setting : Setting) (w : PreviewWindow) : Option (PreviewWindow × Bool) :=
  match setting with
  | .bufferCount count => w.setBufferCount count
  | .buffersGeometry width height format => w.setBuffersGeometry width height format
  | .usage flags => w.setUsage flags

/-- `*buffer`. -/
def BufferPointer.read (w : PreviewWindow) : BufferPointer → Option ℕ
  | .slot i => w.address i
  | .copy address => address

/-- `m86_preview_window_init` (lines 1735–1755). -/
def PreviewWindow.init : PreviewWindow where
  bufferCount := 4
  width := 0
  height := 0
  format := yCrCb420Sp
  usage := 0x20003
  allocatedCount := 0
  allocated := ⟨0, 0, 0, 0⟩
  lastTimestamp := 0
  buffers := fun _ => ⟨none, 0, false⟩

/-! ## Allocations -/

namespace PreviewWindow

section

variable {w : PreviewWindow} {a : Allocator} {p : Parameters}

/-- A loop that gets to the end has allocated its slots, and left the others. -/
theorem allocLoop_eq_true {slots : List Slot} {buffers filled : Slot → WindowBuffer}
    (h : allocLoop a p slots buffers = (true, filled)) (i : Slot) :
    (i ∈ slots → ∃ got, a.answer i = some got ∧ filled i = ⟨some ⟨got.1, p⟩, got.2, false⟩) ∧
      (i ∉ slots → filled i = buffers i) := by
  induction slots generalizing buffers with
  | nil =>
    obtain rfl := (Prod.mk.inj h).2
    exact ⟨fun hi => absurd hi List.not_mem_nil, fun _ => rfl⟩
  | cons j slots ih =>
    unfold allocLoop at h
    cases hanswer : a.answer j with
    | none =>
      rw [hanswer] at h
      exact absurd (Prod.mk.inj h).1 Bool.false_ne_true
    | some got =>
      rw [hanswer] at h
      obtain ⟨hin, hout⟩ := ih h
      refine ⟨fun hi => ?_, fun hi => ?_⟩
      · by_cases hlater : i ∈ slots
        · exact hin hlater
        · obtain rfl | hi := List.mem_cons.mp hi
          · refine ⟨got, hanswer, ?_⟩
            rw [hout hlater, Function.update_self]
          · exact absurd hi hlater
      · rw [List.mem_cons, not_or] at hi
        rw [hout hi.2, Function.update_of_ne hi.1]

/-- **An allocation** finds nothing to do, or frees everything; then it fails, or fills the
    slots that are to be allocated. -/
theorem allocBuffers_cases (w : PreviewWindow) (a : Allocator) :
    (w.upToDate = true ∧ w.allocBuffers a = (0, w, [])) ∨
    w.upToDate = false ∧
      ((∃ freed, w.allocBuffers a = (enomem, w.freeBuffers, w.handles ++ freed)) ∨
      ∃ filled : Slot → WindowBuffer,
        w.allocBuffers a =
          (0, { w with buffers := filled, allocatedCount := w.count, allocated := w.requested },
            w.handles) ∧
        ∀ i : Slot, ((i : ℤ) < w.count → ∃ got, a.answer i = some got ∧
            filled i = ⟨some ⟨got.1, w.requested⟩, got.2, false⟩) ∧
          (¬ (i : ℤ) < w.count → filled i = ⟨none, 0, false⟩)) := by
  unfold allocBuffers
  by_cases hupToDate : w.upToDate = true
  · rw [if_pos hupToDate]
    exact .inl ⟨hupToDate, rfl⟩
  · rw [if_neg hupToDate]
    refine .inr ⟨Bool.not_eq_true _ ▸ hupToDate, ?_⟩
    cases hloop : allocLoop a w.requested
        ((List.finRange maxBuffers).filter fun i => (i : ℤ) < w.count) w.freeBuffers.buffers with
    | mk done filled =>
      cases done with
      | false => exact .inl ⟨_, rfl⟩
      | true =>
        refine .inr ⟨filled, rfl, fun i => ?_⟩
        obtain ⟨hin, hout⟩ := allocLoop_eq_true hloop i
        rw [List.mem_filter, decide_eq_true_iff] at hin hout
        exact ⟨fun hi => hin ⟨List.mem_finRange i, hi⟩, fun hi => hout fun hmem => hi hmem.2⟩

/-- **An allocation that fails** leaves no buffer. -/
theorem handle_of_failed (w : PreviewWindow) (a : Allocator) (h : (w.allocBuffers a).1 ≠ 0)
    (i : Slot) : ((w.allocBuffers a).2.1.buffers i).handle = none := by
  obtain ⟨-, heq⟩ | ⟨-, ⟨freed, heq⟩ | ⟨filled, heq, -⟩⟩ := w.allocBuffers_cases a
  · rw [heq] at h
    exact absurd rfl h
  · rw [heq]
    rfl
  · rw [heq] at h
    exact absurd rfl h

end

theorem count_bounds (w : PreviewWindow) : 0 < w.count ∧ w.count ≤ maxBuffers := by
  unfold count minBuffers maxBuffers
  split_ifs
  all_goals omega

/-! ## What is allocated -/

/-- The handles that are not null are those of the first `allocated_count` slots, each
    allocated for the allocated parameters, which are zero where there is none. -/
structure Described (w : PreviewWindow) : Prop where
  nonneg : 0 ≤ w.allocatedCount
  le : w.allocatedCount ≤ maxBuffers
  isSome : ∀ i, (w.buffers i).handle.isSome = true ↔ (i : ℤ) < w.allocatedCount
  parameters : ∀ i h, (w.buffers i).handle = some h → h.parameters = w.allocated
  distinct : ∀ i j address, w.address i = some address → w.address j = some address → i = j
  none_allocated : w.allocatedCount = 0 → w.allocated = ⟨0, 0, 0, 0⟩

section

variable {w w' : PreviewWindow}

theorem described_freeBuffers (w : PreviewWindow) : w.freeBuffers.Described where
  nonneg := Int.le_refl 0
  le := Int.natCast_nonneg maxBuffers
  isSome i := iff_of_false Bool.false_ne_true (Int.not_lt.mpr (Int.natCast_nonneg i))
  parameters i h hi := by cases hi
  distinct i j address hi := by cases hi
  none_allocated _ := rfl

/-- The description is about the handles. -/
theorem Described.of_handles (h : w.Described)
    (hhandles : ∀ i, (w'.buffers i).handle = (w.buffers i).handle)
    (hcount : w'.allocatedCount = w.allocatedCount) (hallocated : w'.allocated = w.allocated) :
    w'.Described := by
  have haddress (i : Slot) : w'.address i = w.address i := by
    unfold address
    rw [hhandles]
  refine ⟨?_, ?_, fun i => ?_, fun i handle => ?_, fun i j a => ?_, ?_⟩
  · rw [hcount]
    exact h.nonneg
  · rw [hcount]
    exact h.le
  · rw [hhandles, hcount]
    exact h.isSome i
  · rw [hhandles, hallocated]
    exact h.parameters i handle
  · rw [haddress, haddress]
    exact h.distinct i j a
  · rw [hcount, hallocated]
    exact h.none_allocated

/-- **An allocation** is described by what it leaves. -/
theorem described_allocBuffers (h : w.Described) (a : Allocator) :
    (w.allocBuffers a).2.1.Described := by
  obtain ⟨-, heq⟩ | ⟨-, ⟨freed, heq⟩ | ⟨filled, heq, hfilled⟩⟩ := w.allocBuffers_cases a
  · rw [heq]
    exact h
  · rw [heq]
    exact w.described_freeBuffers
  · rw [heq]
    obtain ⟨hpos, hle⟩ := w.count_bounds
    have hsome {i : Slot} {handle : BufferHandle} (hi : (filled i).handle = some handle) :
        ∃ got, a.answer i = some got ∧ handle = ⟨got.1, w.requested⟩ := by
      obtain ⟨hin, hout⟩ := hfilled i
      by_cases hlt : (i : ℤ) < w.count
      · obtain ⟨got, hgot, hbuffer⟩ := hin hlt
        rw [hbuffer] at hi
        exact ⟨got, hgot, (Option.some.inj hi).symm⟩
      · rw [hout hlt] at hi
        cases hi
    refine ⟨Int.le_of_lt hpos, hle, fun i => ?_, fun i handle hi => ?_, fun i j x hi hj => ?_,
      fun hzero => ?_⟩
    · obtain ⟨hin, hout⟩ := hfilled i
      by_cases hlt : (i : ℤ) < w.count
      · obtain ⟨got, -, hbuffer⟩ := hin hlt
        refine iff_of_true ?_ hlt
        show (filled i).handle.isSome = true
        rw [hbuffer]
        rfl
      · refine iff_of_false ?_ hlt
        show ¬ (filled i).handle.isSome = true
        rw [hout hlt]
        exact Bool.false_ne_true
    · obtain ⟨got, -, rfl⟩ := hsome hi
      rfl
    · obtain ⟨handle, hhandle, hx⟩ := Option.map_eq_some_iff.mp hi
      obtain ⟨handle', hhandle', hx'⟩ := Option.map_eq_some_iff.mp hj
      obtain ⟨got, hgot, rfl⟩ := hsome hhandle
      obtain ⟨got', hgot', rfl⟩ := hsome hhandle'
      exact a.injective i j got got' hgot hgot' (hx.trans hx'.symm)
    · have hzero : w.count = 0 := hzero
      omega

theorem described_init : init.Described := described_freeBuffers init

/-- Without a first buffer there is none. -/
theorem Described.none_of_first (h : w.Described) (hfirst : (w.buffers firstSlot).handle = none) (i : Slot) :
    w.address i = none := by
  have hnone : ¬ (firstSlot : ℤ) < w.allocatedCount := by
    rw [← h.isSome, hfirst]
    exact Bool.false_ne_true
  have hi : ¬ (w.buffers i).handle.isSome = true := by
    rw [h.isSome]
    have hnonneg : (0 : ℤ) ≤ i := Int.natCast_nonneg i
    have hzero : (firstSlot : ℤ) = 0 := rfl
    omega
  unfold address
  rw [Option.not_isSome_iff_eq_none.mp hi]
  rfl

/-- **A slot is found** by the handle in it. -/
theorem findIndex_slot (h : w.Described) {i : Slot} {x : ℕ} (hi : w.address i = some x) :
    w.findIndex (w.address i) = some i := by
  unfold findIndex
  cases hfound : (List.finRange maxBuffers).find? fun j => w.address j = w.address i with
  | none =>
    have hnot := List.find?_eq_none.mp hfound i (List.mem_finRange i)
    exact absurd (decide_eq_true rfl) hnot
  | some j =>
    have hj := List.find?_some hfound
    rw [decide_eq_true_iff] at hj
    rw [h.distinct j i x (hj.trans hi) hi]

theorem address_of_findIndex {x : Option ℕ} {i : Slot} (h : w.findIndex x = some i) :
    w.address i = x := by
  have hi := List.find?_some h
  rwa [decide_eq_true_iff] at hi

/-- A slot that is handed out has a buffer that is not busy. -/
theorem findFree_eq_some {i : Slot} (h : w.findFree = some i) :
    (w.buffers i).handle.isSome = true ∧ (w.buffers i).busy = false := by
  have hfree := List.find?_some h
  rwa [Bool.and_eq_true, Bool.not_eq_true'] at hfree

end

end PreviewWindow

end Pro5Android.Window
