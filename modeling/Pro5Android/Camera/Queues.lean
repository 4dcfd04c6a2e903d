import Pro5Android.Lib.Ring
import Pro5Android.Lib.Transducer

/-!
# The pending queues of the camera translator

The three circular queues of `camera_m86_module.cpp` (lines 99–110) and the five
functions that insert into them and remove from them (lines 692–791), each one
critical section under `pending_lock`. An array is read and written at any index, and
heads and counts are `uint32_t`: that they stay in range is proved, not built in.
Requests are of any two types, whose default value is the record of zero bytes that
`memset` leaves. The flushing flag, which `m86_device_flush` sets and clears under the
same lock, may change between any two operations.

Results:
* `Circular.Holds.insert`, `Circular.Holds.remove`, `Circular.Holds.first`: in range,
  the array operations are those of `Lib.Ring`.
* `Refines.step`, `fifoRefinement`: the three queues refine three bounded lists.
* `pendingQueues_fifo`: the bounds, the refusals and the order of the requests in every
  run.
* `takes_what_was_begun`: the capture that was begun is the next one taken.
-/

namespace Pro5Android.Camera

open Lib

/-- `M86_MAX_PENDING_PREVIEW_REQUESTS`, for the preview and the video queue. -/
def maxPendingPreviewRequests : ℕ := 16

/-- `M86_MAX_PENDING_JPEG_REQUESTS`. -/
def maxPendingJpegRequests : ℕ := 8

/-! ## Circular arrays -/

/-- An array with the head and the count of the queue in it. -/
structure Circular (α : Type*) where
  slots : ℕ → α
  head : ℕ
  count : ℕ

namespace Circular

variable {α : Type*}

/-- The array of zero bytes. -/
def zeroed [Inhabited α] : Circular α := ⟨fun _ => default, 0, 0⟩

/-- Lines 702–709: write behind the last request unless the array is full. -/
def insert (capacity : ℕ) (q : Circular α) (request : α) : Option (Circular α) :=
  if q.count < capacity then
    let tail := (q.head + q.count) % 2 ^ 32 % capacity
    some ⟨Function.update q.slots tail request, q.head, (q.count + 1) % 2 ^ 32⟩
  else none

/-- Lines 725–731: read the request at the head and clear its slot. -/
def remove [Inhabited α] (capacity : ℕ) (q : Circular α) : Option (α × Circular α) :=
  if q.count > 0 then
    some (q.slots q.head, ⟨Function.update q.slots q.head default,
      (q.head + 1) % 2 ^ 32 % capacity, q.count - 1⟩)
  else none

/-- The request at the head, which stays. -/
def first (q : Circular α) : Option α :=
  if q.count > 0 then some (q.slots q.head) else none

/-- The queued requests, head first. -/
def contents (capacity : ℕ) (q : Circular α) : List α :=
  (List.range q.count).map fun i => q.slots ((q.head + i) % capacity)

/-- The head is an index of the array, and no more requests are queued than fit. -/
structure InBounds (capacity : ℕ) (q : Circular α) : Prop where
  head_lt : q.head < capacity
  count_le : q.count ≤ capacity

/-- The queue is in bounds and holds a list of requests. -/
structure Holds (capacity : ℕ) (q : Circular α) (l : List α) : Prop where
  inBounds : q.InBounds capacity
  contents_eq : q.contents capacity = l

/-! ### The queue as a ring -/

/-- An array in bounds is a ring. -/
def toRing {capacity : ℕ} (q : Circular α) (h : q.InBounds capacity) : Ring α capacity :=
  ⟨fun i => q.slots i, ⟨q.head, h.head_lt⟩, q.count, h.count_le⟩

variable {capacity : ℕ} {q : Circular α} {l : List α}

theorem toList_toRing (h : q.InBounds capacity) : (q.toRing h).toList = q.contents capacity := rfl

theorem length_contents : (q.contents capacity).length = q.count := by
  rw [contents, List.length_map, List.length_range]

theorem Holds.length_eq (h : q.Holds capacity l) : l.length = q.count := by
  rw [← h.contents_eq, length_contents]

theorem holds_zeroed [Inhabited α] (h : 0 < capacity) : (zeroed : Circular α).Holds capacity [] :=
  ⟨⟨h, Nat.zero_le _⟩, rfl⟩

/-- The array written at the tail, as a ring. -/
theorem insert_eq (hcap : 2 * capacity ≤ 2 ^ 32) (h : q.InBounds capacity) (x : α)
    (hlt : q.count < capacity) :
    ∃ q', q.insert capacity x = some q' ∧
      ∃ h' : q'.InBounds capacity, (q.toRing h).enqueue? x = some (q'.toRing h') := by
  have hhead := h.head_lt
  have htail : (q.head + q.count) % 2 ^ 32 = q.head + q.count := Nat.mod_eq_of_lt (by omega)
  have hcount : (q.count + 1) % 2 ^ 32 = q.count + 1 := Nat.mod_eq_of_lt (by omega)
  refine ⟨_, if_pos hlt, ⟨hhead, by rw [hcount]; exact hlt⟩, ?_⟩
  refine (dif_pos hlt).trans (congrArg some ?_)
  -- a write at an index of the array is a write in the slots of the ring
  have hslots := Function.update_comp_eq_of_injective q.slots (fun _ _ => Fin.ext)
    ((q.toRing h).slot q.count) x
  simp only [toRing, Ring.mk.injEq, hcount, htail, and_true]
  exact hslots.symm

/-- The array cleared at the head, as a ring. -/
theorem remove_eq [Inhabited α] (hcap : 2 * capacity ≤ 2 ^ 32) (h : q.InBounds capacity)
    (hpos : 0 < q.count) :
    ∃ q', q.remove capacity = some (q.slots q.head, q') ∧
      ∃ h' : q'.InBounds capacity, (q.toRing h).dequeue? = some (q.slots q.head, q'.toRing h') := by
  have hhead := h.head_lt
  have hcount := h.count_le
  have hnext : (q.head + 1) % 2 ^ 32 = q.head + 1 := Nat.mod_eq_of_lt (by omega)
  refine ⟨_, if_pos hpos, ⟨Nat.mod_lt _ (by omega), by dsimp only; omega⟩, ?_⟩
  refine (if_pos hpos).trans (congrArg (fun r => some (q.slots q.head, r)) ?_)
  have hslots := Function.update_comp_eq_of_injective q.slots (fun _ _ => Fin.ext)
    (q.toRing h).head default
  simp only [toRing, Ring.mk.injEq, Ring.slot, hnext, and_true]
  exact hslots.symm

/-! ### The operations on the queued requests -/

/-- An insertion appends, and is refused when the array is full. -/
theorem Holds.insert (hcap : 2 * capacity ≤ 2 ^ 32) (h : q.Holds capacity l) (x : α) :
    (l.length < capacity ∧ ∃ q', q.insert capacity x = some q' ∧ q'.Holds capacity (l ++ [x])) ∨
      (l.length = capacity ∧ q.insert capacity x = none) := by
  have hle := h.inBounds.count_le
  rw [h.length_eq]
  rcases hle.lt_or_eq with hlt | heq
  · obtain ⟨q', hq', hb, hring⟩ := insert_eq hcap h.inBounds x hlt
    refine Or.inl ⟨hlt, q', hq', hb, ?_⟩
    rw [← toList_toRing hb, Ring.toList_of_enqueue? hring, toList_toRing, h.contents_eq]
  · exact Or.inr ⟨heq, if_neg (by omega)⟩

theorem Holds.insert_eq_none (hcap : 2 * capacity ≤ 2 ^ 32) (h : q.Holds capacity l) {x : α} :
    q.insert capacity x = none ↔ q.count = capacity := by
  rw [← h.length_eq]
  rcases h.insert hcap x with ⟨hlt, q', hq', -⟩ | ⟨hfull, hq'⟩
  · rw [hq']
    exact iff_of_false (Option.some_ne_none _) hlt.ne
  · exact iff_of_true hq' hfull

/-- A removal takes the first request, and fails when there is none. -/
theorem Holds.remove [Inhabited α] (hcap : 2 * capacity ≤ 2 ^ 32) (h : q.Holds capacity l) :
    (∃ x rest q', l = x :: rest ∧ q.remove capacity = some (x, q') ∧ q'.Holds capacity rest) ∨
      (l = [] ∧ q.remove capacity = none) := by
  rcases Nat.eq_zero_or_pos q.count with hzero | hpos
  · refine Or.inr ⟨List.length_eq_zero_iff.mp (h.length_eq.trans hzero), if_neg (by omega)⟩
  · obtain ⟨q', hq', hb, hring⟩ := remove_eq hcap h.inBounds hpos
    refine Or.inl ⟨_, _, q', ?_, hq', hb, rfl⟩
    rw [← h.contents_eq, ← toList_toRing h.inBounds, Ring.toList_of_dequeue? hring, toList_toRing]

/-- The request at the head is the first one. -/
theorem Holds.first (h : q.Holds capacity l) : q.first = l.head? := by
  rw [← h.contents_eq, ← toList_toRing h.inBounds, ← Ring.peek?_eq]
  rfl

end Circular

/-! ## The queues of the device -/

/-- The queue fields of `m86_camera3_device` (lines 101–111). -/
structure PendingQueues (σ γ : Type*) where
  pending : Circular σ
  videoPending : Circular σ
  pendingJpeg : Circular γ
  jpegCaptureActive : Bool
  flushing : Bool

namespace PendingQueues

variable {σ γ : Type*}

/-- The fields in the zeroed device of `m86_device_open` (line 2682). -/
def opened [Inhabited σ] [Inhabited γ] : PendingQueues σ γ :=
  ⟨.zeroed, .zeroed, .zeroed, false, false⟩

/-- The array that `video` selects (lines 699–701). -/
def streamQueue (d : PendingQueues σ γ) (video : Bool) : Circular σ :=
  if video then d.videoPending else d.pending

/-- The fields with that array replaced. -/
def setStreamQueue (d : PendingQueues σ γ) (video : Bool) (q : Circular σ) : PendingQueues σ γ :=
  if video then { d with videoPending := q } else { d with pending := q }

/-- `m86_enqueue_stream_request` (lines 692–713). -/
def enqueueStreamRequest (d : PendingQueues σ γ) (request : σ) (video : Bool) :
    Option (PendingQueues σ γ) :=
  ((d.streamQueue video).insert maxPendingPreviewRequests request).map (d.setStreamQueue video)

/-- `m86_dequeue_stream_request` (lines 715–735). -/
def dequeueStreamRequest [Inhabited σ] (d : PendingQueues σ γ) (video : Bool) :
    Option (σ × PendingQueues σ γ) :=
  ((d.streamQueue video).remove maxPendingPreviewRequests).map fun e =>
    (e.1, d.setStreamQueue video e.2)

/-- `m86_reserve_jpeg_request` (lines 737–755). -/
def reserveJpegRequest (d : PendingQueues σ γ) (request : γ) : Option (PendingQueues σ γ) :=
  if d.flushing then none
  else
    (d.pendingJpeg.insert maxPendingJpegRequests request).map fun q => { d with pendingJpeg := q }

/-- `m86_take_jpeg_request` (lines 757–776). -/
def takeJpegRequest [Inhabited γ] (d : PendingQueues σ γ) : Option (γ × PendingQueues σ γ) :=
  (d.pendingJpeg.remove maxPendingJpegRequests).map fun e =>
    (e.1, { d with pendingJpeg := e.2, jpegCaptureActive := false })

/-- `m86_begin_next_jpeg_request` (lines 778–791). -/
def beginNextJpegRequest (d : PendingQueues σ γ) : Option (γ × PendingQueues σ γ) :=
  if d.flushing || d.jpegCaptureActive then none
  else d.pendingJpeg.first.map fun j => (j, { d with jpegCaptureActive := true })

variable (d : PendingQueues σ γ) (video : Bool) (q : Circular σ)

theorem streamQueue_setStreamQueue (v : Bool) :
    (d.setStreamQueue video q).streamQueue v = if v = video then q else d.streamQueue v := by
  cases v <;> cases video <;> rfl

@[simp] theorem setStreamQueue_pendingJpeg :
    (d.setStreamQueue video q).pendingJpeg = d.pendingJpeg := by
  cases video <;> rfl

@[simp] theorem setStreamQueue_jpegCaptureActive :
    (d.setStreamQueue video q).jpegCaptureActive = d.jpegCaptureActive := by
  cases video <;> rfl

@[simp] theorem setStreamQueue_flushing : (d.setStreamQueue video q).flushing = d.flushing := by
  cases video <;> rfl

theorem beginNextJpegRequest_eq_some {d d' : PendingQueues σ γ} {j : γ}
    (h : d.beginNextJpegRequest = some (j, d')) :
    d.flushing = false ∧ d.jpegCaptureActive = false ∧ d.pendingJpeg.first = some j ∧
      d' = { d with jpegCaptureActive := true } := by
  rw [beginNextJpegRequest] at h
  split_ifs at h with hf
  obtain ⟨hflush, hactive⟩ := Bool.or_eq_false_iff.mp (Bool.eq_false_iff.mpr hf)
  obtain ⟨j', hj, he⟩ := Option.map_eq_some_iff.mp h
  obtain ⟨rfl, rfl⟩ := Prod.mk.inj he
  exact ⟨hflush, hactive, hj, rfl⟩

end PendingQueues

/-! ## Sequences of operations -/

/-- The five functions, and a flush that begins or ends (lines 2627, 2655). -/
inductive QueueOperation (σ γ : Type*)
  | enqueueStream (request : σ) (video : Bool)
  | dequeueStream (video : Bool)
  | reserveJpeg (request : γ)
  | takeJpeg
  | beginNextJpeg
  | setFlushing (flushing : Bool)

/-- What a function reports: `false`, or `true` with the request it wrote out. -/
inductive QueueAnswer (σ γ : Type*)
  | refused
  | done
  | stream (request : σ)
  | jpeg (request : γ)

section

variable {σ γ : Type*}

/-- The three arrays under any sequence of operations. -/
def pendingQueues [Inhabited σ] [Inhabited γ] :
    Transducer (PendingQueues σ γ) (QueueOperation σ γ) (QueueAnswer σ γ) where
  step d
    | .enqueueStream r v =>
      ((d.enqueueStreamRequest r v).map fun d' => (.done, d')).getD (.refused, d)
    | .dequeueStream v =>
      ((d.dequeueStreamRequest v).map fun e => (.stream e.1, e.2)).getD (.refused, d)
    | .reserveJpeg r => ((d.reserveJpegRequest r).map fun d' => (.done, d')).getD (.refused, d)
    | .takeJpeg => (d.takeJpegRequest.map fun e => (.jpeg e.1, e.2)).getD (.refused, d)
    | .beginNextJpeg => (d.beginNextJpegRequest.map fun e => (.jpeg e.1, e.2)).getD (.refused, d)
    | .setFlushing flushing => (.done, { d with flushing := flushing })

/-- What an operation inserted into a stream queue. -/
def insertedStream (video : Bool) : QueueOperation σ γ × QueueAnswer σ γ → List σ
  | (.enqueueStream r v, .done) => if v = video then [r] else []
  | _ => []

/-- What an operation removed from a stream queue. -/
def removedStream (video : Bool) : QueueOperation σ γ × QueueAnswer σ γ → List σ
  | (.dequeueStream v, .stream r) => if v = video then [r] else []
  | _ => []

/-- What an operation inserted into the JPEG queue. -/
def insertedJpeg : QueueOperation σ γ × QueueAnswer σ γ → List γ
  | (.reserveJpeg r, .done) => [r]
  | _ => []

/-- What an operation removed from the JPEG queue; a capture that begins removes nothing. -/
def removedJpeg : QueueOperation σ γ × QueueAnswer σ γ → List γ
  | (.takeJpeg, .jpeg r) => [r]
  | _ => []

/-! ## The bounded lists they refine -/

/-- Three lists of requests, and the two flags. -/
structure Fifos (σ γ : Type*) where
  stream : Bool → List σ
  jpeg : List γ
  jpegCaptureActive : Bool
  flushing : Bool

/-- No requests. -/
def Fifos.opened : Fifos σ γ := ⟨fun _ => [], [], false, false⟩

/-- The operations on the lists: append, take the first, look at the first. -/
def fifos : Transducer (Fifos σ γ) (QueueOperation σ γ) (QueueAnswer σ γ) where
  step f
    | .enqueueStream r v =>
      if (f.stream v).length < maxPendingPreviewRequests then
        (.done, { f with stream := Function.update f.stream v (f.stream v ++ [r]) })
      else (.refused, f)
    | .dequeueStream v =>
      match f.stream v with
      | [] => (.refused, f)
      | r :: rest => (.stream r, { f with stream := Function.update f.stream v rest })
    | .reserveJpeg r =>
      if f.flushing = false ∧ f.jpeg.length < maxPendingJpegRequests then
        (.done, { f with jpeg := f.jpeg ++ [r] })
      else (.refused, f)
    | .takeJpeg =>
      match f.jpeg with
      | [] => (.refused, f)
      | r :: rest => (.jpeg r, { f with jpeg := rest, jpegCaptureActive := false })
    | .beginNextJpeg =>
      if f.flushing || f.jpegCaptureActive then (.refused, f)
      else
        match f.jpeg with
        | [] => (.refused, f)
        | r :: _ => (.jpeg r, { f with jpegCaptureActive := true })
    | .setFlushing flushing => (.done, { f with flushing := flushing })

end

/-! ## Refinement -/

/-- The arrays hold the lists, and the flags agree. -/
structure Refines {σ γ : Type*} (d : PendingQueues σ γ) (f : Fifos σ γ) : Prop where
  stream : ∀ video, (d.streamQueue video).Holds maxPendingPreviewRequests (f.stream video)
  jpeg : d.pendingJpeg.Holds maxPendingJpegRequests f.jpeg
  jpegCaptureActive : d.jpegCaptureActive = f.jpegCaptureActive
  flushing : d.flushing = f.flushing

section

variable {σ γ : Type*} [Inhabited σ] [Inhabited γ]

theorem refines_opened : Refines (PendingQueues.opened : PendingQueues σ γ) Fifos.opened where
  stream video := by cases video <;> exact Circular.holds_zeroed (by decide)
  jpeg := Circular.holds_zeroed (by decide)
  jpegCaptureActive := rfl
  flushing := rfl

/-- The answers agree, and the states after them are still related. -/
def Agree (x : QueueAnswer σ γ × PendingQueues σ γ) (y : QueueAnswer σ γ × Fifos σ γ) : Prop :=
  x.1 = y.1 ∧ Refines x.2 y.2

namespace Refines

variable {d : PendingQueues σ γ} {f : Fifos σ γ}

omit [Inhabited σ] [Inhabited γ] in
/-- A stream queue and its list may be replaced together. -/
theorem setStreamQueue (h : Refines d f) {video : Bool} {q : Circular σ} {l : List σ}
    (hq : q.Holds maxPendingPreviewRequests l) :
    Refines (d.setStreamQueue video q) { f with stream := Function.update f.stream video l } where
  stream v := by
    rw [PendingQueues.streamQueue_setStreamQueue]
    dsimp only
    rw [Function.update_apply]
    split_ifs
    · exact hq
    · exact h.stream v
  jpeg := by rw [PendingQueues.setStreamQueue_pendingJpeg]; exact h.jpeg
  jpegCaptureActive := by
    rw [PendingQueues.setStreamQueue_jpegCaptureActive]; exact h.jpegCaptureActive
  flushing := by rw [PendingQueues.setStreamQueue_flushing]; exact h.flushing

theorem enqueueStream (h : Refines d f) (r : σ) (v : Bool) :
    Agree (pendingQueues.step d (.enqueueStream r v)) (fifos.step f (.enqueueStream r v)) := by
  simp only [pendingQueues, fifos, PendingQueues.enqueueStreamRequest]
  rcases (h.stream v).insert (by decide) r with ⟨hlt, q', hq', hholds⟩ | ⟨hfull, hq'⟩
  · rw [hq', if_pos hlt]
    exact ⟨rfl, h.setStreamQueue hholds⟩
  · rw [hq', if_neg hfull.not_lt]
    exact ⟨rfl, h⟩

theorem dequeueStream (h : Refines d f) (v : Bool) :
    Agree (pendingQueues.step d (.dequeueStream v)) (fifos.step f (.dequeueStream v)) := by
  simp only [pendingQueues, fifos, PendingQueues.dequeueStreamRequest]
  rcases (h.stream v).remove (by decide) with ⟨r, rest, q', hl, hq', hholds⟩ | ⟨hl, hq'⟩
  · rw [hq', hl]
    exact ⟨rfl, h.setStreamQueue hholds⟩
  · rw [hq', hl]
    exact ⟨rfl, h⟩

theorem reserveJpeg (h : Refines d f) (r : γ) :
    Agree (pendingQueues.step d (.reserveJpeg r)) (fifos.step f (.reserveJpeg r)) := by
  simp only [pendingQueues, fifos, PendingQueues.reserveJpegRequest]
  have hd := h.flushing
  by_cases hf : f.flushing = true
  · rw [if_pos (hd.trans hf), if_neg fun hand => Bool.false_ne_true (hand.1.symm.trans hf)]
    exact ⟨rfl, h⟩
  · have hf' : f.flushing = false := Bool.eq_false_iff.mpr hf
    rw [if_neg (hd ▸ hf)]
    rcases h.jpeg.insert (by decide) r with ⟨hlt, q', hq', hholds⟩ | ⟨hfull, hq'⟩
    · rw [hq', if_pos ⟨hf', hlt⟩]
      exact ⟨rfl, h.stream, hholds, h.jpegCaptureActive, h.flushing⟩
    · rw [hq', if_neg fun hand => hfull.not_lt hand.2]
      exact ⟨rfl, h⟩

theorem takeJpeg (h : Refines d f) :
    Agree (pendingQueues.step d .takeJpeg) (fifos.step f .takeJpeg) := by
  simp only [pendingQueues, fifos, PendingQueues.takeJpegRequest]
  rcases h.jpeg.remove (by decide) with ⟨r, rest, q', hl, hq', hholds⟩ | ⟨hl, hq'⟩
  · rw [hq', hl]
    exact ⟨rfl, h.stream, hholds, rfl, h.flushing⟩
  · rw [hq', hl]
    exact ⟨rfl, h⟩

theorem beginNextJpeg (h : Refines d f) :
    Agree (pendingQueues.step d .beginNextJpeg) (fifos.step f .beginNextJpeg) := by
  simp only [pendingQueues, fifos, PendingQueues.beginNextJpegRequest, h.flushing,
    h.jpegCaptureActive, h.jpeg.first]
  split_ifs
  · exact ⟨rfl, h⟩
  · cases hl : f.jpeg with
    | nil => exact ⟨rfl, h⟩
    | cons r rest =>
      have hjpeg := h.jpeg
      rw [hl] at hjpeg
      exact ⟨rfl, h.stream, hjpeg, rfl, rfl⟩

/-- Every operation keeps the relation. -/
theorem step (h : Refines d f) (op : QueueOperation σ γ) :
    Agree (pendingQueues.step d op) (fifos.step f op) := by
  cases op with
  | enqueueStream r v => exact h.enqueueStream r v
  | dequeueStream v => exact h.dequeueStream v
  | reserveJpeg r => exact h.reserveJpeg r
  | takeJpeg => exact h.takeJpeg
  | beginNextJpeg => exact h.beginNextJpeg
  | setFlushing b => exact ⟨rfl, h.stream, h.jpeg, h.jpegCaptureActive, rfl⟩

end Refines

/-- The arrays refine the lists. -/
def fifoRefinement :
    (pendingQueues : Transducer (PendingQueues σ γ) _ _).Refinement
      (fifos : Transducer (Fifos σ γ) _ _) where
  rel := Refines
  answer_eq h op := (h.step op).1
  rel_next h op := (h.step op).2

end

/-! ## Order -/

section

variable {σ γ : Type*}

/-- A stream list as a queue. -/
def streamFifo (video : Bool) :
    (fifos : Transducer (Fifos σ γ) (QueueOperation σ γ) (QueueAnswer σ γ)).ObservedQueue σ where
  events f := f.stream video
  inserted := insertedStream video
  removed := removedStream video
  conserved f op := by
    cases op with
    | enqueueStream r v =>
      simp only [fifos]
      split_ifs with hlt
      · by_cases hv : v = video
        · simp [insertedStream, removedStream, hv]
        · simp [insertedStream, removedStream, hv, Function.update_of_ne (Ne.symm hv)]
      · exact (List.append_nil _).symm
    | dequeueStream v =>
      simp only [fifos]
      cases hl : f.stream v with
      | nil => exact (List.append_nil _).symm
      | cons r rest =>
        by_cases hv : v = video
        · simp [insertedStream, removedStream, ← hv, hl]
        · simp [insertedStream, removedStream, hv, Function.update_of_ne (Ne.symm hv)]
    | reserveJpeg r =>
      simp only [fifos]
      split_ifs <;> exact (List.append_nil _).symm
    | takeJpeg =>
      simp only [fifos]
      cases f.jpeg <;> exact (List.append_nil _).symm
    | beginNextJpeg =>
      simp only [fifos]
      split_ifs
      · exact (List.append_nil _).symm
      · cases f.jpeg <;> exact (List.append_nil _).symm
    | setFlushing b => exact (List.append_nil _).symm

/-- The JPEG list as a queue. -/
def jpegFifo :
    (fifos : Transducer (Fifos σ γ) (QueueOperation σ γ) (QueueAnswer σ γ)).ObservedQueue γ where
  events f := f.jpeg
  inserted := insertedJpeg
  removed := removedJpeg
  conserved f op := by
    cases op with
    | enqueueStream r v =>
      simp only [fifos]
      split_ifs <;> exact (List.append_nil _).symm
    | dequeueStream v =>
      simp only [fifos]
      cases f.stream v <;> exact (List.append_nil _).symm
    | reserveJpeg r =>
      simp only [fifos]
      split_ifs
      · rfl
      · exact (List.append_nil _).symm
    | takeJpeg =>
      simp only [fifos]
      cases hl : f.jpeg with
      | nil => simp [insertedJpeg, removedJpeg, hl]
      | cons r rest => simp [insertedJpeg, removedJpeg]
    | beginNextJpeg =>
      simp only [fifos]
      split_ifs
      · exact (List.append_nil _).symm
      · cases hl : f.jpeg <;> simp [insertedJpeg, removedJpeg, hl]
    | setFlushing b => exact (List.append_nil _).symm

end

section

variable {σ γ : Type*} [Inhabited σ] [Inhabited γ]

/-- In every run of the five functions and of flushes: the answers are those of bounded
    lists; heads and counts are in range; an insertion is refused exactly when the array
    is full or, for a still, during a flush; what was removed followed by what is queued
    is what was inserted; and a capture begins with the request at the head, which stays
    until it is taken. -/
theorem pendingQueues_fifo (ops : List (QueueOperation σ γ)) :
    let d := pendingQueues.after PendingQueues.opened ops
    let trace := pendingQueues.trace PendingQueues.opened ops
    trace = fifos.trace Fifos.opened ops ∧
      (∀ video, (d.streamQueue video).InBounds maxPendingPreviewRequests) ∧
      d.pendingJpeg.InBounds maxPendingJpegRequests ∧
      (∀ video r, d.enqueueStreamRequest r video = none ↔
        (d.streamQueue video).count = maxPendingPreviewRequests) ∧
      (∀ r, d.reserveJpegRequest r = none ↔
        d.flushing = true ∨ d.pendingJpeg.count = maxPendingJpegRequests) ∧
      (∀ video, trace.flatMap (removedStream video) ++
          (d.streamQueue video).contents maxPendingPreviewRequests =
        trace.flatMap (insertedStream video)) ∧
      trace.flatMap removedJpeg ++ d.pendingJpeg.contents maxPendingJpegRequests =
        trace.flatMap insertedJpeg ∧
      ∀ r d', d.beginNextJpegRequest = some (r, d') →
        (d.pendingJpeg.contents maxPendingJpegRequests).head? = some r ∧
          d'.pendingJpeg = d.pendingJpeg := by
  intro d trace
  have hrel : Refines d (fifos.after Fifos.opened ops) :=
    fifoRefinement.rel_after refines_opened ops
  have htrace : trace = fifos.trace Fifos.opened ops := fifoRefinement.trace_eq refines_opened ops
  refine ⟨htrace, fun video => (hrel.stream video).inBounds, hrel.jpeg.inBounds, ?_, ?_, ?_, ?_, ?_⟩
  · intro video r
    rw [PendingQueues.enqueueStreamRequest, Option.map_eq_none_iff]
    exact (hrel.stream video).insert_eq_none (by decide)
  · intro r
    rw [PendingQueues.reserveJpegRequest]
    split_ifs with hf
    · exact iff_of_true rfl (Or.inl hf)
    · rw [Option.map_eq_none_iff, hrel.jpeg.insert_eq_none (by decide)]
      exact (or_iff_right hf).symm
  · intro video
    rw [(hrel.stream video).contents_eq, htrace]
    exact (streamFifo video).removed_append Fifos.opened ops
  · rw [hrel.jpeg.contents_eq, htrace]
    exact jpegFifo.removed_append Fifos.opened ops
  · intro r d' hbegin
    obtain ⟨-, -, hfirst, rfl⟩ := PendingQueues.beginNextJpegRequest_eq_some hbegin
    exact ⟨by rw [hrel.jpeg.contents_eq, ← hrel.jpeg.first]; exact hfirst, rfl⟩

/-! ## Begin and take -/

omit [Inhabited σ] [Inhabited γ] in
/-- Only a take moves the head of the JPEG list. -/
theorem fifos_head_kept {f : Fifos σ γ} {op : QueueOperation σ γ} (hop : op ≠ .takeJpeg) {r : γ}
    (h : f.jpeg.head? = some r) : (fifos.step f op).2.jpeg.head? = some r := by
  cases op with
  | enqueueStream x v =>
    simp only [fifos]
    split_ifs <;> exact h
  | dequeueStream v =>
    simp only [fifos]
    cases f.stream v <;> exact h
  | reserveJpeg x =>
    simp only [fifos]
    split_ifs
    · exact List.mem_head?_append_of_mem_head? h
    · exact h
  | takeJpeg => exact absurd rfl hop
  | beginNextJpeg =>
    simp only [fifos]
    split_ifs
    · exact h
    · cases hl : f.jpeg with
      | nil => exact h
      | cons x rest =>
        rw [hl] at h
        exact h
  | setFlushing b => exact h

omit [Inhabited σ] [Inhabited γ] in
theorem fifos_head_after {f : Fifos σ γ} {ops : List (QueueOperation σ γ)}
    (hops : .takeJpeg ∉ ops) {r : γ} (h : f.jpeg.head? = some r) :
    (fifos.after f ops).jpeg.head? = some r := by
  induction ops generalizing f with
  | nil => exact h
  | cons op ops ih =>
    obtain ⟨hop, hrest⟩ := not_or.mp fun h => hops (List.mem_cons.mpr h)
    exact ih hrest (fifos_head_kept (Ne.symm hop) h)

/-- The still whose capture began is the next one taken, whatever happens in between. -/
theorem takes_what_was_begun {ops later : List (QueueOperation σ γ)} {r : γ}
    {d' : PendingQueues σ γ}
    (hbegin : (pendingQueues.after PendingQueues.opened ops).beginNextJpegRequest = some (r, d'))
    (hlater : .takeJpeg ∉ later) :
    ∃ d'', (pendingQueues.after d' later).takeJpegRequest = some (r, d'') := by
  have hrel : Refines (pendingQueues.after PendingQueues.opened ops)
      (fifos.after Fifos.opened ops) := fifoRefinement.rel_after refines_opened ops
  obtain ⟨-, -, hfirst, rfl⟩ := PendingQueues.beginNextJpegRequest_eq_some hbegin
  have hhead : (fifos.after Fifos.opened ops).jpeg.head? = some r := by
    rw [← hrel.jpeg.first]
    exact hfirst
  -- the capture that began changes no queue
  have hbegun : Refines
      { pendingQueues.after PendingQueues.opened ops with jpegCaptureActive := true }
      { fifos.after Fifos.opened ops with jpegCaptureActive := true } :=
    ⟨hrel.stream, hrel.jpeg, rfl, hrel.flushing⟩
  have hlast := fifoRefinement.rel_after hbegun later
  have hkept := fifos_head_after hlater (f := { fifos.after Fifos.opened ops with
    jpegCaptureActive := true }) hhead
  rcases hlast.jpeg.remove (by decide) with ⟨x, rest, q', hl, hq', -⟩ | ⟨hl, -⟩
  · rw [hl] at hkept
    obtain rfl : x = r := Option.some.inj hkept
    exact ⟨_, by rw [PendingQueues.takeJpegRequest, hq']; rfl⟩
  · rw [hl] at hkept
    cases hkept

end

end Pro5Android.Camera
