import Pro5Android.Camera.Device
import Pro5Android.Camera.Queues

/-!
# The queues of the device and their arrays

`Camera.Device` keeps its three pending queues as rings, which cannot leave their range;
`Camera.Queues` has the arrays of the source, with 32-bit heads and counts. In every
sequence of operations the rings are the arrays, and the functions of the device report
what those of the arrays report.

Results:
* `Circular.Backs.insert`, `Circular.Backs.remove`, `Circular.Backs.first`: the array
  operations in range are the ring operations.
* `backing`: the queue functions of the device are simulated by those of the arrays.
* `device_trace_eq`: both give the same trace.
-/

namespace Pro5Android.Camera

open Lib

/-- Related results stay related under related continuations. -/
theorem rel_map {α β α' β' : Type*} {r : α → β → Prop} {s : α' → β' → Prop} {f : α → α'}
    {g : β → β'} {a : Option α} {b : Option β} (h : Option.Rel r a b)
    (hfg : ∀ x y, r x y → s (f x) (g y)) : Option.Rel s (a.map f) (b.map g) := by
  cases h with
  | none => exact .none
  | some hr => exact .some (hfg _ _ hr)

theorem rel_getD {α β : Type*} {r : α → β → Prop} {a : Option α} {b : Option β} {x : α} {y : β}
    (h : Option.Rel r a b) (hxy : r x y) : r (a.getD x) (b.getD y) := by
  cases h with
  | none => exact hxy
  | some hr => exact hr

/-! ## One queue -/

namespace Circular

variable {α : Type*} {capacity : ℕ} {q : Circular α} {r : Ring α capacity}

/-- The ring is the array. -/
def Backs (q : Circular α) (r : Ring α capacity) : Prop :=
  ∃ h : q.InBounds capacity, q.toRing h = r

theorem backs_zeroed [Inhabited α] [NeZero capacity] :
    (zeroed : Circular α).Backs (Ring.empty capacity) :=
  ⟨⟨Nat.pos_of_ne_zero (NeZero.ne capacity), Nat.zero_le _⟩, rfl⟩

theorem Backs.insert (hcap : 2 * capacity ≤ 2 ^ 32) (h : q.Backs r) (x : α) :
    Option.Rel Backs (q.insert capacity x) (r.enqueue? x) := by
  obtain ⟨hb, rfl⟩ := h
  rcases hb.count_le.lt_or_eq with hlt | hfull
  · obtain ⟨q', hq', h', hring⟩ := insert_eq hcap hb x hlt
    rw [hq', hring]
    exact .some ⟨h', rfl⟩
  · rw [show q.insert capacity x = none from if_neg hfull.not_lt,
      show (q.toRing hb).enqueue? x = none from dif_neg hfull.not_lt]
    exact .none

theorem Backs.remove [Inhabited α] (hcap : 2 * capacity ≤ 2 ^ 32) (h : q.Backs r) :
    Option.Rel (fun a b => a.1 = b.1 ∧ a.2.Backs b.2) (q.remove capacity) r.dequeue? := by
  obtain ⟨hb, rfl⟩ := h
  rcases Nat.eq_zero_or_pos q.count with hzero | hpos
  · rw [show q.remove capacity = none from if_neg hzero.not_gt,
      show (q.toRing hb).dequeue? = none from if_neg hzero.not_gt]
    exact .none
  · obtain ⟨q', hq', h', hring⟩ := remove_eq hcap hb hpos
    rw [hq', hring]
    exact .some ⟨rfl, h', rfl⟩

theorem Backs.first (h : q.Backs r) : q.first = r.peek? := by
  obtain ⟨hb, rfl⟩ := h
  rfl

end Circular

/-! ## The device -/

/-- The rings of the device are the arrays, and the flags agree. -/
structure Backs (q : PendingQueues StreamRequest JpegRequest) (d : Device) : Prop where
  stream : ∀ video, (q.streamQueue video).Backs (d.streamQueue video)
  jpeg : q.pendingJpeg.Backs d.pendingJpeg
  jpegCaptureActive : q.jpegCaptureActive = d.jpegCaptureActive
  flushing : q.flushing = d.flushing

theorem backs_opened (cameraId : ℕ) : Backs .opened (Device.opened cameraId) where
  stream video := by cases video <;> exact Circular.backs_zeroed
  jpeg := Circular.backs_zeroed
  jpegCaptureActive := rfl
  flushing := rfl

namespace Backs

variable {q : PendingQueues StreamRequest JpegRequest} {d : Device}

theorem setStreamQueue (h : Backs q d) {video : Bool} {a : Circular StreamRequest}
    {r : Ring StreamRequest 16} (ha : a.Backs r) :
    Backs (q.setStreamQueue video a) (d.setStreamQueue video r) where
  stream v := by
    rw [PendingQueues.streamQueue_setStreamQueue, Device.streamQueue_setStreamQueue]
    split_ifs
    · exact ha
    · exact h.stream v
  jpeg := by
    rw [PendingQueues.setStreamQueue_pendingJpeg, Device.setStreamQueue_pendingJpeg]
    exact h.jpeg
  jpegCaptureActive := by
    rw [PendingQueues.setStreamQueue_jpegCaptureActive, Device.setStreamQueue_jpegCaptureActive]
    exact h.jpegCaptureActive
  flushing := by
    rw [PendingQueues.setStreamQueue_flushing, h.flushing]
    cases video <;> rfl

theorem enqueueStreamRequest (h : Backs q d) (x : StreamRequest) (video : Bool) :
    Option.Rel Backs (q.enqueueStreamRequest x video) (d.enqueueStreamRequest x video) :=
  rel_map ((h.stream video).insert (by decide) x) fun _ _ ha => h.setStreamQueue ha

theorem dequeueStreamRequest (h : Backs q d) (video : Bool) :
    Option.Rel (fun a b => a.1 = b.1 ∧ Backs a.2 b.2) (q.dequeueStreamRequest video)
      (d.dequeueStreamRequest video) :=
  rel_map ((h.stream video).remove (by decide)) fun _ _ ha => ⟨ha.1, h.setStreamQueue ha.2⟩

theorem reserveJpegRequest (h : Backs q d) (x : JpegRequest) :
    Option.Rel Backs (q.reserveJpegRequest x) (d.reserveJpegRequest x) := by
  rw [PendingQueues.reserveJpegRequest, Device.reserveJpegRequest, h.flushing]
  split_ifs
  · exact .none
  · exact rel_map (h.jpeg.insert (by decide) x) fun _ _ ha =>
      ⟨h.stream, ha, h.jpegCaptureActive, rfl⟩

theorem takeJpegRequest (h : Backs q d) :
    Option.Rel (fun a b => a.1 = b.1 ∧ Backs a.2 b.2) q.takeJpegRequest d.takeJpegRequest :=
  rel_map (h.jpeg.remove (by decide)) fun _ _ ha => ⟨ha.1, h.stream, ha.2, rfl, h.flushing⟩

theorem beginNextJpegRequest (h : Backs q d) :
    Option.Rel (fun a b => a.1 = b.1 ∧ Backs a.2 b.2) q.beginNextJpegRequest
      d.beginNextJpegRequest := by
  rw [PendingQueues.beginNextJpegRequest, Device.beginNextJpegRequest, h.flushing,
    h.jpegCaptureActive, h.jpeg.first]
  by_cases hbusy : d.flushing = true ∨ d.jpegCaptureActive = true
  · rw [if_pos hbusy, if_pos (Bool.or_eq_true_iff.mpr hbusy)]
    exact .none
  · rw [if_neg hbusy, if_neg (mt Bool.or_eq_true_iff.mp hbusy)]
    cases d.pendingJpeg.peek? with
    | none => exact .none
    | some j => exact .some ⟨rfl, h.stream, h.jpeg, rfl, rfl⟩

end Backs

/-! ## Sequences of operations -/

/-- The queue functions of the device under any sequence of operations. -/
def deviceQueues : Transducer Device (QueueOperation StreamRequest JpegRequest)
    (QueueAnswer StreamRequest JpegRequest) where
  step d
    | .enqueueStream r v =>
      ((d.enqueueStreamRequest r v).map fun d' => (.done, d')).getD (.refused, d)
    | .dequeueStream v =>
      ((d.dequeueStreamRequest v).map fun e => (.stream e.1, e.2)).getD (.refused, d)
    | .reserveJpeg r => ((d.reserveJpegRequest r).map fun d' => (.done, d')).getD (.refused, d)
    | .takeJpeg => (d.takeJpegRequest.map fun e => (.jpeg e.1, e.2)).getD (.refused, d)
    | .beginNextJpeg => (d.beginNextJpegRequest.map fun e => (.jpeg e.1, e.2)).getD (.refused, d)
    | .setFlushing flushing => (.done, { d with flushing := flushing })

/-- The answers agree, and the rings are still the arrays. -/
def BacksAfter (a : QueueAnswer StreamRequest JpegRequest × PendingQueues StreamRequest JpegRequest)
    (b : QueueAnswer StreamRequest JpegRequest × Device) : Prop :=
  a.1 = b.1 ∧ Backs a.2 b.2

theorem backs_step {q : PendingQueues StreamRequest JpegRequest} {d : Device} (h : Backs q d)
    (op : QueueOperation StreamRequest JpegRequest) :
    BacksAfter (pendingQueues.step q op) (deviceQueues.step d op) := by
  have hrefused : BacksAfter (.refused, q) (.refused, d) := ⟨rfl, h⟩
  cases op with
  | enqueueStream r v =>
    refine rel_getD (rel_map (h.enqueueStreamRequest r v) ?_) hrefused
    exact fun _ _ hb => ⟨rfl, hb⟩
  | dequeueStream v =>
    refine rel_getD (rel_map (h.dequeueStreamRequest v) ?_) hrefused
    exact fun _ _ hb => ⟨congrArg _ hb.1, hb.2⟩
  | reserveJpeg r =>
    refine rel_getD (rel_map (h.reserveJpegRequest r) ?_) hrefused
    exact fun _ _ hb => ⟨rfl, hb⟩
  | takeJpeg =>
    refine rel_getD (rel_map h.takeJpegRequest ?_) hrefused
    exact fun _ _ hb => ⟨congrArg _ hb.1, hb.2⟩
  | beginNextJpeg =>
    refine rel_getD (rel_map h.beginNextJpegRequest ?_) hrefused
    exact fun _ _ hb => ⟨congrArg _ hb.1, hb.2⟩
  | setFlushing flushing => exact ⟨rfl, h.stream, h.jpeg, h.jpegCaptureActive, rfl⟩

/-- The arrays simulate the rings. -/
def backing : (pendingQueues : Transducer (PendingQueues StreamRequest JpegRequest) _ _).Refinement
    deviceQueues where
  rel := Backs
  answer_eq h op := (backs_step h op).1
  rel_next h op := (backs_step h op).2

/-- The queue functions of the device report what those of the arrays do, in every run. -/
theorem device_trace_eq (cameraId : ℕ) (ops : List (QueueOperation StreamRequest JpegRequest)) :
    deviceQueues.trace (Device.opened cameraId) ops = pendingQueues.trace .opened ops :=
  (backing.trace_eq (backs_opened cameraId) ops).symm

end Pro5Android.Camera
