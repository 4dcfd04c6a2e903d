import Pro5Android.Camera.Controls
import Pro5Android.Lib.Ring

/-!
# The device state of the camera translator

The data of `camera_m86_module.cpp`: the requests it keeps, the device structure
(lines 53–117) with its three pending queues, and the functions that work on
them in one critical section each (lines 692–791). Streams and buffers are
identified by their addresses; a null pointer is `none` where the code allows
one. Left out of the structure are the engine and window pointers, which
`m86_device_open` sets once, and the JPEG settings of a still request, which only
the engine reads.

Results:
* `enqueueStreamRequest_eq_some`, `dequeueStreamRequest_eq_some` and their
  likes: what each queue function does to the lists of queued requests, the
  rest of the device being left alone.
* `classifyRequest_sound`: validation keeps the frame number and the outputs.
-/

namespace Pro5Android.Camera

open Lib

/-! ## Requests -/

/-- `m86_pending_output_buffer_t`: the addresses of a stream and a buffer. -/
structure Output where
  stream : ℕ
  buffer : ℕ
  deriving DecidableEq, Inhabited

/-- `m86_pending_stream_request_t` (lines 67–71). -/
structure StreamRequest where
  frameNumber : ℕ
  timestampNs : ℤ
  output : Output
  deriving DecidableEq, Inhabited

/-- `m86_pending_jpeg_request_t` (lines 73–87). -/
structure JpegRequest where
  shutterAndMetadataSent : Bool
  frameNumber : ℕ
  timestampNs : ℤ
  output : Output
  deriving DecidableEq, Inhabited

/-- `m86_pending_preview_request_t` (lines 57–65). In place of the three output
    indices, the outputs they point to. -/
structure PreviewRequest where
  frameNumber : ℕ
  timestampNs : ℤ
  outputs : List Output
  previewOutput : Option Output
  videoOutput : Option Output
  jpegOutput : Option Output
  deriving DecidableEq

/-- `camera3_stream_buffer_t` as the framework hands it in; `syncWait` is what
    waiting for its acquire fence will answer. -/
structure StreamBuffer where
  stream : Option ℕ
  buffer : Option ℕ
  acquireFence : ℤ
  syncWait : ℤ
  deriving DecidableEq

/-- `camera3_capture_request_t`. -/
structure CaptureRequest where
  frameNumber : ℕ
  settings : Option Settings
  inputBuffer : Option ℕ
  outputBuffers : List StreamBuffer
  deriving DecidableEq

/-- The stream and the buffer named by a stream buffer. -/
def StreamBuffer.output? (b : StreamBuffer) : Option Output :=
  match b.stream, b.buffer with
  | some stream, some buffer => some ⟨stream, buffer⟩
  | _, _ => none

/-- The outputs a request names. -/
def CaptureRequest.outputs (r : CaptureRequest) : List Output :=
  r.outputBuffers.filterMap StreamBuffer.output?

/-- The stream formats `m86_device_configure_streams` tells apart. -/
inductive HalPixelFormat
  | implementationDefined | yCbCr420_888 | blob | other
  deriving DecidableEq

/-- `camera3_stream_t`, as far as the configuration reads it: its address,
    whether it is an output stream, its format, and whether its usage names the
    video encoder. -/
structure Stream where
  address : ℕ
  isOutput : Bool
  format : HalPixelFormat
  hwVideoEncoder : Bool
  deriving DecidableEq

/-! ## The device -/

/-- `m86_camera3_device` (lines 89–117). -/
structure Device where
  cameraId : ℕ
  configuredPreviewStream : Option ℕ
  configuredVideoStream : Option ℕ
  configuredJpegStream : Option ℕ
  pending : Ring StreamRequest 16
  videoPending : Ring StreamRequest 16
  pendingJpeg : Ring JpegRequest 8
  jpegCaptureActive : Bool
  flushing : Bool
  previewStarted : Bool
  recordingStarted : Bool
  previewStartThread : ℕ
  previewStartThreadJoinable : Bool
  stopPreviewStartThread : Bool
  controls : Controls

/-- The device `m86_device_open` hands out. -/
def Device.opened (cameraId : ℕ) : Device where
  cameraId := cameraId
  configuredPreviewStream := none
  configuredVideoStream := none
  configuredJpegStream := none
  pending := Ring.empty 16
  videoPending := Ring.empty 16
  pendingJpeg := Ring.empty 8
  jpegCaptureActive := false
  flushing := false
  previewStarted := false
  recordingStarted := false
  previewStartThread := 0
  previewStartThreadJoinable := false
  stopPreviewStartThread := false
  controls := initialControls cameraId

namespace Device

/-- The queue that `video` selects (lines 699–701). -/
def streamQueue (d : Device) (video : Bool) : Ring StreamRequest 16 :=
  if video then d.videoPending else d.pending

/-- The device with that queue replaced. -/
def setStreamQueue (d : Device) (video : Bool) (q : Ring StreamRequest 16) : Device :=
  if video then { d with videoPending := q } else { d with pending := q }

/-- `m86_enqueue_stream_request` (lines 692–713). -/
def enqueueStreamRequest (d : Device) (request : StreamRequest) (video : Bool) : Option Device :=
  ((d.streamQueue video).enqueue? request).map (d.setStreamQueue video)

/-- `m86_dequeue_stream_request` (lines 715–735). -/
def dequeueStreamRequest (d : Device) (video : Bool) : Option (StreamRequest × Device) :=
  (d.streamQueue video).dequeue?.map fun e => (e.1, d.setStreamQueue video e.2)

/-- `m86_reserve_jpeg_request` (lines 737–755). -/
def reserveJpegRequest (d : Device) (request : JpegRequest) : Option Device :=
  if d.flushing then none
  else (d.pendingJpeg.enqueue? request).map fun q => { d with pendingJpeg := q }

/-- `m86_take_jpeg_request` (lines 757–776). -/
def takeJpegRequest (d : Device) : Option (JpegRequest × Device) :=
  d.pendingJpeg.dequeue?.map fun e =>
    (e.1, { d with pendingJpeg := e.2, jpegCaptureActive := false })

/-- `m86_begin_next_jpeg_request` (lines 778–791). -/
def beginNextJpegRequest (d : Device) : Option (JpegRequest × Device) :=
  if d.flushing ∨ d.jpegCaptureActive then none
  else d.pendingJpeg.peek?.map fun j => (j, { d with jpegCaptureActive := true })

/-- The control fields after one critical section. -/
def updateControls (d : Device) (u : ControlUpdate) : Device :=
  { d with controls := Camera.updateControls d.cameraId d.controls u }

variable {d d' : Device} {video : Bool}

/-! ### Replacing a queue leaves the rest alone -/

section SetStreamQueue

variable (d : Device) (video : Bool) (q : Ring StreamRequest 16)

theorem streamQueue_setStreamQueue (v : Bool) :
    (d.setStreamQueue video q).streamQueue v = if v = video then q else d.streamQueue v := by
  cases v <;> cases video <;> rfl

@[simp] theorem streamQueue_setStreamQueue_self :
    (d.setStreamQueue video q).streamQueue video = q := by
  rw [streamQueue_setStreamQueue, if_pos rfl]

@[simp] theorem streamQueue_setStreamQueue_not :
    (d.setStreamQueue video q).streamQueue (!video) = d.streamQueue (!video) := by
  cases video <;> rfl

@[simp] theorem setStreamQueue_configuredVideoStream :
    (d.setStreamQueue video q).configuredVideoStream = d.configuredVideoStream := by
  cases video <;> rfl

@[simp] theorem setStreamQueue_pendingJpeg :
    (d.setStreamQueue video q).pendingJpeg = d.pendingJpeg := by
  cases video <;> rfl

@[simp] theorem setStreamQueue_jpegCaptureActive :
    (d.setStreamQueue video q).jpegCaptureActive = d.jpegCaptureActive := by
  cases video <;> rfl

@[simp] theorem setStreamQueue_previewStarted :
    (d.setStreamQueue video q).previewStarted = d.previewStarted := by
  cases video <;> rfl

@[simp] theorem setStreamQueue_recordingStarted :
    (d.setStreamQueue video q).recordingStarted = d.recordingStarted := by
  cases video <;> rfl

@[simp] theorem setStreamQueue_stopPreviewStartThread :
    (d.setStreamQueue video q).stopPreviewStartThread = d.stopPreviewStartThread := by
  cases video <;> rfl

end SetStreamQueue

/-! ### What the queue functions do -/

theorem enqueueStreamRequest_eq_some {s : StreamRequest}
    (h : d.enqueueStreamRequest s video = some d') :
    ∃ q, q.toList = (d.streamQueue video).toList ++ [s] ∧ d' = d.setStreamQueue video q := by
  obtain ⟨q, hq, rfl⟩ := Option.map_eq_some_iff.mp h
  exact ⟨q, Ring.toList_of_enqueue? hq, rfl⟩

theorem enqueueStreamRequest_eq_none {s : StreamRequest} :
    d.enqueueStreamRequest s video = none ↔ (d.streamQueue video).toList.length = 16 := by
  rw [enqueueStreamRequest, Option.map_eq_none_iff, Ring.enqueue?_eq_none]

theorem dequeueStreamRequest_eq_some {s : StreamRequest}
    (h : d.dequeueStreamRequest video = some (s, d')) :
    ∃ q, (d.streamQueue video).toList = s :: q.toList ∧ d' = d.setStreamQueue video q := by
  obtain ⟨⟨s', q⟩, hq, he⟩ := Option.map_eq_some_iff.mp h
  obtain ⟨rfl, rfl⟩ := Prod.mk.inj he
  exact ⟨q, Ring.toList_of_dequeue? hq, rfl⟩

theorem dequeueStreamRequest_eq_none :
    d.dequeueStreamRequest video = none ↔ (d.streamQueue video).toList = [] := by
  rw [dequeueStreamRequest, Option.map_eq_none_iff, Ring.dequeue?_eq_none]

theorem reserveJpegRequest_eq_some {j : JpegRequest} (h : d.reserveJpegRequest j = some d') :
    d.flushing = false ∧
      ∃ q, q.toList = d.pendingJpeg.toList ++ [j] ∧ d' = { d with pendingJpeg := q } := by
  rw [reserveJpegRequest] at h
  split_ifs at h with hf
  obtain ⟨q, hq, rfl⟩ := Option.map_eq_some_iff.mp h
  exact ⟨by simpa using hf, q, Ring.toList_of_enqueue? hq, rfl⟩

theorem takeJpegRequest_eq_some {j : JpegRequest} (h : d.takeJpegRequest = some (j, d')) :
    ∃ q, d.pendingJpeg.toList = j :: q.toList ∧
      d' = { d with pendingJpeg := q, jpegCaptureActive := false } := by
  obtain ⟨⟨j', q⟩, hq, he⟩ := Option.map_eq_some_iff.mp h
  obtain ⟨rfl, rfl⟩ := Prod.mk.inj he
  exact ⟨q, Ring.toList_of_dequeue? hq, rfl⟩

theorem takeJpegRequest_eq_none : d.takeJpegRequest = none ↔ d.pendingJpeg.toList = [] := by
  rw [takeJpegRequest, Option.map_eq_none_iff, Ring.dequeue?_eq_none]

theorem beginNextJpegRequest_eq_some {j : JpegRequest}
    (h : d.beginNextJpegRequest = some (j, d')) :
    d.flushing = false ∧ d.jpegCaptureActive = false ∧ d.pendingJpeg.toList.head? = some j ∧
      d' = { d with jpegCaptureActive := true } := by
  rw [beginNextJpegRequest] at h
  split_ifs at h with hf
  obtain ⟨j', hj, he⟩ := Option.map_eq_some_iff.mp h
  obtain ⟨rfl, rfl⟩ := Prod.mk.inj he
  rw [Ring.peek?_eq] at hj
  refine ⟨?_, ?_, hj, rfl⟩ <;> simp_all

end Device

/-! ## The frames that wait in a queue -/

/-- The three pending queues. -/
inductive Queue
  | preview | video | jpeg
  deriving DecidableEq

/-- The frame numbers of the requests in a queue, head first. -/
def Device.queueFrames (d : Device) : Queue → List ℕ
  | .preview => (d.streamQueue false).toList.map StreamRequest.frameNumber
  | .video => (d.streamQueue true).toList.map StreamRequest.frameNumber
  | .jpeg => d.pendingJpeg.toList.map JpegRequest.frameNumber

/-- The queue that `video` selects. -/
def Queue.stream (video : Bool) : Queue := if video then .video else .preview

theorem Device.queueFrames_stream (d : Device) (video : Bool) :
    d.queueFrames (.stream video) = (d.streamQueue video).toList.map StreamRequest.frameNumber := by
  cases video <;> rfl

theorem Device.queueFrames_setStreamQueue (d : Device) (video : Bool) (q : Ring StreamRequest 16)
    (k : Queue) :
    (d.setStreamQueue video q).queueFrames k =
      if k = .stream video then q.toList.map StreamRequest.frameNumber else d.queueFrames k := by
  cases k <;> cases video <;> rfl

/-! ## Validation of a request -/

/-- The outputs that `m86_device_process_capture_request` recognised. -/
def PreviewRequest.recognised (p : PreviewRequest) : List Output :=
  p.previewOutput.toList ++ p.videoOutput.toList ++ p.jpegOutput.toList

/-- The role of a stream (lines 2535–2550): one output a role, and a stream that
    is not configured has none. `none` stands for `-EINVAL`. -/
def assignRole (d : Device) (p : PreviewRequest) (o : Output) : Option PreviewRequest :=
  if some o.stream = d.configuredPreviewStream then
    if p.previewOutput.isSome then none else some { p with previewOutput := some o }
  else if some o.stream = d.configuredVideoStream then
    if p.videoOutput.isSome then none else some { p with videoOutput := some o }
  else if some o.stream = d.configuredJpegStream then
    if p.jpegOutput.isSome then none else some { p with jpegOutput := some o }
  else some p

/-- Whether waiting for the acquire fence of a buffer fails (lines 2524–2533). -/
def fenceWaitFails (b : StreamBuffer) : Bool :=
  decide (0 ≤ b.acquireFence) && decide (b.syncWait < 0)

/-- The validation loop over the output buffers (lines 2515–2551), with the
    request built so far and `fence_failed`. `none` stands for `-EINVAL`. -/
def classifyOutputs (d : Device) :
    List StreamBuffer → PreviewRequest → Bool → Option (PreviewRequest × Bool)
  | [], p, fenceFailed => some (p, fenceFailed)
  | b :: bs, p, fenceFailed =>
    match b.output? with
    | some o =>
      match assignRole d { p with outputs := p.outputs ++ [o] } o with
      | some p => classifyOutputs d bs p (fenceFailed || fenceWaitFails b)
      | none => none
    | none => none

/-- The part of `m86_device_process_capture_request` that may refuse the request
    (lines 2500–2551), at the time `nowNs`. `none` stands for `-EINVAL`. -/
def classifyRequest (d : Device) (r : CaptureRequest) (nowNs : ℤ) :
    Option (PreviewRequest × Bool) :=
  if r.inputBuffer.isSome ∨ r.outputBuffers = [] ∨ 3 < r.outputBuffers.length then none
  else classifyOutputs d r.outputBuffers ⟨r.frameNumber, nowNs, [], none, none, none⟩ false

theorem assignRole_eq {d : Device} {p p' : PreviewRequest} {o : Output}
    (h : assignRole d p o = some p') : p'.frameNumber = p.frameNumber ∧ p'.outputs = p.outputs := by
  rw [assignRole] at h
  split_ifs at h <;>
    · obtain rfl := Option.some.inj h
      exact ⟨rfl, rfl⟩

/-- The validation loop keeps the frame number and appends the outputs it reads. -/
theorem classifyOutputs_sound {d : Device} {bs : List StreamBuffer} {p p' : PreviewRequest}
    {f f' : Bool} (h : classifyOutputs d bs p f = some (p', f')) :
    p'.frameNumber = p.frameNumber ∧
      p'.outputs = p.outputs ++ bs.filterMap StreamBuffer.output? := by
  induction bs generalizing p f with
  | nil =>
    obtain ⟨rfl, rfl⟩ := Prod.mk.inj (Option.some.inj h)
    exact ⟨rfl, (List.append_nil _).symm⟩
  | cons b bs ih =>
    rw [classifyOutputs] at h
    split at h
    · next o ho =>
      split at h
      · next p₁ hrole =>
        obtain ⟨hframe, hout⟩ := assignRole_eq hrole
        obtain ⟨hframe', hout'⟩ := ih h
        refine ⟨hframe'.trans hframe, ?_⟩
        rw [hout', hout, List.filterMap_cons_some ho, List.append_assoc, List.singleton_append]
      · cases h
    · cases h

/-- An accepted request keeps its frame number and its outputs. -/
theorem classifyRequest_sound {d : Device} {r : CaptureRequest} {nowNs : ℤ} {p : PreviewRequest}
    {f : Bool} (h : classifyRequest d r nowNs = some (p, f)) :
    p.frameNumber = r.frameNumber ∧ p.outputs = r.outputs := by
  rw [classifyRequest] at h
  split_ifs at h
  obtain ⟨hframe, hout⟩ := classifyOutputs_sound h
  exact ⟨hframe, hout.trans (List.nil_append _)⟩

/-! ## Validation of a stream configuration -/

/-- The streams found by the loop of `m86_device_configure_streams`. -/
structure StreamRoles where
  preview : Option Stream
  video : Option Stream
  jpeg : Option Stream
  deriving DecidableEq

/-- One turn of that loop (lines 1860–1896); `none` stands for `-EINVAL`. -/
def assignStream (roles : StreamRoles) : Option Stream → Option StreamRoles
  | none => none
  | some stream =>
    if stream.isOutput = false then none
    else
      match stream.format with
      | .implementationDefined | .yCbCr420_888 =>
        if stream.hwVideoEncoder then
          if roles.video.isSome then none else some { roles with video := some stream }
        else if roles.preview.isSome then none
        else some { roles with preview := some stream }
      -- a later BLOB stream takes the place of an earlier one
      | .blob => some { roles with jpeg := some stream }
      | .other => none

/-- The loop over the stream list; without a preview stream the configuration is
    refused (lines 1899–1902). -/
def scanStreams (streams : List (Option Stream)) : Option StreamRoles :=
  match streams.foldlM assignStream ⟨none, none, none⟩ with
  | some roles => if roles.preview.isSome then some roles else none
  | none => none

end Pro5Android.Camera
