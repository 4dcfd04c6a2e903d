import Pro5Android.Camera.Device
import Pro5Android.Lib.Machine

/-!
# The camera translator as a machine of atomic stretches

`camera_m86_module.cpp` serves the camera3 interface with the legacy engine of
the camera HAL1. Its entry points are called by the framework
(`configure_streams`, `process_capture_request`, `flush`) and by the engine's
threads (preview, recording, image, error and focus callbacks), and
`configure_streams` starts a worker thread; all share the device structure. Here
each of them is a thread of a machine whose atomic steps are the stretches of
code between two synchronisation points: a critical section, a call to the
framework, a call to the engine, or a read or write of a field outside the lock.

An activation is the position of a function in its own code together with its
local variables; a function that calls another pushes its activation above its
own continuation. The environment chooses which thread runs, what the engine
answers, and when it calls: the only things asked of it are that a frame number
identifies one request, as the camera3 interface promises, and that the engine
delivers the image of a picture, or the failure of one, at most once and only
for a picture it has taken.

The world keeps, beside the device, what the framework has received and which
requests it has handed in, and for the still captures what the legacy engine was
asked to do. These parts are never read by the code.
-/

namespace Pro5Android.Camera

open Lib Lib.Machine

/-! ## What the framework receives -/

/-- `CAMERA3_BUFFER_STATUS_OK` and `_ERROR`. -/
inductive BufferStatus
  | ok | error
  deriving DecidableEq

/-- The varying part of `m86_build_result_metadata` (lines 827–870); the focal
    length in hundredths of a millimetre. -/
structure ResultMetadata where
  controls : Controls
  focalLength : ℕ
  sensorTimestamp : ℤ
  deriving DecidableEq

/-- The calls the module makes to `callback_ops`: `notify` with a shutter, an
    `ERROR_REQUEST` or an `ERROR_BUFFER`, and `process_capture_result`. -/
inductive Event
  | shutter (frameNumber : ℕ) (timestampNs : ℤ)
  | errorRequest (frameNumber : ℕ)
  | errorBuffer (frameNumber : ℕ) (stream : ℕ)
  | result (frameNumber : ℕ) (metadata : Option ResultMetadata)
      (buffers : List (Output × BufferStatus))
  deriving DecidableEq

/-- The return of the other two entry points, with its status. -/
inductive Return
  | configureStreams (status : ℤ)
  | flush (status : ℤ)
  deriving DecidableEq

/-! ## The world -/

/-- The still captures as the legacy engine sees them. `attempts` are the
    requests whose capture was tried: `takePicture` was called, or the engine
    refused the JPEG settings before it, which the source makes the same failure
    (lines 2472–2486). `unanswered` are the pictures taken whose image or failure
    the engine may still deliver, `outstanding` the pictures whose request still
    waits for it, `cancelled` those the engine was told to cancel. `deliveries`
    pairs each image or failure that was given to a request with the picture it
    came from; the errors that a flush sends come from none and are not there. -/
structure StillEngine where
  attempts : List JpegRequest
  unanswered : List JpegRequest
  outstanding : List JpegRequest
  cancelled : List JpegRequest
  deliveries : List (Option JpegRequest × JpegRequest)
  deriving DecidableEq

/-- The device; what the framework has received, oldest first; the frame numbers
    it has used, the requests accepted from it, and the returns of
    `process_capture_request`, with frame number and status, and of the other
    entry points; the worker threads started and those that have ended; the still
    captures. -/
structure World where
  device : Device
  log : List Event
  frames : List ℕ
  accepted : List CaptureRequest
  requestReturns : List (ℕ × ℤ)
  returns : List Return
  workers : ℕ
  exited : List ℕ
  still : StillEngine

namespace World

/-- After `open` of a camera. -/
def opened (cameraId : ℕ) : World :=
  ⟨Device.opened cameraId, [], [], [], [], [], 0, [], ⟨[], [], [], [], []⟩⟩

def setDevice (w : World) (d : Device) : World := { w with device := d }

def send (w : World) (e : Event) : World := { w with log := w.log ++ [e] }

def returned (w : World) (r : Return) : World := { w with returns := w.returns ++ [r] }

def requestReturned (w : World) (frameNumber : ℕ) (status : ℤ) : World :=
  { w with requestReturns := w.requestReturns ++ [(frameNumber, status)] }

def setStill (w : World) (e : StillEngine) : World := { w with still := e }

end World

namespace StillEngine

/-- The settings of a request were applied and `takePicture` was called; one of
    the two failed, or neither (`ok`). -/
def attempt (e : StillEngine) (j : JpegRequest) (ok : Bool) : StillEngine :=
  { e with
    attempts := e.attempts ++ [j]
    unanswered := if ok then e.unanswered ++ [j] else e.unanswered
    outstanding := if ok then e.outstanding ++ [j] else e.outstanding }

/-- `cancelPicture`. -/
def cancel (e : StillEngine) : StillEngine := { e with cancelled := e.cancelled ++ e.outstanding }

/-- The request of a picture was handed back without it; when the picture was
    cancelled, nothing waits for it any more. -/
def abandon (e : StillEngine) : Option JpegRequest → StillEngine
  | some j => { e with outstanding := if j ∈ e.cancelled then e.outstanding.erase j else e.outstanding }
  | none => e

/-- An image or a failure from `source` was given to a request, or found none. -/
def deliver (e : StillEngine) (source : Option JpegRequest) : Option JpegRequest → StillEngine
  | some j =>
    { e with
      outstanding := source.elim e.outstanding e.outstanding.erase
      deliveries := e.deliveries ++ [(source, j)] }
  | none => { e with outstanding := source.elim e.outstanding e.outstanding.erase }

end StillEngine

/-! ## Activations -/

/-- Positions in `m86_device_process_capture_request` after validation; the
    first two are `m86_send_request_error`; `shutter`, `metadata` and
    `sendMetadata` are `m86_send_request_shutter_and_metadata`. -/
inductive RequestPc
  | notifyError | errorResult | reserve | shutter
  | metadata | sendMetadata (metadata : ResultMetadata)
  | enqueuePreview | enqueueVideo | startStill | finish
  deriving DecidableEq

/-- Positions in `m86_device_flush`. -/
inductive FlushPc
  | stop | join | awaitWorker (thread : ℕ) | clearJoinable | startFlushing | cancelPicture
  | stopRecording | recordingStopped | stopPreview | previewStopped
  | drainPreview | drainVideo | drainJpeg | finish
  deriving DecidableEq

/-- Positions in `m86_device_configure_streams`. -/
inductive ConfigurePc
  | start (streams : List (Option Stream)) | scan (streams : List (Option Stream))
  | setParameters | clearStop | createWorker | setJoinable
  deriving DecidableEq

/-- Positions in `m86_preview_start_worker`, `m86_start_recording_if_needed`
    included. -/
inductive WorkerPc
  | wait | startPreview | setPreviewStarted
  | startRecordingIfNeeded | startRecording | setRecordingStarted | failRecording
  | startStill | failPreview | failVideo | failJpeg | exit
  deriving DecidableEq

/-- A position in a function of the module, with its local variables. -/
inductive Activation
  | classify (r : CaptureRequest)
  | applyRequestControls (settings : Option Settings)
  | request (pc : RequestPc) (p : PreviewRequest)
  | errorBuffer (frameNumber : ℕ) (stream : ℕ)
  | bufferResult (frameNumber : ℕ) (output : Output) (status : BufferStatus)
  | updateControls (u : ControlUpdate)
  | deliver (video : Bool)
  | errorStream (video : Bool)
  | compressedImage (source : JpegRequest)
  | engineError (source : Option JpegRequest)
  | startNextJpegCapture
  | beginNextJpeg
  | takePicture (j : JpegRequest)
  | takeFailed (j : JpegRequest)
  | flush (pc : FlushPc)
  | configure (pc : ConfigurePc)
  | worker (thread : ℕ) (pc : WorkerPc)
  deriving DecidableEq

/-- What the environment answers to the calls of one stretch: the status of the
    engine or thread call, the time, and the answers about the controls. -/
structure Answer where
  status : ℤ
  nowNs : ℤ
  controls : ControlAnswer

/-- The outcome of one stretch. -/
abbrev Stretch := Outcome World Activation

/-- Leave `w` behind and go on with `push`. -/
def goOn (w : World) (push : List Activation) : Stretch := ⟨w, push, []⟩

/-- `-EINVAL`. -/
def eInval : ℤ := -22

/-! ## Returning buffers -/

/-- `m86_send_stream_result` (lines 872–912). -/
def sendStreamResult (s : StreamRequest) (success : Bool) : List Activation :=
  if success then [.bufferResult s.frameNumber s.output .ok]
  else [.errorBuffer s.frameNumber s.output.stream, .bufferResult s.frameNumber s.output .error]

/-- `m86_send_jpeg_error` (lines 939–973). -/
def sendJpegError (j : JpegRequest) : List Activation :=
  [.errorBuffer j.frameNumber j.output.stream, .bufferResult j.frameNumber j.output .error,
    .updateControls .flashReady]

/-- The end of `m86_send_jpeg_result` (lines 989–1051) for the request it took:
    `status` tells whether the image could be copied into the buffer. -/
def sendJpegResult (j : JpegRequest) (status : ℤ) : List Activation :=
  if status = 0 then
    [.bufferResult j.frameNumber j.output .ok, .updateControls .flashReady]
  else sendJpegError j

/-- Take the first request of a stream queue and go on with `found`, or with
    `empty` when there is none. -/
def takeStream (video : Bool) (found : StreamRequest → List Activation) (empty : List Activation)
    (w : World) : Stretch :=
  match w.device.dequeueStreamRequest video with
  | some (s, d) => goOn (w.setDevice d) (found s)
  | none => goOn w empty

/-- Take the first JPEG request and go on with `found`, or with `empty` when
    there is none; `still` is what this means for the picture of the request. -/
def takeJpeg (still : Option JpegRequest → StillEngine) (found : JpegRequest → List Activation)
    (empty : List Activation) (w : World) : Stretch :=
  match w.device.takeJpegRequest with
  | some (j, d) => goOn ((w.setDevice d).setStill (still (some j))) (found j)
  | none => goOn (w.setStill (still none)) empty

/-- One turn of `while (m86_dequeue_stream_request(...)) m86_send_stream_result(...)`. -/
def drainStream (video : Bool) (again next : Activation) : World → Stretch :=
  takeStream video (fun s => sendStreamResult s false ++ [again]) [next]

/-- One turn of `while (m86_take_jpeg_request(...)) m86_send_jpeg_error(...)`. -/
def drainJpeg (again next : Activation) (w : World) : Stretch :=
  takeJpeg w.still.abandon (fun j => sendJpegError j ++ [again]) [next] w

/-! ## The functions, stretch by stretch -/

/-- `m86_device_process_capture_request` up to the controls (lines 2489–2561). -/
def execClassify (r : CaptureRequest) (nowNs : ℤ) (w : World) : Stretch :=
  match classifyRequest w.device r nowNs with
  | none => goOn (w.requestReturned r.frameNumber eInval) []
  | some (p, fenceFailed) =>
    goOn { w with accepted := w.accepted ++ [r] }
      (if fenceFailed ∨ p.recognised = [] then [.request .notifyError p]
      else [.applyRequestControls r.settings, .request .reserve p])

/-- The entry made for an output and, when the queue is full, its error
    (lines 2583–2604). -/
def enqueueOutput (video : Bool) (output : Option Output) (p : PreviewRequest) (next : RequestPc)
    (w : World) : Stretch :=
  match output with
  | none => goOn w [.request next p]
  | some o =>
    match w.device.enqueueStreamRequest ⟨p.frameNumber, p.timestampNs, o⟩ video with
    | some d => goOn (w.setDevice d) [.request next p]
    | none =>
      goOn w (sendStreamResult ⟨p.frameNumber, p.timestampNs, o⟩ false ++ [.request next p])

/-- The reservation of the JPEG output (lines 2563–2579). -/
def reserveOutput (p : PreviewRequest) (w : World) : Stretch :=
  match p.jpegOutput with
  | none => goOn w [.request .shutter p]
  | some o =>
    match w.device.reserveJpegRequest ⟨true, p.frameNumber, p.timestampNs, o⟩ with
    | some d => goOn (w.setDevice d) [.request .shutter p]
    | none => goOn w [.request .notifyError p]

/-- `m86_build_result_metadata`, without the constant entries. -/
def buildResultMetadata (d : Device) (timestampNs : ℤ) : ResultMetadata :=
  ⟨d.controls, if d.cameraId = 1 then 350 else 473, timestampNs⟩

/-- `m86_device_process_capture_request` after validation (lines 2553–2611). -/
def execRequest (p : PreviewRequest) (w : World) : RequestPc → Stretch
  | .notifyError => goOn (w.send (.errorRequest p.frameNumber)) [.request .errorResult p]
  | .errorResult =>
    goOn (w.send (.result p.frameNumber none (p.outputs.map fun o => (o, .error))))
      [.request .finish p]
  | .reserve => reserveOutput p w
  | .shutter => goOn (w.send (.shutter p.frameNumber p.timestampNs)) [.request .metadata p]
  | .metadata =>
    goOn (w.setDevice (w.device.updateControls .metadataBuilt))
      [.request (.sendMetadata (buildResultMetadata w.device p.timestampNs)) p]
  | .sendMetadata metadata =>
    goOn (w.send (.result p.frameNumber (some metadata) [])) [.request .enqueuePreview p]
  | .enqueuePreview => enqueueOutput false p.previewOutput p .enqueueVideo w
  | .enqueueVideo => enqueueOutput true p.videoOutput p .startStill w
  | .startStill =>
    goOn w (if p.jpegOutput.isSome ∧ w.device.previewStarted then
        [.startNextJpegCapture, .request .finish p]
      else [.request .finish p])
  | .finish => goOn (w.requestReturned p.frameNumber 0) []

/-- `m86_device_flush` (lines 2613–2658); `none` while it waits for the worker.
    `finish` records its return, also where `m86_device_configure_streams` is the
    caller. -/
def execFlush (w : World) : FlushPc → Option Stretch
  | .stop =>
    some (goOn (w.setDevice { w.device with stopPreviewStartThread := true }) [.flush .join])
  | .join =>
    some (goOn w [.flush (if w.device.previewStartThreadJoinable then
      .awaitWorker w.device.previewStartThread else .startFlushing)])
  | .awaitWorker thread =>
    if thread ∈ w.exited then some (goOn w [.flush .clearJoinable]) else none
  | .clearJoinable =>
    some (goOn (w.setDevice { w.device with previewStartThreadJoinable := false })
      [.flush .startFlushing])
  | .startFlushing =>
    some (goOn (w.setDevice { w.device with flushing := true })
      [.flush (if w.device.jpegCaptureActive then .cancelPicture else .stopRecording)])
  | .cancelPicture => some (goOn (w.setStill w.still.cancel) [.flush .stopRecording])
  | .stopRecording =>
    some (goOn w [.flush (if w.device.recordingStarted then .recordingStopped else .stopPreview)])
  | .recordingStopped =>
    some (goOn (w.setDevice { w.device with recordingStarted := false }) [.flush .stopPreview])
  | .stopPreview =>
    some (goOn w [.flush (if w.device.previewStarted then .previewStopped else .drainPreview)])
  | .previewStopped =>
    some (goOn (w.setDevice { w.device with previewStarted := false }) [.flush .drainPreview])
  | .drainPreview => some (drainStream false (.flush .drainPreview) (.flush .drainVideo) w)
  | .drainVideo => some (drainStream true (.flush .drainVideo) (.flush .drainJpeg) w)
  | .drainJpeg => some (drainJpeg (.flush .drainJpeg) (.flush .finish) w)
  | .finish =>
    some (goOn ((w.setDevice { w.device with flushing := false }).returned (.flush 0)) [])

/-- `m86_device_configure_streams` (lines 1843–1970); `status` is the answer of
    `setParameters` or `pthread_create`. -/
def execConfigure (status : ℤ) (w : World) : ConfigurePc → Stretch
  | .start streams =>
    if streams = [] then goOn (w.returned (.configureStreams eInval)) []
    else if w.device.previewStartThreadJoinable ∨ w.device.previewStarted ∨
        w.device.recordingStarted then
      goOn w [.flush .stop, .configure (.scan streams)]
    else goOn w [.configure (.scan streams)]
  | .scan streams =>
    match scanStreams streams with
    | none => goOn (w.returned (.configureStreams eInval)) []
    | some roles =>
      goOn (w.setDevice
        { w.device with
          configuredPreviewStream := roles.preview.map Stream.address
          configuredVideoStream := roles.video.map Stream.address
          configuredJpegStream := roles.jpeg.map Stream.address }) [.configure .setParameters]
  | .setParameters =>
    if status = 0 then goOn w [.configure .clearStop]
    else goOn (w.returned (.configureStreams status)) []
  | .clearStop =>
    goOn (w.setDevice { w.device with stopPreviewStartThread := false }) [.configure .createWorker]
  | .createWorker =>
    if status = 0 then
      ⟨{ w with
          device := { w.device with previewStartThread := w.workers }
          workers := w.workers + 1 },
        [.configure .setJoinable], [[.worker w.workers .wait]]⟩
    else goOn (w.returned (.configureStreams (-status))) []
  | .setJoinable =>
    goOn ((w.setDevice { w.device with previewStartThreadJoinable := true }).returned
      (.configureStreams 0)) []

/-- `m86_preview_start_worker` and `m86_start_recording_if_needed`
    (lines 1768–1832); `status` is the answer of `startPreview` or
    `startRecording`, and `none` stands for waiting on the condition variable. -/
def execWorker (thread : ℕ) (status : ℤ) (w : World) : WorkerPc → Option Stretch
  | .wait =>
    if w.device.pending.count = 0 ∧ w.device.videoPending.count = 0 ∧
        w.device.stopPreviewStartThread = false then none
    else some (goOn w
      [.worker thread (if w.device.stopPreviewStartThread then .exit else .startPreview)])
  | .startPreview =>
    some (goOn w [.worker thread (if status = 0 then .setPreviewStarted else .failPreview)])
  | .setPreviewStarted =>
    some (goOn (w.setDevice { w.device with previewStarted := true })
      [.worker thread .startRecordingIfNeeded])
  | .startRecordingIfNeeded =>
    some (goOn w
      [.worker thread (if w.device.previewStarted ∧ w.device.configuredVideoStream.isSome ∧
          w.device.recordingStarted = false then .startRecording else .startStill)])
  | .startRecording =>
    some (goOn w [.worker thread (if status = 0 then .setRecordingStarted else .failRecording)])
  | .setRecordingStarted =>
    some (goOn (w.setDevice { w.device with recordingStarted := true })
      [.worker thread .startStill])
  | .failRecording =>
    some (drainStream true (.worker thread .failRecording) (.worker thread .startStill) w)
  | .startStill => some (goOn w [.startNextJpegCapture, .worker thread .exit])
  | .failPreview =>
    some (drainStream false (.worker thread .failPreview) (.worker thread .failVideo) w)
  | .failVideo =>
    some (drainStream true (.worker thread .failVideo) (.worker thread .failJpeg) w)
  | .failJpeg => some (drainJpeg (.worker thread .failJpeg) (.worker thread .exit) w)
  | .exit => some (goOn { w with exited := w.exited ++ [thread] } [])

/-- A frame of the engine for a preview or video request:
    `m86_preview_window_deliver`, `m86_data_cb` and `m86_data_timestamp_cb`
    (lines 1262–1402, 1664–1729). `status` tells whether it could be copied. -/
def execDeliver (video : Bool) (status : ℤ) : World → Stretch :=
  takeStream video (fun s => sendStreamResult s (status = 0)) []

/-- One of the two stream errors at the end of `m86_notify_cb` (lines 1078–1084). -/
def execErrorStream (video : Bool) : World → Stretch :=
  takeStream video (fun s => sendStreamResult s false) []

/-- A compressed image (lines 975–1053, 1269–1273). -/
def execCompressedImage (source : JpegRequest) (status : ℤ) (w : World) : Stretch :=
  takeJpeg (w.still.deliver source) (fun j => sendJpegResult j status ++ [.startNextJpegCapture])
    [.startNextJpegCapture] w

/-- `CAMERA_MSG_ERROR` in `m86_notify_cb` (lines 1071–1085). -/
def execEngineError (source : Option JpegRequest) (w : World) : Stretch :=
  takeJpeg (w.still.deliver source) (fun j => sendJpegError j ++ [.startNextJpegCapture])
    [.errorStream false, .errorStream true] w

/-- The loop of `m86_start_next_jpeg_capture` (lines 2463–2471). -/
def execBeginNextJpeg (w : World) : Stretch :=
  match w.device.beginNextJpegRequest with
  | some (j, d) => goOn (w.setDevice d) [.updateControls .flashFired, .takePicture j]
  | none => goOn w []

/-- The end of that loop when `takePicture` failed (lines 2481–2485). -/
def execTakeFailed (j : JpegRequest) (w : World) : Stretch :=
  takeJpeg (w.still.deliver (some j)) (fun failed => sendJpegError failed ++ [.beginNextJpeg]) [] w

/-- One stretch of an activation; `none` where it is blocked. -/
def exec : Activation → Answer → World → Option Stretch
  | .classify r, x, w => some (execClassify r x.nowNs w)
  | .applyRequestControls settings, x, w =>
    some (goOn w (settings.elim [] fun s =>
      (requestControlUpdates w.device.cameraId s x.controls).map .updateControls))
  | .request pc p, _, w => some (execRequest p w pc)
  | .errorBuffer frameNumber stream, _, w =>
    some (goOn (w.send (.errorBuffer frameNumber stream)) [])
  | .bufferResult frameNumber output status, _, w =>
    some (goOn (w.send (.result frameNumber none [(output, status)])) [])
  | .updateControls u, _, w => some (goOn (w.setDevice (w.device.updateControls u)) [])
  | .deliver video, x, w => some (execDeliver video x.status w)
  | .errorStream video, _, w => some (execErrorStream video w)
  | .compressedImage source, x, w => some (execCompressedImage source x.status w)
  | .engineError source, _, w => some (execEngineError source w)
  | .startNextJpegCapture, _, w =>
    some (goOn w (if w.device.previewStarted then [.beginNextJpeg] else []))
  | .beginNextJpeg, _, w => some (execBeginNextJpeg w)
  | .takePicture j, x, w =>
    some (goOn (w.setStill (w.still.attempt j (x.status = 0)))
      (if x.status = 0 then [] else [.takeFailed j]))
  | .takeFailed j, _, w => some (execTakeFailed j w)
  | .flush pc, _, w => execFlush w pc
  | .configure pc, x, w => some (execConfigure x.status w pc)
  | .worker thread pc, x, w => execWorker thread x.status w pc

/-! ## The machine -/

/-- The calls of the framework and of the engine's threads. -/
inductive Call
  | configureStreams (streams : List (Option Stream))
  | processCaptureRequest (r : CaptureRequest)
  | flush
  | previewFrame
  | videoFrame
  | compressedImage (source : JpegRequest)
  | error (source : Option JpegRequest)
  | focus (focused : Bool)
  | focusMove (moving : Bool)

/-- The engine delivers what became of a picture it has taken. -/
def World.answer (w : World) (source : JpegRequest) : Option World :=
  if source ∈ w.still.unanswered then
    some (w.setStill { w.still with unanswered := w.still.unanswered.erase source })
  else none

/-- A call starts a thread. -/
def enter (w : World) : Call → Option (World × List Activation)
  | .configureStreams streams => some (w, [.configure (.start streams)])
  | .processCaptureRequest r =>
    if r.frameNumber ∈ w.frames then none
    else some ({ w with frames := w.frames ++ [r.frameNumber] }, [.classify r])
  | .flush => some (w, [.flush .stop])
  | .previewFrame => some (w, [.deliver false])
  | .videoFrame => some (w, [.deliver true])
  | .compressedImage source => (w.answer source).map fun w => (w, [.compressedImage source])
  | .error none => some (w, [.engineError none])
  | .error (some source) => (w.answer source).map fun w => (w, [.engineError (some source)])
  | .focus focused => some (w, [.updateControls (.focus focused)])
  | .focusMove moving => some (w, [.updateControls (.focusMove moving)])

/-- The translator. -/
def translator : Machine World Activation Call Answer := ⟨enter, exec⟩

/-- A machine state of the translator. -/
abbrev State := Config World Activation

/-- After `open`, before any call. -/
def State.opened (cameraId : ℕ) : State := ⟨World.opened cameraId, []⟩

/-- The environment lets a thread run, with success in every call to the engine. -/
def go (thread : ℕ) : Action Call Answer := .run thread ⟨0, 0, ⟨100, 0, 0⟩⟩

/-- The state after a list of actions in which every stretch passes `ok`; the
    state before them where they are not possible. -/
def State.after (c : State) (ok : State → Activation → Answer → Bool)
    (acts : List (Action Call Answer)) : State :=
  (translator.runAll ok c acts).getD c

theorem reach_after {c : State} {good : State → Activation → Answer → Prop}
    {ok : State → Activation → Answer → Bool} {acts : List (Action Call Answer)}
    (hok : ∀ c i x, ok c i x = true → good c i x) (h : (translator.runAll ok c acts).isSome) :
    Reach translator good c (c.after ok acts) :=
  Machine.reach_after hok h

/-- No step is in progress: every thread has returned or is a worker that waits
    on its condition variable. -/
def Quiet (c : State) : Prop :=
  ∀ stack ∈ c.threads, stack = [] ∨ ∃ thread, stack = [.worker thread .wait]

end Pro5Android.Camera
