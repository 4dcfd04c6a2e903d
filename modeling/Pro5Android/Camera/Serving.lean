import Pro5Android.Camera.Ordering

/-!
# Pending requests and who drains them

A pending request waits for the engine, which has to be started, or for code
that will empty its queue. Who does either is scattered: the start worker, as
long as it waits on its condition variable and has not been told to stop
(lines 1772–1779); the worker on its way from there to `preview_started` and
`recording_started`, or through its failure branches; a flush before its loops.
The worker is only started by `configure_streams` and does its work once, its
wait condition looks at the preview and video queues only, and
`process_capture_request` checks none of this. So the invariant needs that a
request is queued only while something serves its queue.

Results:
* `exec_keeps`: what a stretch can do to the flags and the number of waiting
  stream requests.
* `previewServed_step`, `videoServed_step`, `jpegServed_step`: a served queue
  stays served until it is empty.
* `served`: the invariant of all runs in which requests are queued where they
  are served.
* `requests_not_stranded`: nothing pending is stranded when all is quiet.
* `requests_stranded`: a request that follows a flush is.
-/

namespace Pro5Android.Camera

open Lib Lib.Machine

/-! ## Who serves a queue -/

/-- The start worker at its wait. -/
def isWaiting : Activation → Bool
  | .worker _ .wait => true
  | _ => false

/-- The start worker from its wait to `preview_started = true`. -/
def isStarting : Activation → Bool
  | .worker _ .startPreview | .worker _ .setPreviewStarted => true
  | _ => false

/-- The start worker just before its test in `m86_start_recording_if_needed`. -/
def isAboutToRecord : Activation → Bool
  | .worker _ .startRecordingIfNeeded => true
  | _ => false

/-- The start worker from that test to `recording_started = true`. -/
def isRecording : Activation → Bool
  | .worker _ .startRecording | .worker _ .setRecordingStarted => true
  | _ => false

/-- A request past its JPEG reservation that has yet to queue a preview or a
    video output, which is what the wait of the worker looks at. -/
def wakes : Activation → Bool
  | .request pc p =>
    match pc with
    | .shutter | .metadata | .sendMetadata _ | .enqueuePreview =>
      p.previewOutput.isSome || p.videoOutput.isSome
    | .enqueueVideo => p.videoOutput.isSome
    | _ => false
  | _ => false

/-- The number of requests the wait of the worker looks at. -/
def Device.streamCount (d : Device) : ℕ :=
  (d.streamQueue false).toList.length + (d.streamQueue true).toList.length

/-- An activation that will start the preview or empty the preview queue. -/
def ServesPreview (w : World) (a : Activation) : Prop :=
  clears .preview a = true ∨ isStarting a = true ∨
    (w.device.stopPreviewStartThread = false ∧ isWaiting a = true)

/-- An activation that will start the recording or empty the video queue. -/
def ServesVideo (w : World) (a : Activation) : Prop :=
  clears .video a = true ∨ isRecording a = true ∨
    w.device.configuredVideoStream.isSome = true ∧
      (isStarting a = true ∨ (w.device.stopPreviewStartThread = false ∧ isWaiting a = true) ∨
        w.device.previewStarted = true ∧ isAboutToRecord a = true)

/-- An activation that will start the preview or empty the JPEG queue, whatever
    the other queues hold. -/
def ServesJpeg (a : Activation) : Prop :=
  clears .jpeg a = true ∨ isStarting a = true

def PreviewServed (w : World) (threads : List (List Activation)) : Prop :=
  w.device.previewStarted = true ∨ Has (ServesPreview w) threads

def VideoServed (w : World) (threads : List (List Activation)) : Prop :=
  w.device.recordingStarted = true ∨ Has (ServesVideo w) threads

/-- The JPEG queue is served, with a waiting worker if `trigger` will wake it. -/
def JpegServedIf (w : World) (threads : List (List Activation)) (trigger : Prop) : Prop :=
  w.device.previewStarted = true ∨ Has ServesJpeg threads ∨
    w.device.stopPreviewStartThread = false ∧ Has (fun a => isWaiting a = true) threads ∧ trigger

/-- A stream request waits, or one will. -/
def Wakeful (w : World) (threads : List (List Activation)) : Prop :=
  0 < w.device.streamCount ∨ Has (fun a => wakes a = true) threads

/-- Every queue that is not empty is served. -/
structure Served (w : World) (threads : List (List Activation)) : Prop where
  preview : w.device.queueFrames .preview ≠ [] → PreviewServed w threads
  video : w.device.queueFrames .video ≠ [] → VideoServed w threads
  jpeg : w.device.queueFrames .jpeg ≠ [] → JpegServedIf w threads (Wakeful w threads)

/-- The condition on a run: a request goes into a queue only while it is served
    (a JPEG request also if the worker waits and will be woken by its own
    preview or video output); the video stream is not configured away under
    waiting video requests; and nothing but a drain takes the last request that
    keeps the worker awake for a JPEG request. -/
def QueuedServed (c : State) (i : Activation) (_ : Answer) : Prop :=
  let w := c.shared
  match i with
  | .request .enqueuePreview p => p.previewOutput.isSome = true → PreviewServed w c.threads
  | .request .enqueueVideo p => p.videoOutput.isSome = true → VideoServed w c.threads
  | .request .reserve p =>
    p.jpegOutput.isSome = true → JpegServedIf w c.threads
      (Wakeful w c.threads ∨ p.previewOutput.isSome = true ∨ p.videoOutput.isSome = true)
  | .configure (.scan streams) =>
    w.device.queueFrames .video ≠ [] → w.device.recordingStarted = true ∨
      Has (fun a => clears .video a = true ∨ isRecording a = true) c.threads ∨
      ∀ roles, scanStreams streams = some roles → roles.video.isSome = true
  | .deliver _ | .errorStream _ | .worker _ .failRecording =>
    w.device.queueFrames .jpeg ≠ [] → JpegServedIf w c.threads
      (1 < w.device.streamCount ∨ Has (fun a => wakes a = true) c.threads)
  | _ => True

/-! ## What a stretch does to flags and counts -/

/-- The stretches that take back a flag; each empties all queues afterwards. -/
def unserves : Activation → Bool
  | .flush .stop | .flush .recordingStopped | .flush .previewStopped => true
  | _ => false

/-- The stretches that may take a stream request. -/
def takesStream : Activation → Bool
  | .deliver _ | .errorStream _ | .flush .drainPreview | .flush .drainVideo
  | .worker _ .failRecording | .worker _ .failPreview | .worker _ .failVideo => true
  | _ => false

/-- The stretch that sets the configured streams. -/
def configures : Activation → Bool
  | .configure (.scan _) => true
  | _ => false

section Stretch

variable {w : World} {o : Stretch} {i : Activation}

/-- The stretch takes back no flag, sets the configured streams and takes a
    stream request only where `i` says so. -/
structure Keeps (w : World) (i : Activation) (o : Stretch) : Prop where
  stop : w.device.stopPreviewStartThread = false → o.shared.device.stopPreviewStartThread = false
  preview : w.device.previewStarted = true → o.shared.device.previewStarted = true
  recording : w.device.recordingStarted = true → o.shared.device.recordingStarted = true
  configured : configures i = false →
    o.shared.device.configuredVideoStream = w.device.configuredVideoStream
  count : w.device.streamCount ≤ o.shared.device.streamCount + if takesStream i then 1 else 0

theorem streamCount_setStreamQueue (d : Device) (video : Bool) (q : Ring StreamRequest 16) :
    (d.setStreamQueue video q).streamCount + (d.streamQueue video).toList.length =
      d.streamCount + q.toList.length := by
  cases video <;>
    · simp only [Device.streamCount, Device.streamQueue_setStreamQueue, reduceCtorEq, if_true, if_false]
      omega

theorem keeps_setStreamQueue {video : Bool} {q : Ring StreamRequest 16} {push : List Activation}
    (hq : (w.device.streamQueue video).toList.length ≤
      q.toList.length + if takesStream i then 1 else 0) :
    Keeps w i (goOn (w.setDevice (w.device.setStreamQueue video q)) push) := by
  refine ⟨?_, ?_, ?_, fun _ => Device.setStreamQueue_configuredVideoStream _ _ _, ?_⟩
  · exact (Device.setStreamQueue_stopPreviewStartThread w.device video q).trans
  · exact (Device.setStreamQueue_previewStarted w.device video q).trans
  · exact (Device.setStreamQueue_recordingStarted w.device video q).trans
  · show _ ≤ (w.device.setStreamQueue video q).streamCount + _
    have := streamCount_setStreamQueue w.device video q
    omega

/-- A stretch that leaves the stream queues alone and at most sets a flag. -/
theorem keeps_goOn {w' : World} {push : List Activation}
    (hs : w'.device.stopPreviewStartThread = w.device.stopPreviewStartThread ∨
      w'.device.stopPreviewStartThread = false)
    (hp : w'.device.previewStarted = w.device.previewStarted ∨ w'.device.previewStarted = true)
    (hr : w'.device.recordingStarted = w.device.recordingStarted ∨
      w'.device.recordingStarted = true)
    (hc : configures i = false →
      w'.device.configuredVideoStream = w.device.configuredVideoStream)
    (hn : w'.device.streamCount = w.device.streamCount) : Keeps w i (goOn w' push) := by
  refine ⟨fun h => ?_, fun h => ?_, fun h => ?_, hc, ?_⟩
  · exact hs.elim (fun e => e.trans h) id
  · exact hp.elim (fun e => e.trans h) id
  · exact hr.elim (fun e => e.trans h) id
  · show _ ≤ w'.device.streamCount + _
    omega

theorem keeps_same {w' : World} {push : List Activation} (hw : w'.device = w.device) :
    Keeps w i (goOn w' push) := by
  apply keeps_goOn <;> simp [hw]

theorem takeStream_keeps {video : Bool} {found : StreamRequest → List Activation}
    {empty : List Activation} (hi : takesStream i = true) :
    Keeps w i (takeStream video found empty w) := by
  rcases takeStream_cases video found empty w with ⟨s, q, hq, h⟩ | ⟨-, h⟩
  · rw [h]
    apply keeps_setStreamQueue
    rw [hq, List.length_cons, if_pos hi]
  · rw [h]
    exact keeps_same rfl

theorem takeJpeg_keeps {still : Option JpegRequest → StillEngine}
    {found : JpegRequest → List Activation} {empty : List Activation} :
    Keeps w i (takeJpeg still found empty w) := by
  rcases takeJpeg_cases still found empty w with ⟨j, q, -, h⟩ | ⟨-, h⟩ <;>
    · rw [h]
      exact keeps_goOn (.inl rfl) (.inl rfl) (.inl rfl) (fun _ => rfl) rfl

theorem execFlush_keeps {pc : FlushPc} (h : execFlush w pc = some o)
    (hu : unserves (.flush pc) = false) : Keeps w (.flush pc) o := by
  cases pc with
  | stop | recordingStopped | previewStopped => cases hu
  | drainPreview | drainVideo =>
    obtain rfl := Option.some.inj h
    exact takeStream_keeps rfl
  | drainJpeg =>
    obtain rfl := Option.some.inj h
    exact takeJpeg_keeps
  | awaitWorker thread =>
    rw [execFlush] at h
    split_ifs at h
    obtain rfl := Option.some.inj h
    exact keeps_same rfl
  | _ =>
    obtain rfl := Option.some.inj h
    exact keeps_goOn (.inl rfl) (.inl rfl) (.inl rfl) (fun _ => rfl) rfl

theorem execWorker_keeps {thread : ℕ} {status : ℤ} {pc : WorkerPc}
    (h : execWorker thread status w pc = some o) : Keeps w (.worker thread pc) o := by
  cases pc with
  | failRecording | failPreview | failVideo =>
    obtain rfl := Option.some.inj h
    exact takeStream_keeps rfl
  | failJpeg =>
    obtain rfl := Option.some.inj h
    exact takeJpeg_keeps
  | wait =>
    rw [execWorker] at h
    split_ifs at h <;>
      · obtain rfl := Option.some.inj h
        exact keeps_same rfl
  | setPreviewStarted =>
    obtain rfl := Option.some.inj h
    exact keeps_goOn (.inl rfl) (.inr rfl) (.inl rfl) (fun _ => rfl) rfl
  | setRecordingStarted =>
    obtain rfl := Option.some.inj h
    exact keeps_goOn (.inl rfl) (.inl rfl) (.inr rfl) (fun _ => rfl) rfl
  | _ =>
    obtain rfl := Option.some.inj h
    exact keeps_same rfl

theorem execConfigure_keeps (status : ℤ) (pc : ConfigurePc) :
    Keeps w (.configure pc) (execConfigure status w pc) := by
  cases pc with
  | start streams | setParameters =>
    rw [execConfigure]
    split_ifs <;> exact keeps_same rfl
  | scan streams =>
    rw [execConfigure]
    split
    · exact keeps_same rfl
    · exact keeps_goOn (.inl rfl) (.inl rfl) (.inl rfl) (fun hc => by cases hc) rfl
  | clearStop => exact keeps_goOn (.inr rfl) (.inl rfl) (.inl rfl) (fun _ => rfl) rfl
  | setJoinable => exact keeps_goOn (.inl rfl) (.inl rfl) (.inl rfl) (fun _ => rfl) rfl
  | createWorker =>
    rw [execConfigure]
    split_ifs
    · exact ⟨id, id, id, fun _ => rfl, Nat.le_add_right _ _⟩
    · exact keeps_same rfl

theorem execRequest_keeps (p : PreviewRequest) (pc : RequestPc) :
    Keeps w (.request pc p) (execRequest p w pc) := by
  have enqueue : ∀ video output next,
      Keeps w (.request pc p) (enqueueOutput video output p next w) := by
    intro video output next
    rcases output with _ | o
    · exact keeps_same rfl
    · rcases enqueueOutput_cases video o p next w with ⟨q, hq, he⟩ | ⟨-, he⟩
      · rw [he]
        apply keeps_setStreamQueue
        rw [hq, List.length_append]
        omega
      · rw [he]
        exact keeps_same rfl
  cases pc with
  | enqueuePreview => exact enqueue _ _ _
  | enqueueVideo => exact enqueue _ _ _
  | reserve =>
    show Keeps w _ (reserveOutput p w)
    rcases reserveOutput_cases p w with ⟨-, h⟩ | ⟨o, q, -, -, -, h⟩ | ⟨o, -, -, h⟩ <;>
      · rw [h]
        exact keeps_goOn (.inl rfl) (.inl rfl) (.inl rfl) (fun _ => rfl) rfl
  | _ => exact keeps_goOn (.inl rfl) (.inl rfl) (.inl rfl) (fun _ => rfl) rfl

/-- **What a stretch can do to the flags and the counts.** -/
theorem exec_keeps {x : Answer} (h : exec i x w = some o) (hu : unserves i = false) :
    Keeps w i o := by
  cases i with
  | classify r =>
    obtain rfl := Option.some.inj h
    rcases execClassify_cases r x.nowNs w with he | ⟨p, -, -, he | he⟩ <;>
      · rw [he]
        exact keeps_same rfl
  | request pc p =>
    obtain rfl := Option.some.inj h
    exact execRequest_keeps p pc
  | flush pc => exact execFlush_keeps h hu
  | worker thread pc => exact execWorker_keeps h
  | configure pc =>
    obtain rfl := Option.some.inj h
    exact execConfigure_keeps x.status pc
  | deliver video | errorStream video =>
    obtain rfl := Option.some.inj h
    exact takeStream_keeps rfl
  | compressedImage source | engineError source | takeFailed source =>
    obtain rfl := Option.some.inj h
    exact takeJpeg_keeps
  | beginNextJpeg =>
    obtain rfl := Option.some.inj h
    rcases execBeginNextJpeg_cases w with ⟨j, -, -, -, he⟩ | he <;>
      · rw [he]
        exact keeps_goOn (.inl rfl) (.inl rfl) (.inl rfl) (fun _ => rfl) rfl
  | applyRequestControls | startNextJpegCapture | takePicture | updateControls | errorBuffer
  | bufferResult =>
    obtain rfl := Option.some.inj h
    exact keeps_goOn (.inl rfl) (.inl rfl) (.inl rfl) (fun _ => rfl) rfl

/-- What takes back a flag empties all queues afterwards. -/
theorem exec_unserves {i : Activation} {x : Answer} (h : exec i x w = some o)
    (hu : unserves i = true) : ∃ a ∈ o.push, ∀ k, clears k a = true := by
  cases i with
  | flush pc =>
    cases pc with
    | stop | recordingStopped | previewStopped =>
      obtain rfl := Option.some.inj h
      exact ⟨_, List.mem_singleton_self _, fun k => by cases k <;> rfl⟩
    | _ => cases hu
  | _ => cases hu

/-! ## What serves a queue goes on to -/

theorem exec_waiting {x : Answer} (h : exec i x w = some o) (hi : isWaiting i = true)
    (hs : w.device.stopPreviewStartThread = false) : ∃ a ∈ o.push, isStarting a = true := by
  cases i with
  | worker thread pc =>
    cases pc with
    | wait =>
      replace h : execWorker thread x.status w .wait = some o := h
      rw [execWorker] at h
      split_ifs at h with hblocked hstop
      · rw [hs] at hstop
        cases hstop
      · obtain rfl := Option.some.inj h
        exact ⟨_, List.mem_singleton_self _, rfl⟩
    | _ => cases hi
  | _ => cases hi

theorem exec_starting {x : Answer} (h : exec i x w = some o) (hi : isStarting i = true) :
    (o.shared.device.previewStarted = true ∧ ∃ a ∈ o.push, isAboutToRecord a = true) ∨
      (∃ a ∈ o.push, isStarting a = true) ∨ ∃ a ∈ o.push, ∀ k, clears k a = true := by
  cases i with
  | worker thread pc =>
    cases pc with
    | startPreview =>
      obtain rfl := Option.some.inj h
      by_cases hx : x.status = 0
      · exact .inr (.inl ⟨_, List.mem_singleton_self _, by rw [if_pos hx]; rfl⟩)
      · refine .inr (.inr ⟨_, List.mem_singleton_self _, fun k => ?_⟩)
        rw [if_neg hx]
        cases k <;> rfl
    | setPreviewStarted =>
      obtain rfl := Option.some.inj h
      exact .inl ⟨rfl, _, List.mem_singleton_self _, rfl⟩
    | _ => cases hi
  | _ => cases hi

theorem exec_aboutToRecord {x : Answer} (h : exec i x w = some o)
    (hi : isAboutToRecord i = true) (hc : w.device.configuredVideoStream.isSome = true)
    (hp : w.device.previewStarted = true) :
    o.shared.device.recordingStarted = true ∨ ∃ a ∈ o.push, isRecording a = true := by
  cases i with
  | worker thread pc =>
    cases pc with
    | startRecordingIfNeeded =>
      obtain rfl := Option.some.inj h
      rcases hr : w.device.recordingStarted with _ | _
      · refine .inr ⟨_, List.mem_singleton_self _, ?_⟩
        rw [if_pos ⟨hp, hc, rfl⟩]
        rfl
      · exact .inl hr
    | _ => cases hi
  | _ => cases hi

theorem exec_recording {x : Answer} (h : exec i x w = some o) (hi : isRecording i = true) :
    o.shared.device.recordingStarted = true ∨
      ∃ a ∈ o.push, isRecording a = true ∨ clears .video a = true := by
  cases i with
  | worker thread pc =>
    cases pc with
    | startRecording =>
      obtain rfl := Option.some.inj h
      refine .inr ⟨_, List.mem_singleton_self _, ?_⟩
      split_ifs
      · exact .inl rfl
      · exact .inr rfl
    | setRecordingStarted =>
      obtain rfl := Option.some.inj h
      exact .inl rfl
    | _ => cases hi
  | _ => cases hi

theorem enqueueOutput_wakes {video : Bool} {output : Output} {p : PreviewRequest}
    {next : RequestPc} :
    0 < (enqueueOutput video (some output) p next w).shared.device.streamCount := by
  have hlen : (w.device.streamQueue video).toList.length ≤ w.device.streamCount := by
    rw [Device.streamCount]
    cases video <;> omega
  rcases enqueueOutput_cases video output p next w with ⟨q, hq, h⟩ | ⟨hfull, h⟩
  · rw [h]
    show 0 < (w.device.setStreamQueue video q).streamCount
    have hcount := streamCount_setStreamQueue w.device video q
    rw [hq, List.length_append, List.length_singleton] at hcount
    omega
  · rw [h]
    show 0 < w.device.streamCount
    omega

theorem exec_wakes {x : Answer} (h : exec i x w = some o) (hi : wakes i = true) :
    0 < o.shared.device.streamCount ∨ ∃ a ∈ o.push, wakes a = true := by
  cases i with
  | request pc p =>
    obtain rfl := Option.some.inj h
    cases pc with
    | shutter | metadata | sendMetadata =>
      exact .inr ⟨_, List.mem_singleton_self _, hi⟩
    | enqueuePreview =>
      show 0 < (enqueueOutput false p.previewOutput p .enqueueVideo w).shared.device.streamCount ∨
        ∃ a ∈ (enqueueOutput false p.previewOutput p .enqueueVideo w).push, _
      rcases hp : p.previewOutput with _ | output
      · refine .inr ⟨_, List.mem_singleton_self _, ?_⟩
        simpa [wakes, hp] using hi
      · exact .inl enqueueOutput_wakes
    | enqueueVideo =>
      show 0 < (enqueueOutput true p.videoOutput p .startStill w).shared.device.streamCount ∨ _
      obtain ⟨output, hp⟩ := Option.isSome_iff_exists.mp hi
      rw [hp]
      exact .inl enqueueOutput_wakes
    | _ => cases hi
  | _ => cases hi

/-! ## A served queue stays served until it is empty -/

variable {A B : List (List Activation)} {rest : List Activation} {x : Answer}

theorem has_of_push {p : Activation → Prop} (h : ∃ a ∈ o.push, p a) :
    Has p (A ++ (o.push ++ rest) :: B ++ o.fork) :=
  (has_run _ _ _ _ _).mpr (.inr (.inl h))

/-- Who empties a queue or starts the preview is done, or goes on with one of the two. -/
theorem exec_clears_or_starting {k : Queue} (h : exec i x w = some o)
    (hi : clears k i = true ∨ isStarting i = true) :
    (o.shared.device.queueFrames k = [] ∨ o.shared.device.previewStarted = true) ∨
      ∃ a ∈ o.push, clears k a = true ∨ isStarting a = true := by
  rcases hi with hclears | hstart
  · rcases exec_clears h hclears with ⟨a, ha, hca⟩ | hempty
    · exact .inr ⟨a, ha, .inl hca⟩
    · exact .inl (.inl hempty)
  · rcases exec_starting h hstart with ⟨hflag, -⟩ | ⟨a, ha, hsa⟩ | ⟨a, ha, hca⟩
    · exact .inl (.inr hflag)
    · exact .inr ⟨a, ha, .inr hsa⟩
    · exact .inr ⟨a, ha, .inl (hca _)⟩

theorem previewServed_step (h : exec i x w = some o)
    (hs : PreviewServed w (A ++ (i :: rest) :: B)) :
    o.shared.device.queueFrames .preview = [] ∨
      PreviewServed o.shared (A ++ (o.push ++ rest) :: B ++ o.fork) := by
  rcases hu : unserves i with _ | _
  · have hk := exec_keeps h hu
    rcases hs with hflag | hhas
    · exact .inr (.inl (hk.preview hflag))
    · rw [PreviewServed, ← or_assoc]
      refine hhas.step (fun a ha => ?_) fun hi => ?_
      · exact ha.imp id (Or.imp id (And.imp hk.stop id))
      · rcases or_assoc.mpr hi with hserves | ⟨hstop, hwait⟩
        · rcases exec_clears_or_starting h hserves with hdone | ⟨a, ha, hsa⟩
          · exact .inl hdone
          · exact .inr ⟨a, ha, hsa.imp id .inl⟩
        · obtain ⟨a, ha, hsa⟩ := exec_waiting h hwait hstop
          exact .inr ⟨a, ha, .inr (.inl hsa)⟩
  · obtain ⟨a, ha, hca⟩ := exec_unserves h hu
    exact .inr (.inr (has_of_push ⟨a, ha, .inl (hca _)⟩))

theorem videoServed_step (h : exec i x w = some o)
    (hc : w.device.configuredVideoStream.isSome = true →
      o.shared.device.configuredVideoStream.isSome = true)
    (hs : VideoServed w (A ++ (i :: rest) :: B)) :
    o.shared.device.queueFrames .video = [] ∨
      VideoServed o.shared (A ++ (o.push ++ rest) :: B ++ o.fork) := by
  rcases hu : unserves i with _ | _
  · have hk := exec_keeps h hu
    rcases hs with hflag | hhas
    · exact .inr (.inl (hk.recording hflag))
    · rw [VideoServed, ← or_assoc]
      refine hhas.step (fun a ha => ?_) fun hi => ?_
      · refine ha.imp id (Or.imp id (And.imp hc ?_))
        exact Or.imp id (Or.imp (And.imp hk.stop id) (And.imp hk.preview id))
      · rcases hi with hclears | hrec | ⟨hconf, hstart | ⟨hstop, hwait⟩ | ⟨hprev, habout⟩⟩
        · rcases exec_clears h hclears with ⟨a, ha, hca⟩ | hempty
          · exact .inr ⟨a, ha, .inl hca⟩
          · exact .inl (.inl hempty)
        · rcases exec_recording h hrec with hflag | ⟨a, ha, hra | hca⟩
          · exact .inl (.inr hflag)
          · exact .inr ⟨a, ha, .inr (.inl hra)⟩
          · exact .inr ⟨a, ha, .inl hca⟩
        · rcases exec_starting h hstart with ⟨hflag, a, ha, haa⟩ | ⟨a, ha, hsa⟩ | ⟨a, ha, hca⟩
          · exact .inr ⟨a, ha, .inr (.inr ⟨hc hconf, .inr (.inr ⟨hflag, haa⟩)⟩)⟩
          · exact .inr ⟨a, ha, .inr (.inr ⟨hc hconf, .inl hsa⟩)⟩
          · exact .inr ⟨a, ha, .inl (hca _)⟩
        · obtain ⟨a, ha, hsa⟩ := exec_waiting h hwait hstop
          exact .inr ⟨a, ha, .inr (.inr ⟨hc hconf, .inl hsa⟩)⟩
        · rcases exec_aboutToRecord h habout hconf hprev with hflag | ⟨a, ha, hra⟩
          · exact .inl (.inr hflag)
          · exact .inr ⟨a, ha, .inr (.inl hra)⟩
  · obtain ⟨a, ha, hca⟩ := exec_unserves h hu
    exact .inr (.inr (has_of_push ⟨a, ha, .inl (hca _)⟩))

theorem jpegServedIf_step {t t' : Prop} (h : exec i x w = some o)
    (ht : unserves i = false → t → t') (hs : JpegServedIf w (A ++ (i :: rest) :: B) t) :
    o.shared.device.queueFrames .jpeg = [] ∨
      JpegServedIf o.shared (A ++ (o.push ++ rest) :: B ++ o.fork) t' := by
  rcases hu : unserves i with _ | _
  · have hk := exec_keeps h hu
    rcases hs with hflag | hhas | ⟨hstop, hwaits, htrigger⟩
    · exact .inr (.inl (hk.preview hflag))
    · rw [JpegServedIf, ← or_assoc, ← or_assoc]
      left
      exact hhas.step (fun a => id) fun hi => exec_clears_or_starting h hi
    · right
      right
      -- the waiting worker is another one, or it goes on to start the preview
      have hafter : Has ServesJpeg (A ++ (o.push ++ rest) :: B ++ o.fork) ∨
          Has (fun a => isWaiting a = true) (A ++ (o.push ++ rest) :: B ++ o.fork) := by
        refine hwaits.step (fun a => id) fun hi => .inl (has_of_push ?_)
        obtain ⟨a, ha, hsa⟩ := exec_waiting h hi hstop
        exact ⟨a, ha, .inr hsa⟩
      exact hafter.imp id fun hwaits' => ⟨hk.stop hstop, hwaits', ht hu htrigger⟩
  · obtain ⟨a, ha, hca⟩ := exec_unserves h hu
    exact .inr (.inr (.inl (has_of_push ⟨a, ha, .inl (hca _)⟩)))

/-- What keeps a waiting worker awake does so still, unless it was taken. -/
theorem wakeful_step {m : ℕ} (h : exec i x w = some o) (hu : unserves i = false)
    (hm : takesStream i = true → 1 ≤ m)
    (hs : m < w.device.streamCount ∨ Has (fun a => wakes a = true) (A ++ (i :: rest) :: B)) :
    Wakeful o.shared (A ++ (o.push ++ rest) :: B ++ o.fork) := by
  rcases hs with hcount | hhas
  · left
    have hk := (exec_keeps h hu).count
    split_ifs at hk with htakes
    · have := hm htakes
      omega
    · omega
  · exact hhas.step (fun a => id) (exec_wakes h)

/-! ## The invariant -/

/-- A frame that is in a queue after the stretch was there before, or was just
    put there. -/
theorem filled_of_queueFrames {k : Queue} (h : exec i x w = some o)
    (hne : o.shared.device.queueFrames k ≠ []) :
    w.device.queueFrames k ≠ [] ∨
      ∃ p, i = .request k.filledAt p ∧ (k.outputOf p).isSome = true := by
  obtain ⟨n, hn⟩ := List.exists_mem_of_ne_nil _ hne
  rcases exec_queueFrames h hn with hbefore | ⟨p, hi, -, hp⟩
  · exact .inl (List.ne_nil_of_mem hbefore)
  · exact .inr ⟨p, hi, hp⟩

theorem videoServed_scan {streams : List (Option Stream)}
    (h : exec (.configure (.scan streams)) x w = some o)
    (hg : QueuedServed ⟨w, A ++ (.configure (.scan streams) :: rest) :: B⟩
      (.configure (.scan streams)) x) (hne : w.device.queueFrames .video ≠ [])
    (hs : VideoServed w (A ++ (.configure (.scan streams) :: rest) :: B)) :
    o.shared.device.queueFrames .video = [] ∨
      VideoServed o.shared (A ++ (o.push ++ rest) :: B ++ o.fork) := by
  rcases hg hne with hflag | hhas | hroles
  · exact .inr (.inl ((exec_keeps h rfl).recording hflag))
  · refine .inr (hhas.step (fun a ha => ?_) fun hi => ?_)
    · exact ha.imp id .inl
    · rcases hi with hi | hi <;> cases hi
  · refine videoServed_step h (fun hconf => ?_) hs
    obtain rfl := Option.some.inj h
    rw [execConfigure]
    rcases hscan : scanStreams streams with _ | roles
    · exact hconf
    · show (roles.video.map Stream.address).isSome = true
      rw [Option.isSome_map]
      exact hroles roles hscan

/-- A JPEG request that was just reserved wakes the worker with its own outputs. -/
theorem jpegServed_reserve {p : PreviewRequest}
    (h : exec (.request .reserve p) x w = some o)
    (hg : QueuedServed ⟨w, A ++ (.request .reserve p :: rest) :: B⟩ (.request .reserve p) x)
    (hempty : w.device.queueFrames .jpeg = []) (hne : o.shared.device.queueFrames .jpeg ≠ []) :
    JpegServedIf o.shared (A ++ (o.push ++ rest) :: B ++ o.fork)
      (Wakeful o.shared (A ++ (o.push ++ rest) :: B ++ o.fork)) := by
  have he : o = reserveOutput p w := (Option.some.inj h).symm
  rcases reserveOutput_cases p w with ⟨-, hr⟩ | ⟨output, q, hp, -, -, hr⟩ | ⟨output, -, -, hr⟩
  · rw [he, hr] at hne
    exact absurd hempty hne
  · refine (jpegServedIf_step h (fun hu ht => ?_)
      (hg (Option.isSome_of_eq_some hp))).resolve_left hne
    rcases ht with hwake | houts
    · exact wakeful_step h hu (fun htakes => by cases htakes) hwake
    · refine .inr (has_of_push ⟨.request .shutter p, ?_, ?_⟩)
      · rw [he, hr]
        exact List.mem_singleton_self _
      · simpa [wakes] using houts
  · rw [he, hr] at hne
    exact absurd hempty hne

/-- **One stretch keeps every queue served.** -/
theorem served_step (h : exec i x w = some o)
    (hg : QueuedServed ⟨w, A ++ (i :: rest) :: B⟩ i x) (hs : Served w (A ++ (i :: rest) :: B)) :
    Served o.shared (A ++ (o.push ++ rest) :: B ++ o.fork) := by
  constructor
  · intro hne
    refine (previewServed_step h ?_).resolve_left hne
    rcases filled_of_queueFrames h hne with hbefore | ⟨p, rfl, hp⟩
    · exact hs.preview hbefore
    · exact hg hp
  · intro hne
    by_cases hc : ∃ streams, i = .configure (.scan streams)
    · obtain ⟨streams, rfl⟩ := hc
      have hbefore : w.device.queueFrames .video ≠ [] := by
        rcases filled_of_queueFrames h hne with hbefore | ⟨p, hi, -⟩
        · exact hbefore
        · cases hi
      exact (videoServed_scan h hg hbefore (hs.video hbefore)).resolve_left hne
    · have hconf : unserves i = false → w.device.configuredVideoStream.isSome = true →
          o.shared.device.configuredVideoStream.isSome = true := by
        intro hu hsome
        rw [(exec_keeps h hu).configured ?_]
        · exact hsome
        · cases i with
          | configure pc =>
            cases pc with
            | scan streams => exact absurd ⟨streams, rfl⟩ hc
            | _ => rfl
          | _ => rfl
      rcases hu : unserves i with _ | _
      · refine (videoServed_step h (hconf hu) ?_).resolve_left hne
        rcases filled_of_queueFrames h hne with hbefore | ⟨p, rfl, hp⟩
        · exact hs.video hbefore
        · exact hg hp
      · obtain ⟨a, ha, hca⟩ := exec_unserves h hu
        exact .inr (has_of_push ⟨a, ha, .inl (hca _)⟩)
  · intro hne
    by_cases hbefore : w.device.queueFrames .jpeg = []
    · rcases filled_of_queueFrames h hne with hne' | ⟨p, rfl, -⟩
      · exact absurd hbefore hne'
      · exact jpegServed_reserve h hg hbefore hne
    · rcases hclears : clears .jpeg i with _ | _
      · rcases htakes : takesStream i with _ | _
        · refine (jpegServedIf_step h (fun hu => ?_) (hs.jpeg hbefore)).resolve_left hne
          exact wakeful_step h hu fun ht => by rw [htakes] at ht; cases ht
        · -- a delivery, a stream error or a failed recording
          have hkeeps : JpegServedIf w (A ++ (i :: rest) :: B)
              (1 < w.device.streamCount ∨
                Has (fun a => wakes a = true) (A ++ (i :: rest) :: B)) := by
            cases i with
            | deliver video | errorStream video => exact hg hbefore
            | flush pc =>
              cases pc with
              | drainPreview | drainVideo => cases hclears
              | _ => cases htakes
            | worker thread pc =>
              cases pc with
              | failRecording => exact hg hbefore
              | failPreview | failVideo => cases hclears
              | _ => cases htakes
            | _ => cases htakes
          refine (jpegServedIf_step h (fun hu => ?_) hkeeps).resolve_left hne
          exact wakeful_step h hu fun _ => le_rfl
      · rcases exec_clears h hclears with ⟨a, ha, hca⟩ | hempty
        · exact .inr (.inl (has_of_push ⟨a, ha, .inl hca⟩))
        · exact absurd hempty hne

end Stretch

/-! ## Runs -/

/-- A call changes no queue and no flag, and only adds a thread. -/
theorem Served.call {w w' : World} {threads : List (List Activation)} {stack : List Activation}
    (h : Served w threads) (hw : w'.device = w.device) : Served w' (threads ++ [stack]) := by
  have more : ∀ {p q : Activation → Prop}, (∀ a, p a → q a) → Has p threads →
      Has q (threads ++ [stack]) :=
    fun hpq hhas => (has_append _ _).mpr (.inl (hhas.mono hpq))
  refine ⟨fun hne => ?_, fun hne => ?_, fun hne => ?_⟩
  · rw [hw] at hne
    refine (h.preview hne).imp (fun hflag => by rwa [hw]) (more fun a ha => ?_)
    rwa [ServesPreview, hw]
  · rw [hw] at hne
    refine (h.video hne).imp (fun hflag => by rwa [hw]) (more fun a ha => ?_)
    rwa [ServesVideo, hw]
  · rw [hw] at hne
    rw [JpegServedIf, Wakeful, hw]
    refine (h.jpeg hne).imp id (Or.imp (more fun a => id) ?_)
    rintro ⟨hstop, hwaits, htrigger⟩
    exact ⟨hstop, more (fun a => id) hwaits, htrigger.imp id (more fun a => id)⟩

variable {cameraId : ℕ} {c : State}

/-- In every run in which requests are queued where they are served, every queue
    that is not empty is served. -/
theorem served (h : Reach translator QueuedServed (State.opened cameraId) c) :
    Served c.shared c.threads := by
  induction h with
  | refl => exact ⟨fun hne => absurd rfl hne, fun hne => absurd rfl hne, fun hne => absurd rfl hne⟩
  | tail _ hstep ih =>
    cases hstep with
    | call k henter =>
      apply ih.call
      rcases enter_cases henter with ⟨r, -, rfl, -⟩ | ⟨u, a, rfl, -, -⟩ <;> rfl
    | run x hgood hexec => exact served_step hexec hgood ih

/-- A start worker is at its wait, whose condition is false without a stop. -/
def WorkerReady (c : State) : Prop :=
  (∃ thread, [Activation.worker thread .wait] ∈ c.threads) ∧
    c.shared.device.stopPreviewStartThread = false ∧ 0 < c.shared.device.streamCount

/-- Such a worker goes on to start the preview. -/
theorem workerReady_starts (h : WorkerReady c) (thread : ℕ) (x : Answer) :
    exec (.worker thread .wait) x c.shared =
      some (goOn c.shared [.worker thread .startPreview]) := by
  obtain ⟨-, hstop, hcount⟩ := h
  have hsome : ¬ (c.shared.device.pending.count = 0 ∧ c.shared.device.videoPending.count = 0 ∧
      c.shared.device.stopPreviewStartThread = false) := by
    rintro ⟨hpreview, hvideo, -⟩
    rw [Device.streamCount, Ring.length_toList, Ring.length_toList] at hcount
    have : c.shared.device.pending.count + c.shared.device.videoPending.count ≠ 0 := hcount.ne'
    omega
  show execWorker thread x.status c.shared .wait = _
  rw [execWorker, if_neg hsome, hstop]
  rfl

/-- Something will drain what is pending: the preview has been started if there
    are preview or JPEG requests, the recording if there are video requests, or
    a start worker is about to go on. -/
def NotStranded (c : State) : Prop :=
  (c.shared.device.queueFrames .preview ≠ [] ∨ c.shared.device.queueFrames .jpeg ≠ [] →
    c.shared.device.previewStarted = true ∨ WorkerReady c) ∧
  (c.shared.device.queueFrames .video ≠ [] →
    c.shared.device.recordingStarted = true ∨ WorkerReady c)

theorem streamCount_pos {d : Device} (video : Bool) (h : d.queueFrames (.stream video) ≠ []) :
    0 < d.streamCount := by
  rw [Device.queueFrames_stream] at h
  have hlen := List.length_pos_iff.mpr h
  rw [List.length_map] at hlen
  rw [Device.streamCount]
  cases video <;> omega

theorem has_of_quiet {p : Activation → Prop} (hquiet : Quiet c) (h : Has p c.threads) :
    ∃ thread, [Activation.worker thread .wait] ∈ c.threads ∧ p (.worker thread .wait) := by
  obtain ⟨stack, hs, a, ha, hp⟩ := h
  rcases hquiet stack hs with rfl | ⟨thread, rfl⟩
  · cases ha
  · obtain rfl := List.mem_singleton.mp ha
    exact ⟨thread, hs, hp⟩

/-- **Main theorem: no pending request is stranded** once nothing is in progress,
    in every run in which requests are queued where they are served. -/
theorem requests_not_stranded (h : Reach translator QueuedServed (State.opened cameraId) c)
    (hquiet : Quiet c) : NotStranded c := by
  have hserved := served h
  refine ⟨fun hne => ?_, fun hne => ?_⟩
  · by_cases hpreview : c.shared.device.queueFrames .preview = []
    · rcases hserved.jpeg (hne.resolve_left (absurd hpreview)) with hflag | hhas |
        ⟨hstop, hwaits, htrigger⟩
      · exact .inl hflag
      · obtain ⟨thread, -, hclears | hstart⟩ := has_of_quiet hquiet hhas
        · cases hclears
        · cases hstart
      · obtain ⟨thread, hmem, -⟩ := has_of_quiet hquiet hwaits
        rcases htrigger with hcount | hhas
        · exact .inr ⟨⟨thread, hmem⟩, hstop, hcount⟩
        · exact absurd (has_of_quiet hquiet hhas) (by simp [wakes])
    · rcases hserved.preview hpreview with hflag | hhas
      · exact .inl hflag
      · obtain ⟨thread, hmem, hclears | hstart | ⟨hstop, -⟩⟩ := has_of_quiet hquiet hhas
        · cases hclears
        · cases hstart
        · exact .inr ⟨⟨thread, hmem⟩, hstop, streamCount_pos false hpreview⟩
  · rcases hserved.video hne with hflag | hhas
    · exact .inl hflag
    · obtain ⟨thread, hmem, hserves⟩ := has_of_quiet hquiet hhas
      rcases hserves with hclears | hrec | ⟨-, hstart | ⟨hstop, -⟩ | ⟨-, habout⟩⟩
      · cases hclears
      · cases hrec
      · cases hstart
      · exact .inr ⟨⟨thread, hmem⟩, hstop, streamCount_pos true hne⟩
      · cases habout

/-! ## Two runs -/

/-- A check for `QueuedServed` that tells the positions of a preview request from
    those of all others. -/
def queuedServed (c : State) (i : Activation) (_ : Answer) : Bool :=
  match i with
  | .request .enqueuePreview _ =>
    !c.shared.device.stopPreviewStartThread && c.threads.any fun stack => stack.any isWaiting
  | .request .enqueueVideo p => p.videoOutput.isNone
  | .request .reserve p => p.jpegOutput.isNone
  | .configure (.scan _) => c.shared.device.queueFrames .video = []
  | .deliver _ | .errorStream _ | .worker _ .failRecording =>
    c.shared.device.queueFrames .jpeg = []
  | _ => true

theorem queuedServed_sound (c : State) (i : Activation) (x : Answer)
    (h : queuedServed c i x = true) : QueuedServed c i x := by
  cases i with
  | request pc p =>
    cases pc with
    | enqueuePreview =>
      intro _
      obtain ⟨hstop, hwaits⟩ := Bool.and_eq_true_iff.mp h
      obtain ⟨stack, hs, a, ha, hwait⟩ : Has (fun a => isWaiting a = true) c.threads := by
        simpa [Has] using hwaits
      exact .inr ⟨stack, hs, a, ha, .inr (.inr ⟨by simpa using hstop, hwait⟩)⟩
    | enqueueVideo =>
      intro hp
      rw [Option.isNone_iff_eq_none.mp h] at hp
      cases hp
    | reserve =>
      intro hp
      rw [Option.isNone_iff_eq_none.mp h] at hp
      cases hp
    | _ => trivial
  | configure pc =>
    cases pc with
    | scan streams => exact fun hne => absurd (of_decide_eq_true h) hne
    | _ => trivial
  | deliver video | errorStream video => exact fun hne => absurd (of_decide_eq_true h) hne
  | worker thread pc =>
    cases pc with
    | failRecording => exact fun hne => absurd (of_decide_eq_true h) hne
    | _ => trivial
  | _ => trivial

/-- The preview is configured and a request for it is queued. -/
def previewQueued : State :=
  (State.opened 0).after queuedServed
    (configureStill ++ .call (.processCaptureRequest
      ⟨1, none, none, [⟨some 1, some 10, -1, 0⟩]⟩) :: List.replicate 10 (go 2))

theorem previewQueued_not_stranded :
    (previewQueued.shared.device.queueFrames .preview = [1] ∧ Quiet previewQueued) ∧
      NotStranded previewQueued := by
  have hquiet : Quiet previewQueued := by
    intro stack hs
    have hall : ∀ stack ∈ previewQueued.threads, stack = [] ∨ stack = [.worker 0 .wait] := by decide
    exact (hall stack hs).imp id fun h => ⟨0, h⟩
  exact ⟨⟨rfl, hquiet⟩, requests_not_stranded (reach_after queuedServed_sound rfl) hquiet⟩

/-- The preview is configured and flushed; then a request for it is queued. -/
def flushedEnd : State :=
  (State.opened 0).after (fun _ _ _ => true)
    (configureStill ++ .call .flush :: [go 2, go 1, go 1] ++ List.replicate 10 (go 2) ++
      .call (.processCaptureRequest ⟨1, none, none, [⟨some 1, some 10, -1, 0⟩]⟩) ::
        List.replicate 10 (go 3))

/-- A request after a flush finds no worker and no preview. -/
theorem requests_stranded :
    ¬ ∀ c, Reach translator AnyStep (State.opened 0) c → Quiet c → NotStranded c := by
  intro hall
  have hreach : Reach translator AnyStep (State.opened 0) flushedEnd :=
    reach_after (fun _ _ _ _ => trivial) rfl
  have hidle : ∀ stack ∈ flushedEnd.threads, stack = [] := by decide
  obtain ⟨hpreview, -⟩ := hall flushedEnd hreach fun stack hs => .inl (hidle stack hs)
  rcases hpreview (.inl (by decide)) with hflag | ⟨⟨thread, hmem⟩, -, -⟩
  · cases hflag
  · cases hidle _ hmem

end Pro5Android.Camera
