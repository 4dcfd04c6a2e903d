import Pro5Android.Camera.Translator
import Mathlib.Algebra.BigOperators.Group.Multiset.Basic

/-!
# What the stretches of the translator do

The inversion lemmas of the functions that work on a queue, and the two facts
about single stretches that all invariants share: what a stretch sends to the
framework depends on its activation alone, and only the code of
`process_capture_request` touches the bookkeeping of requests.

Results:
* `takeStream_cases`, `takeJpeg_cases`, `enqueueOutput_cases`,
  `reserveOutput_cases`, `execBeginNextJpeg_cases`, `execClassify_cases`.
* `exec_off`: code outside `process_capture_request` starts no request code,
  leaves the bookkeeping of requests alone and puts nothing into a queue.
* `exec_log`: the log grows by `Activation.emits`.
* `exec_clears`: a loop that empties a queue goes on until the queue is empty.
-/

namespace Pro5Android.Camera

open Lib Lib.Machine

attribute [simp] goOn World.setDevice World.setStill World.send World.returned
  World.requestReturned

/-! ## Functions that work on a queue -/

theorem takeStream_cases (video : Bool) (found : StreamRequest → List Activation)
    (empty : List Activation) (w : World) :
    (∃ s q, (w.device.streamQueue video).toList = s :: q.toList ∧
      takeStream video found empty w =
        goOn (w.setDevice (w.device.setStreamQueue video q)) (found s)) ∨
    (w.device.streamQueue video).toList = [] ∧ takeStream video found empty w = goOn w empty := by
  rw [takeStream]
  rcases h : w.device.dequeueStreamRequest video with _ | ⟨s, d⟩
  · exact .inr ⟨Device.dequeueStreamRequest_eq_none.mp h, rfl⟩
  · obtain ⟨q, hq, rfl⟩ := Device.dequeueStreamRequest_eq_some h
    exact .inl ⟨s, q, hq, rfl⟩

theorem takeJpeg_cases (still : Option JpegRequest → StillEngine)
    (found : JpegRequest → List Activation) (empty : List Activation) (w : World) :
    (∃ j q, w.device.pendingJpeg.toList = j :: q.toList ∧
      takeJpeg still found empty w =
        goOn ((w.setDevice { w.device with pendingJpeg := q, jpegCaptureActive := false }).setStill
          (still (some j))) (found j)) ∨
    w.device.pendingJpeg.toList = [] ∧
      takeJpeg still found empty w = goOn (w.setStill (still none)) empty := by
  rw [takeJpeg]
  rcases h : w.device.takeJpegRequest with _ | ⟨j, d⟩
  · exact .inr ⟨Device.takeJpegRequest_eq_none.mp h, rfl⟩
  · obtain ⟨q, hq, rfl⟩ := Device.takeJpegRequest_eq_some h
    exact .inl ⟨j, q, hq, rfl⟩

theorem enqueueOutput_cases (video : Bool) (o : Output) (p : PreviewRequest) (next : RequestPc)
    (w : World) :
    (∃ q, q.toList = (w.device.streamQueue video).toList ++ [⟨p.frameNumber, p.timestampNs, o⟩] ∧
      enqueueOutput video (some o) p next w =
        goOn (w.setDevice (w.device.setStreamQueue video q)) [.request next p]) ∨
    (w.device.streamQueue video).toList.length = 16 ∧
      enqueueOutput video (some o) p next w =
        goOn w (sendStreamResult ⟨p.frameNumber, p.timestampNs, o⟩ false ++ [.request next p]) := by
  rw [enqueueOutput]
  rcases h : w.device.enqueueStreamRequest ⟨p.frameNumber, p.timestampNs, o⟩ video with _ | d
  · exact .inr ⟨Device.enqueueStreamRequest_eq_none.mp h, by simp only⟩
  · obtain ⟨q, hq, rfl⟩ := Device.enqueueStreamRequest_eq_some h
    exact .inl ⟨q, hq, by simp only⟩

/-- The entry the reservation makes for the JPEG output `o` of `p`. -/
def PreviewRequest.jpegRequest (p : PreviewRequest) (o : Output) : JpegRequest :=
  ⟨true, p.frameNumber, p.timestampNs, o⟩

theorem reserveOutput_cases (p : PreviewRequest) (w : World) :
    (p.jpegOutput = none ∧ reserveOutput p w = goOn w [.request .shutter p]) ∨
    (∃ o q, p.jpegOutput = some o ∧ w.device.flushing = false ∧
      q.toList = w.device.pendingJpeg.toList ++ [p.jpegRequest o] ∧
      reserveOutput p w =
        goOn (w.setDevice { w.device with pendingJpeg := q }) [.request .shutter p]) ∨
    (∃ o, p.jpegOutput = some o ∧ w.device.reserveJpegRequest (p.jpegRequest o) = none ∧
      reserveOutput p w = goOn w [.request .notifyError p]) := by
  rw [reserveOutput]
  rcases hp : p.jpegOutput with _ | o
  · exact .inl ⟨rfl, rfl⟩
  · rcases h : w.device.reserveJpegRequest (p.jpegRequest o) with _ | d
    · refine .inr (.inr ⟨o, rfl, h, ?_⟩)
      rw [PreviewRequest.jpegRequest] at h
      simp only [h]
    · obtain ⟨hf, q, hq, rfl⟩ := Device.reserveJpegRequest_eq_some h
      refine .inr (.inl ⟨o, q, rfl, hf, hq, ?_⟩)
      rw [PreviewRequest.jpegRequest] at h
      simp only [h]

theorem execBeginNextJpeg_cases (w : World) :
    (∃ j, w.device.flushing = false ∧ w.device.jpegCaptureActive = false ∧
      w.device.pendingJpeg.toList.head? = some j ∧
      execBeginNextJpeg w = goOn (w.setDevice { w.device with jpegCaptureActive := true })
        [.updateControls .flashFired, .takePicture j]) ∨
    execBeginNextJpeg w = goOn w [] := by
  rw [execBeginNextJpeg]
  rcases h : w.device.beginNextJpegRequest with _ | ⟨j, d⟩
  · exact .inr rfl
  · obtain ⟨hf, ha, hj, rfl⟩ := Device.beginNextJpegRequest_eq_some h
    exact .inl ⟨j, hf, ha, hj, rfl⟩

/-- A call is refused, or its request is accepted and goes on, with an error or
    with its controls. -/
theorem execClassify_cases (r : CaptureRequest) (nowNs : ℤ) (w : World) :
    (execClassify r nowNs w = goOn (w.requestReturned r.frameNumber eInval) []) ∨
    ∃ p, p.frameNumber = r.frameNumber ∧ p.outputs = r.outputs ∧
      (execClassify r nowNs w =
          goOn { w with accepted := w.accepted ++ [r] } [.request .notifyError p] ∨
        execClassify r nowNs w =
          goOn { w with accepted := w.accepted ++ [r] }
            [.applyRequestControls r.settings, .request .reserve p]) := by
  rw [execClassify]
  rcases h : classifyRequest w.device r nowNs with _ | ⟨p, fenceFailed⟩
  · exact .inl rfl
  · obtain ⟨hframe, hout⟩ := classifyRequest_sound h
    refine .inr ⟨p, hframe, hout, ?_⟩
    by_cases herr : fenceFailed ∨ p.recognised = []
    · exact .inl (by simp only [herr, if_true])
    · exact .inr (by simp only [herr, if_false])

/-! ## What a stretch sends -/

/-- What an activation sends to the framework in its next stretch. -/
def Activation.emits : Activation → List Event
  | .request .notifyError p => [.errorRequest p.frameNumber]
  | .request .errorResult p => [.result p.frameNumber none (p.outputs.map fun o => (o, .error))]
  | .request .shutter p => [.shutter p.frameNumber p.timestampNs]
  | .request (.sendMetadata metadata) p => [.result p.frameNumber (some metadata) []]
  | .errorBuffer frameNumber stream => [.errorBuffer frameNumber stream]
  | .bufferResult frameNumber output status => [.result frameNumber none [(output, status)]]
  | _ => []

/-- The code of `process_capture_request` itself. -/
def Activation.isRequestCode : Activation → Bool
  | .classify _ | .request _ _ => true
  | _ => false

/-- A stretch outside the request code that sends `sent`: it starts no request
    code, leaves the bookkeeping of requests alone, takes from the front of the
    queues at most, and starts no thread but a worker. -/
structure OffRequest (w : World) (sent : List Event) (o : Stretch) : Prop where
  log : o.shared.log = w.log ++ sent
  frames : o.shared.frames = w.frames
  accepted : o.shared.accepted = w.accepted
  requestReturns : o.shared.requestReturns = w.requestReturns
  queues : ∀ k, o.shared.device.queueFrames k <:+ w.device.queueFrames k
  push : ∀ a ∈ o.push, a.isRequestCode = false
  fork : o.fork = [] ∨ ∃ thread, o.fork = [[.worker thread .wait]]

section Off

variable {w : World} {o : Stretch}

theorem OffRequest.weigh_fork {N : Type*} [AddCommMonoid N] {f : Activation → N}
    {sent : List Event} (h : OffRequest w sent o) (hf : ∀ thread, f (.worker thread .wait) = 0) :
    weigh f o.fork = 0 := by
  rcases h.fork with hfork | ⟨thread, hfork⟩ <;> simp [hfork, hf]

theorem OffRequest.every_fork {p : Activation → Prop} {sent : List Event}
    (h : OffRequest w sent o) (hp : ∀ thread, p (.worker thread .wait)) : Every p o.fork := by
  rcases h.fork with hfork | ⟨thread, hfork⟩ <;> simp [hfork, hp, Every]

theorem offRequest_goOn {w' : World} {sent : List Event} {push : List Activation}
    (hl : w'.log = w.log ++ sent) (hf : w'.frames = w.frames) (ha : w'.accepted = w.accepted)
    (hr : w'.requestReturns = w.requestReturns)
    (hq : ∀ k, w'.device.queueFrames k <:+ w.device.queueFrames k)
    (hp : ∀ a ∈ push, a.isRequestCode = false) : OffRequest w sent (goOn w' push) :=
  ⟨hl, hf, ha, hr, hq, hp, .inl rfl⟩

/-- A stretch that sets fields of the device, but no queue, or the still captures. -/
theorem offRequest_set {d : Device} {e : StillEngine} {r : List Return} {t : List ℕ}
    {push : List Activation} (hp : ∀ a ∈ push, a.isRequestCode = false)
    (hq : ∀ k, d.queueFrames k = w.device.queueFrames k := by intro k; cases k <;> rfl) :
    OffRequest w []
      (goOn { w with device := d, still := e, returns := r, exited := t } push) :=
  offRequest_goOn (List.append_nil _).symm rfl rfl rfl (fun k => by rw [hq k]) hp

theorem sendStreamResult_off (s : StreamRequest) (success : Bool) :
    ∀ a ∈ sendStreamResult s success, a.isRequestCode = false := by
  cases success <;> simp [sendStreamResult, Activation.isRequestCode]

theorem sendJpegError_off (j : JpegRequest) :
    ∀ a ∈ sendJpegError j, a.isRequestCode = false := by
  simp [sendJpegError, Activation.isRequestCode]

theorem sendJpegResult_off (j : JpegRequest) (status : ℤ) :
    ∀ a ∈ sendJpegResult j status, a.isRequestCode = false := by
  rw [sendJpegResult]
  split_ifs
  · simp [Activation.isRequestCode]
  · exact sendJpegError_off j

theorem takeStream_off {video : Bool} {found : StreamRequest → List Activation}
    {empty : List Activation} (hf : ∀ s, ∀ a ∈ found s, a.isRequestCode = false)
    (he : ∀ a ∈ empty, a.isRequestCode = false) :
    OffRequest w [] (takeStream video found empty w) := by
  rcases takeStream_cases video found empty w with ⟨s, q, hq, h⟩ | ⟨-, h⟩
  · rw [h]
    refine offRequest_goOn (List.append_nil _).symm rfl rfl rfl (fun k => ?_) (hf s)
    show (w.device.setStreamQueue video q).queueFrames k <:+ _
    rw [Device.queueFrames_setStreamQueue]
    split_ifs with hk
    · rw [hk, Device.queueFrames_stream, hq]
      exact List.suffix_cons _ _
    · exact List.suffix_rfl
  · rw [h]
    exact offRequest_set he

theorem takeJpeg_off {still : Option JpegRequest → StillEngine}
    {found : JpegRequest → List Activation} {empty : List Activation}
    (hf : ∀ j, ∀ a ∈ found j, a.isRequestCode = false)
    (he : ∀ a ∈ empty, a.isRequestCode = false) :
    OffRequest w [] (takeJpeg still found empty w) := by
  rcases takeJpeg_cases still found empty w with ⟨j, q, hq, h⟩ | ⟨-, h⟩
  · rw [h]
    refine offRequest_goOn (List.append_nil _).symm rfl rfl rfl (fun k => ?_) (hf j)
    cases k with
    | jpeg =>
      show q.toList.map _ <:+ w.device.pendingJpeg.toList.map _
      rw [hq]
      exact List.suffix_cons _ _
    | preview | video => exact List.suffix_rfl
  · rw [h]
    exact offRequest_set he

theorem drainStream_off {video : Bool} {again next : Activation}
    (ha : again.isRequestCode = false) (hn : next.isRequestCode = false) :
    OffRequest w [] (drainStream video again next w) := by
  refine takeStream_off (fun s a hmem => ?_) (by simpa using hn)
  rcases List.mem_append.mp hmem with hmem | hmem
  · exact sendStreamResult_off s false a hmem
  · rwa [List.mem_singleton.mp hmem]

theorem drainJpeg_off {again next : Activation} (ha : again.isRequestCode = false)
    (hn : next.isRequestCode = false) : OffRequest w [] (drainJpeg again next w) := by
  refine takeJpeg_off (fun j a hmem => ?_) (by simpa using hn)
  rcases List.mem_append.mp hmem with hmem | hmem
  · exact sendJpegError_off j a hmem
  · rwa [List.mem_singleton.mp hmem]

theorem execFlush_off {pc : FlushPc} (h : execFlush w pc = some o) : OffRequest w [] o := by
  cases pc with
  | drainPreview | drainVideo =>
    obtain rfl := Option.some.inj h
    exact drainStream_off rfl rfl
  | drainJpeg =>
    obtain rfl := Option.some.inj h
    exact drainJpeg_off rfl rfl
  | awaitWorker thread =>
    rw [execFlush] at h
    split_ifs at h
    obtain rfl := Option.some.inj h
    exact offRequest_set (by simp [Activation.isRequestCode])
  | _ =>
    obtain rfl := Option.some.inj h
    exact offRequest_set (by simp [Activation.isRequestCode])

theorem execWorker_off {thread : ℕ} {status : ℤ} {pc : WorkerPc}
    (h : execWorker thread status w pc = some o) : OffRequest w [] o := by
  cases pc with
  | failRecording | failPreview | failVideo =>
    obtain rfl := Option.some.inj h
    exact drainStream_off rfl rfl
  | failJpeg =>
    obtain rfl := Option.some.inj h
    exact drainJpeg_off rfl rfl
  | wait =>
    rw [execWorker] at h
    split_ifs at h <;>
      · obtain rfl := Option.some.inj h
        exact offRequest_set (by simp [Activation.isRequestCode])
  | _ =>
    obtain rfl := Option.some.inj h
    exact offRequest_set (by simp [Activation.isRequestCode])

theorem execConfigure_off (status : ℤ) (pc : ConfigurePc) :
    OffRequest w [] (execConfigure status w pc) := by
  cases pc with
  | start streams =>
    rw [execConfigure]
    split_ifs <;> exact offRequest_set (by simp [Activation.isRequestCode])
  | scan streams =>
    rw [execConfigure]
    split <;> exact offRequest_set (by simp [Activation.isRequestCode])
  | setParameters =>
    rw [execConfigure]
    split_ifs <;> exact offRequest_set (by simp [Activation.isRequestCode])
  | clearStop | setJoinable => exact offRequest_set (by simp [Activation.isRequestCode])
  | createWorker =>
    rw [execConfigure]
    split_ifs
    · exact ⟨(List.append_nil _).symm, rfl, rfl, rfl, fun k => by cases k <;> exact List.suffix_rfl,
        by simp [Activation.isRequestCode], .inr ⟨_, rfl⟩⟩
    · exact offRequest_set (by simp)

/-- **Only the request code touches the bookkeeping of requests.** -/
theorem exec_off {i : Activation} {x : Answer} (h : exec i x w = some o)
    (hi : i.isRequestCode = false) : OffRequest w i.emits o := by
  cases i with
  | classify r => cases hi
  | request pc p => cases hi
  | flush pc => exact execFlush_off h
  | configure pc =>
    obtain rfl := Option.some.inj h
    exact execConfigure_off x.status pc
  | worker thread pc => exact execWorker_off h
  | deliver video =>
    obtain rfl := Option.some.inj h
    exact takeStream_off (fun s => sendStreamResult_off s _) (by simp)
  | errorStream video =>
    obtain rfl := Option.some.inj h
    exact takeStream_off (fun s => sendStreamResult_off s _) (by simp)
  | compressedImage source =>
    obtain rfl := Option.some.inj h
    refine takeJpeg_off (fun j a hmem => ?_) (by simp [Activation.isRequestCode])
    rcases List.mem_append.mp hmem with hmem | hmem
    · exact sendJpegResult_off j _ a hmem
    · rw [List.mem_singleton.mp hmem]
      rfl
  | engineError source =>
    obtain rfl := Option.some.inj h
    refine takeJpeg_off (fun j a hmem => ?_) (by simp [Activation.isRequestCode])
    rcases List.mem_append.mp hmem with hmem | hmem
    · exact sendJpegError_off j a hmem
    · rw [List.mem_singleton.mp hmem]
      rfl
  | takeFailed j =>
    obtain rfl := Option.some.inj h
    refine takeJpeg_off (fun j a hmem => ?_) (by simp)
    rcases List.mem_append.mp hmem with hmem | hmem
    · exact sendJpegError_off j a hmem
    · rw [List.mem_singleton.mp hmem]
      rfl
  | beginNextJpeg =>
    obtain rfl := Option.some.inj h
    rcases execBeginNextJpeg_cases w with ⟨j, -, -, -, he⟩ | he <;>
      · rw [he]
        exact offRequest_set (by simp [Activation.isRequestCode])
  | applyRequestControls settings =>
    obtain rfl := Option.some.inj h
    cases settings <;> exact offRequest_set (by simp [Activation.isRequestCode])
  | startNextJpegCapture | takePicture j =>
    obtain rfl := Option.some.inj h
    refine offRequest_set ?_
    split_ifs <;> simp [Activation.isRequestCode]
  | updateControls u =>
    obtain rfl := Option.some.inj h
    exact offRequest_set (by simp)
  | errorBuffer | bufferResult =>
    obtain rfl := Option.some.inj h
    exact offRequest_goOn rfl rfl rfl rfl (fun k => List.suffix_rfl) (by simp)

end Off

/-- **What a stretch sends depends on its activation alone.** -/
theorem exec_log {i : Activation} {x : Answer} {w : World} {o : Stretch}
    (h : exec i x w = some o) : o.shared.log = w.log ++ i.emits := by
  have same : w.log = w.log ++ [] := (List.append_nil _).symm
  have enqueue : ∀ video output p next,
      (enqueueOutput video output p next w).shared.log = w.log ++ [] := by
    intro video output p next
    rcases output with _ | o
    · exact same
    · rcases enqueueOutput_cases video o p next w with ⟨q, -, he⟩ | ⟨-, he⟩ <;>
        · rw [he]
          exact same
  rcases hi : i.isRequestCode with _ | _
  · exact (exec_off h hi).log
  · cases i with
    | classify r =>
      obtain rfl := Option.some.inj h
      rcases execClassify_cases r x.nowNs w with he | ⟨p, -, -, he | he⟩ <;>
        · rw [he]
          exact same
    | request pc p =>
      obtain rfl := Option.some.inj h
      cases pc with
      | notifyError | errorResult | shutter | sendMetadata => rfl
      | metadata | startStill | finish => exact same
      | enqueuePreview => exact enqueue _ _ _ _
      | enqueueVideo => exact enqueue _ _ _ _
      | reserve =>
        show (reserveOutput p w).shared.log = _
        rcases reserveOutput_cases p w with ⟨-, he⟩ | ⟨o, q, -, -, -, he⟩ | ⟨o, -, -, he⟩ <;>
          · rw [he]
            exact same
    | _ => cases hi

/-! ## Draining -/

/-- Whether an activation is going to empty a queue: a flush, or a worker whose
    start of the preview or the recording failed, up to the end of its loop over
    that queue. -/
def clears : Queue → Activation → Bool
  | .preview, .flush pc => pc ∉ [.drainVideo, .drainJpeg, .finish]
  | .video, .flush pc => pc ∉ [.drainJpeg, .finish]
  | .jpeg, .flush pc => pc ≠ .finish
  | .preview, .worker _ pc => pc = .failPreview
  | .video, .worker _ pc => pc ∈ [.failPreview, .failVideo, .failRecording]
  | .jpeg, .worker _ pc => pc ∈ [.failPreview, .failVideo, .failJpeg]
  | _, _ => false

/-- One turn of a loop that goes on while a queue is not empty. -/
theorem drainStream_clears {k : Queue} {video : Bool} {again next : Activation} (w : World)
    (ha : clears k again = true)
    (hn : k ≠ .stream video → clears k next = true) :
    (∃ a ∈ (drainStream video again next w).push, clears k a = true) ∨
      (drainStream video again next w).shared.device.queueFrames k = [] := by
  rw [drainStream]
  rcases takeStream_cases video (fun s => sendStreamResult s false ++ [again]) [next] w with
    ⟨s, q, -, h⟩ | ⟨hq, h⟩
  · rw [h]
    exact .inl ⟨again, List.mem_append_right _ (List.mem_singleton_self _), ha⟩
  · rw [h]
    by_cases hk : k = .stream video
    · right
      show w.device.queueFrames k = []
      rw [hk, Device.queueFrames_stream, hq, List.map_nil]
    · exact .inl ⟨next, List.mem_singleton_self _, hn hk⟩

theorem drainJpeg_clears {k : Queue} {again next : Activation} (w : World)
    (ha : clears k again = true) (hn : k ≠ .jpeg → clears k next = true) :
    (∃ a ∈ (drainJpeg again next w).push, clears k a = true) ∨
      (drainJpeg again next w).shared.device.queueFrames k = [] := by
  rw [drainJpeg]
  rcases takeJpeg_cases w.still.abandon (fun j => sendJpegError j ++ [again]) [next] w with
    ⟨j, q, -, h⟩ | ⟨hq, h⟩
  · rw [h]
    exact .inl ⟨again, List.mem_append_right _ (List.mem_singleton_self _), ha⟩
  · rw [h]
    by_cases hk : k = .jpeg
    · right
      show w.device.queueFrames k = []
      rw [hk]
      exact congrArg (List.map _) hq
    · exact .inl ⟨next, List.mem_singleton_self _, hn hk⟩

/-- **An activation that is going to empty a queue** still is after its next
    stretch, or the queue is empty then. -/
theorem exec_clears {k : Queue} {i : Activation} {x : Answer} {w : World} {o : Stretch}
    (h : exec i x w = some o) (hi : clears k i = true) :
    (∃ a ∈ o.push, clears k a = true) ∨ o.shared.device.queueFrames k = [] := by
  cases i with
  | flush pc =>
    cases pc with
    | drainPreview =>
      obtain rfl := Option.some.inj h
      exact drainStream_clears w hi (by cases k <;> simp [Queue.stream, clears])
    | drainVideo =>
      obtain rfl := Option.some.inj h
      exact drainStream_clears w hi (by cases k <;> simp_all [Queue.stream, clears])
    | drainJpeg =>
      obtain rfl := Option.some.inj h
      exact drainJpeg_clears w hi (by cases k <;> simp_all [clears])
    | finish => cases k <;> cases hi
    | awaitWorker thread =>
      replace h : execFlush w (.awaitWorker thread) = some o := h
      rw [execFlush] at h
      split_ifs at h
      obtain rfl := Option.some.inj h
      exact .inl ⟨_, List.mem_singleton_self _, by cases k <;> rfl⟩
    | join | startFlushing | stopRecording | stopPreview =>
      obtain rfl := Option.some.inj h
      refine .inl ⟨_, List.mem_singleton_self _, ?_⟩
      split_ifs <;> cases k <;> simp [clears]
    | _ =>
      obtain rfl := Option.some.inj h
      exact .inl ⟨_, List.mem_singleton_self _, by cases k <;> rfl⟩
  | worker thread pc =>
    cases pc with
    | failPreview =>
      obtain rfl := Option.some.inj h
      exact drainStream_clears w hi (by cases k <;> simp [Queue.stream, clears])
    | failVideo | failRecording =>
      obtain rfl := Option.some.inj h
      exact drainStream_clears w hi (by cases k <;> simp_all [Queue.stream, clears])
    | failJpeg =>
      obtain rfl := Option.some.inj h
      exact drainJpeg_clears w hi (by cases k <;> simp_all [clears])
    | _ => cases k <;> cases hi
  | _ => cases k <;> cases hi

end Pro5Android.Camera
