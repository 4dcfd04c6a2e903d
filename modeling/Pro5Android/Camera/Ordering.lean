import Pro5Android.Camera.Calls

/-!
# The order of what the framework receives

For each accepted request the framework receives one `ERROR_REQUEST`, or one
shutter and one result with metadata, and nothing that returns a buffer of the
request comes before that. The comment in `m86_send_request_shutter_and_metadata`
(lines 922–926) says so: the shutter and the metadata are published in request
order, the buffers are returned later. For the preview and video outputs the
code sees to it by queueing them afterwards. The JPEG output, however, is queued
before the shutter is sent (lines 2563–2582), so another thread may return it
first; the theorems need that this does not happen.

Results:
* `opened_eq`, `metadata_eq`: the counts of shutters, request errors and metadata.
* `exec_ready`, `ordered`: nothing is returned before its request is opened.
* `results_ordered`: both, for the requests whose call returned 0.
* `results_not_ordered`: a run in which a flush returns a JPEG buffer first.
-/

namespace Pro5Android.Camera

open Lib Lib.Machine

/-! ## Counting what opens a request -/

/-- The shutters, the request errors and the metadata results of frame `n`. -/
def Event.isShutter (n : ℕ) : Event → Bool
  | .shutter m _ => m = n
  | _ => false

def Event.isErrorRequest (n : ℕ) : Event → Bool
  | .errorRequest m => m = n
  | _ => false

def Event.isMetadata (n : ℕ) : Event → Bool
  | .result m (some _) _ => m = n
  | _ => false

/-- One for each position of the call of frame `n` before its shutter or its
    `ERROR_REQUEST`. -/
def unopened (n : ℕ) : Activation → ℕ
  | .request .notifyError p | .request .reserve p | .request .shutter p =>
    if p.frameNumber = n then 1 else 0
  | _ => 0

/-- One for each activation that still owes the metadata of frame `n`. -/
def owesMetadata (n : ℕ) : Activation → ℕ
  | .request .metadata p | .request (.sendMetadata _) p => if p.frameNumber = n then 1 else 0
  | _ => 0

theorem unopened_eq_zero {n : ℕ} {a : Activation} (h : a.isRequestCode = false) :
    unopened n a = 0 := by
  cases a with
  | classify | request => cases h
  | _ => rfl

theorem owesMetadata_eq_zero {n : ℕ} {a : Activation} (h : a.isRequestCode = false) :
    owesMetadata n a = 0 := by
  cases a with
  | classify | request => cases h
  | _ => rfl

/-- Outside the request code, nothing of the three kinds is sent. -/
theorem countP_emits_eq_zero {a : Activation} (h : a.isRequestCode = false) (n : ℕ) :
    a.emits.countP (Event.isShutter n) = 0 ∧ a.emits.countP (Event.isErrorRequest n) = 0 ∧
      a.emits.countP (Event.isMetadata n) = 0 := by
  cases a with
  | classify | request => cases h
  | _ => exact ⟨rfl, rfl, rfl⟩

/-- A stretch opens a request, or sends its metadata, where its weights say so. -/
theorem exec_opens {i : Activation} {x : Answer} {w : World} {o : Stretch}
    (h : exec i x w = some o) (n : ℕ) :
    weighList (unopened n) o.push + weigh (unopened n) o.fork +
        i.emits.countP (Event.isShutter n) + i.emits.countP (Event.isErrorRequest n) +
        w.acceptedOf n = unopened n i + o.shared.acceptedOf n ∧
    weighList (owesMetadata n) o.push + weigh (owesMetadata n) o.fork +
        i.emits.countP (Event.isMetadata n) =
      owesMetadata n i + i.emits.countP (Event.isShutter n) := by
  have off : ∀ {f : Activation → ℕ} {l : List Activation},
      (∀ a, a.isRequestCode = false → f a = 0) → (∀ a ∈ l, a.isRequestCode = false) →
      weighList f l = 0 := fun hf hl => weighList_eq_zero _ fun a ha => hf a (hl a ha)
  rcases hi : i.isRequestCode with _ | _
  · have hoff := exec_off h hi
    obtain ⟨hs, he, hm⟩ := countP_emits_eq_zero hi n
    rw [off (fun _ => unopened_eq_zero) hoff.push, off (fun _ => owesMetadata_eq_zero) hoff.push,
      hoff.weigh_fork fun _ => rfl, hoff.weigh_fork fun _ => rfl, hs, he, hm,
      unopened_eq_zero hi, owesMetadata_eq_zero hi, World.acceptedOf, World.acceptedOf,
      hoff.accepted]
    omega
  · cases i with
    | classify r =>
      obtain rfl := Option.some.inj h
      rcases execClassify_cases r x.nowNs w with he | ⟨p, hp, -, he | he⟩ <;>
        · rw [he]
          simp [unopened, owesMetadata, Activation.emits, World.acceptedOf, List.countP_append,
            List.countP_singleton, *]
          try omega
    | request pc p =>
      obtain rfl := Option.some.inj h
      have enqueue : ∀ video output next,
          (next = .enqueueVideo ∨ next = .startStill) →
          weighList (unopened n) (enqueueOutput video output p next w).push = 0 ∧
          weighList (owesMetadata n) (enqueueOutput video output p next w).push = 0 ∧
          (enqueueOutput video output p next w).fork = [] ∧
          (enqueueOutput video output p next w).shared.accepted = w.accepted := by
        intro video output next hnext
        rcases output with _ | o
        · rcases hnext with rfl | rfl <;> exact ⟨rfl, rfl, rfl, rfl⟩
        · rcases enqueueOutput_cases video o p next w with ⟨q, -, he⟩ | ⟨-, he⟩ <;>
            · rw [he]
              rcases hnext with rfl | rfl <;> exact ⟨rfl, rfl, rfl, rfl⟩
      cases pc with
      | enqueuePreview =>
        obtain ⟨hu, hm, hf, ha⟩ := enqueue false p.previewOutput .enqueueVideo (.inl rfl)
        simp [execRequest, hu, hm, hf, ha, World.acceptedOf, Activation.emits, unopened,
          owesMetadata]
      | enqueueVideo =>
        obtain ⟨hu, hm, hf, ha⟩ := enqueue true p.videoOutput .startStill (.inr rfl)
        simp [execRequest, hu, hm, hf, ha, World.acceptedOf, Activation.emits, unopened,
          owesMetadata]
      | reserve =>
        rw [show execRequest p w .reserve = reserveOutput p w from rfl]
        rcases reserveOutput_cases p w with ⟨-, he⟩ | ⟨o, q, -, -, -, he⟩ | ⟨o, -, -, he⟩ <;>
          · rw [he]
            simp [World.acceptedOf, Activation.emits, unopened, owesMetadata]
      | startStill =>
        simp only [execRequest]
        split_ifs <;>
          simp [World.acceptedOf, Activation.emits, unopened, owesMetadata]
      | _ =>
        simp [execRequest, World.acceptedOf, Activation.emits, unopened, owesMetadata,
          Event.isShutter, Event.isErrorRequest, Event.isMetadata, List.countP_singleton]
        try omega
    | _ => cases hi

/-! ## Runs: the counts -/

variable {good : State → Activation → Answer → Prop} {cameraId : ℕ} {c : State}

/-- Every accepted request is on its way to being opened, or was opened once. -/
theorem opened_eq (n : ℕ) (h : Reach translator good (State.opened cameraId) c) :
    c.shared.acceptedOf n = weigh (unopened n) c.threads +
      c.shared.log.countP (Event.isShutter n) + c.shared.log.countP (Event.isErrorRequest n) := by
  refine Reach.weigh_invariant (unopened n) (fun w T => w.acceptedOf n = T +
    w.log.countP (Event.isShutter n) + w.log.countP (Event.isErrorRequest n)) rfl ?_ ?_ h
  · intro w k w' stack T he hT
    rcases enter_cases he with ⟨r, -, rfl, rfl⟩ | ⟨u, a, rfl, rfl, ha⟩
    · exact hT
    · rw [weighList_entry (fun _ => unopened_eq_zero) ha]
      exact hT
  · intro w A i rest B x o R _ _ he _ hT
    obtain ⟨hstep, -⟩ := exec_opens he n
    rw [exec_log he, List.countP_append, List.countP_append]
    omega

/-- Every shutter is followed by one metadata result. -/
theorem metadata_eq (n : ℕ) (h : Reach translator good (State.opened cameraId) c) :
    c.shared.log.countP (Event.isShutter n) =
      weigh (owesMetadata n) c.threads + c.shared.log.countP (Event.isMetadata n) := by
  refine Reach.weigh_invariant (owesMetadata n) (fun w T => w.log.countP (Event.isShutter n) =
    T + w.log.countP (Event.isMetadata n)) rfl ?_ ?_ h
  · intro w k w' stack T he hT
    rcases enter_cases he with ⟨r, -, rfl, rfl⟩ | ⟨u, a, rfl, rfl, ha⟩
    · exact hT
    · rw [weighList_entry (fun _ => owesMetadata_eq_zero) ha]
      exact hT
  · intro w A i rest B x o R _ _ he _ hT
    obtain ⟨-, hstep⟩ := exec_opens he n
    rw [exec_log he, List.countP_append, List.countP_append]
    omega

/-! ## Nothing comes before the opening -/

/-- The framework has received the shutter or the `ERROR_REQUEST` of frame `n`. -/
def Opened (n : ℕ) (log : List Event) : Prop :=
  ∃ e ∈ log, e.isShutter n = true ∨ e.isErrorRequest n = true

/-- Whether a call of the framework returns a buffer of frame `n`, or reports
    one as failed. -/
def Event.returnsBuffer (n : ℕ) : Event → Bool
  | .errorBuffer m _ => m = n
  | .result m _ buffers => m = n && !buffers.isEmpty
  | _ => false

/-- Every returned buffer comes after the opening of its request. -/
def Ordered (log : List Event) : Prop :=
  ∀ before e after, log = before ++ e :: after → ∀ n, e.returnsBuffer n = true → Opened n before

theorem Opened.mono {n : ℕ} {log log' : List Event} (h : Opened n log) (hsub : log ⊆ log') :
    Opened n log' :=
  let ⟨e, he, hopen⟩ := h
  ⟨e, hsub he, hopen⟩

theorem ordered_nil : Ordered [] := by
  intro before e after h
  cases before <;> cases h

theorem ordered_concat {log : List Event} {e : Event} (h : Ordered log)
    (he : ∀ n, e.returnsBuffer n = true → Opened n log) : Ordered (log ++ [e]) := by
  intro before e' after hsplit n hn
  rcases List.eq_nil_or_concat after with rfl | ⟨init, last, rfl⟩
  · obtain ⟨rfl, hlast⟩ := List.append_inj' hsplit rfl
    obtain rfl := List.singleton_injective hlast
    exact he n hn
  · rw [List.concat_eq_append, ← List.cons_append, ← List.append_assoc] at hsplit
    obtain ⟨hlog, -⟩ := List.append_inj' hsplit rfl
    exact h before e' init hlog n hn

/-- An activation that will return a buffer belongs to an opened request; one
    that opens it comes first in the request code. -/
def Ready (log : List Event) : Activation → Prop
  | .request .notifyError _ | .request .reserve _ | .request .shutter _ => True
  | .request _ p => Opened p.frameNumber log
  | .errorBuffer n _ | .bufferResult n _ _ => Opened n log
  | _ => True

theorem Ready.mono {log log' : List Event} {a : Activation} (h : Ready log a)
    (hsub : log ⊆ log') : Ready log' a := by
  cases a with
  | request pc p => cases pc <;> first | trivial | exact Opened.mono h hsub
  | errorBuffer | bufferResult => exact Opened.mono h hsub
  | _ => trivial

/-- What a ready activation sends keeps the order. -/
theorem ordered_emits {log : List Event} {a : Activation} (h : Ordered log) (ha : Ready log a) :
    Ordered (log ++ a.emits) := by
  have same : Ordered (log ++ []) := by rwa [List.append_nil]
  cases a with
  | request pc p =>
    cases pc with
    | notifyError | shutter => exact ordered_concat h fun n hn => by cases hn
    | sendMetadata => exact ordered_concat h fun n hn => by simp [Event.returnsBuffer] at hn
    | errorResult =>
      refine ordered_concat h fun n hn => ?_
      have hframe : p.frameNumber = n := by
        simp only [Event.returnsBuffer, Bool.and_eq_true, decide_eq_true_eq] at hn
        exact hn.1
      exact hframe ▸ ha
    | _ => exact same
  | errorBuffer m stream =>
    refine ordered_concat h fun n hn => ?_
    have hframe : m = n := by simpa [Event.returnsBuffer] using hn
    exact hframe ▸ ha
  | bufferResult m output status =>
    refine ordered_concat h fun n hn => ?_
    have hframe : m = n := by simpa [Event.returnsBuffer] using hn
    exact hframe ▸ ha
  | _ => exact same

/-! ## One stretch keeps the order -/

/-- The requests in the preview and video queues are opened. -/
def StreamsOpened (w : World) : Prop :=
  ∀ k ≠ .jpeg, ∀ n ∈ w.device.queueFrames k, Opened n w.log

/-- The activations that take the head of the JPEG queue. -/
def takesJpeg : Activation → Bool
  | .compressedImage _ | .engineError _ | .takeFailed _ | .flush .drainJpeg
  | .worker _ .failJpeg => true
  | _ => false

/-- The condition on a run: the head of the JPEG queue is only taken once its
    shutter has been sent. -/
def JpegOpened (c : State) (i : Activation) (_ : Answer) : Prop :=
  takesJpeg i = true → ∀ j, c.shared.device.pendingJpeg.toList.head? = some j →
    Opened j.frameNumber c.shared.log

section Stretch

variable {w : World} {o : Stretch}

theorem ready_sendStreamResult {log : List Event} {s : StreamRequest} (success : Bool)
    (h : Opened s.frameNumber log) : ∀ a ∈ sendStreamResult s success, Ready log a := by
  cases success <;> simpa [sendStreamResult, Ready] using h

theorem ready_sendJpegError {log : List Event} {j : JpegRequest} (h : Opened j.frameNumber log) :
    ∀ a ∈ sendJpegError j, Ready log a := by
  simpa [sendJpegError, Ready] using h

theorem ready_sendJpegResult {log : List Event} {j : JpegRequest} (status : ℤ)
    (h : Opened j.frameNumber log) : ∀ a ∈ sendJpegResult j status, Ready log a := by
  rw [sendJpegResult]
  split_ifs
  · simpa [Ready] using h
  · exact ready_sendJpegError h

theorem ready_append {log : List Event} {l l' : List Activation} (h : ∀ a ∈ l, Ready log a)
    (h' : ∀ a ∈ l', Ready log a) : ∀ a ∈ l ++ l', Ready log a := fun a ha =>
  (List.mem_append.mp ha).elim (h a) (h' a)

theorem takeStream_ready {video : Bool} {found : StreamRequest → List Activation}
    {empty : List Activation} (hw : StreamsOpened w)
    (hf : ∀ s, Opened s.frameNumber w.log → ∀ a ∈ found s, Ready w.log a)
    (he : ∀ a ∈ empty, Ready w.log a) :
    ∀ a ∈ (takeStream video found empty w).push, Ready w.log a := by
  rcases takeStream_cases video found empty w with ⟨s, q, hq, h⟩ | ⟨-, h⟩
  · rw [h]
    refine hf s (hw (.stream video) (by cases video <;> decide) s.frameNumber ?_)
    rw [Device.queueFrames_stream, hq]
    exact List.mem_cons_self
  · rw [h]
    exact he

theorem takeJpeg_ready {still : Option JpegRequest → StillEngine}
    {found : JpegRequest → List Activation} {empty : List Activation}
    (hj : ∀ j, w.device.pendingJpeg.toList.head? = some j → Opened j.frameNumber w.log)
    (hf : ∀ j, Opened j.frameNumber w.log → ∀ a ∈ found j, Ready w.log a)
    (he : ∀ a ∈ empty, Ready w.log a) :
    ∀ a ∈ (takeJpeg still found empty w).push, Ready w.log a := by
  rcases takeJpeg_cases still found empty w with ⟨j, q, hq, h⟩ | ⟨-, h⟩
  · rw [h]
    exact hf j (hj j (by simp [hq]))
  · rw [h]
    exact he

theorem drainStream_ready {video : Bool} {again next : Activation} (hw : StreamsOpened w)
    (ha : Ready w.log again) (hn : Ready w.log next) :
    ∀ a ∈ (drainStream video again next w).push, Ready w.log a :=
  takeStream_ready hw
    (fun s hs => ready_append (ready_sendStreamResult false hs) (by simpa using ha)) (by simpa using hn)

theorem drainJpeg_ready {again next : Activation}
    (hj : ∀ j, w.device.pendingJpeg.toList.head? = some j → Opened j.frameNumber w.log)
    (ha : Ready w.log again) (hn : Ready w.log next) :
    ∀ a ∈ (drainJpeg again next w).push, Ready w.log a :=
  takeJpeg_ready hj (fun j hj => ready_append (ready_sendJpegError hj) (by simpa using ha))
    (by simpa using hn)

theorem execFlush_ready {pc : FlushPc} (h : execFlush w pc = some o) (hw : StreamsOpened w)
    (hj : pc = .drainJpeg → ∀ j, w.device.pendingJpeg.toList.head? = some j →
      Opened j.frameNumber w.log) : ∀ a ∈ o.push, Ready w.log a := by
  cases pc with
  | drainPreview | drainVideo =>
    obtain rfl := Option.some.inj h
    exact drainStream_ready hw trivial trivial
  | drainJpeg =>
    obtain rfl := Option.some.inj h
    exact drainJpeg_ready (hj rfl) trivial trivial
  | awaitWorker thread =>
    rw [execFlush] at h
    split_ifs at h
    obtain rfl := Option.some.inj h
    simp [Ready]
  | _ =>
    obtain rfl := Option.some.inj h
    simp [Ready]

theorem execWorker_ready {thread : ℕ} {status : ℤ} {pc : WorkerPc}
    (h : execWorker thread status w pc = some o) (hw : StreamsOpened w)
    (hj : pc = .failJpeg → ∀ j, w.device.pendingJpeg.toList.head? = some j →
      Opened j.frameNumber w.log) : ∀ a ∈ o.push, Ready w.log a := by
  cases pc with
  | failRecording | failPreview | failVideo =>
    obtain rfl := Option.some.inj h
    exact drainStream_ready hw trivial trivial
  | failJpeg =>
    obtain rfl := Option.some.inj h
    exact drainJpeg_ready (hj rfl) trivial trivial
  | wait =>
    rw [execWorker] at h
    split_ifs at h <;>
      · obtain rfl := Option.some.inj h
        simp [Ready]
  | _ =>
    obtain rfl := Option.some.inj h
    simp [Ready]

theorem execConfigure_ready (status : ℤ) (pc : ConfigurePc) :
    ∀ a ∈ (execConfigure status w pc).push, Ready w.log a := by
  cases pc with
  | start streams =>
    rw [execConfigure]
    split_ifs <;> simp [Ready]
  | scan streams =>
    rw [execConfigure]
    split <;> simp [Ready]
  | setParameters | createWorker =>
    rw [execConfigure]
    split_ifs <;> simp [Ready]
  | clearStop | setJoinable => simp [execConfigure, Ready]

/-- Outside the request code, what is pushed is ready. -/
theorem exec_ready {i : Activation} {x : Answer} (h : exec i x w = some o)
    (hi : i.isRequestCode = false) (hw : StreamsOpened w)
    (hj : takesJpeg i = true → ∀ j, w.device.pendingJpeg.toList.head? = some j →
      Opened j.frameNumber w.log) : ∀ a ∈ o.push, Ready w.log a := by
  cases i with
  | classify | request => cases hi
  | flush pc => exact execFlush_ready h hw fun hpc => hj (by rw [hpc]; rfl)
  | configure pc =>
    obtain rfl := Option.some.inj h
    exact execConfigure_ready x.status pc
  | worker thread pc => exact execWorker_ready h hw fun hpc => hj (by rw [hpc]; rfl)
  | deliver video | errorStream video =>
    obtain rfl := Option.some.inj h
    exact takeStream_ready hw (fun s hs => ready_sendStreamResult _ hs) (by simp)
  | compressedImage source =>
    obtain rfl := Option.some.inj h
    exact takeJpeg_ready (hj rfl)
      (fun j hj => ready_append (ready_sendJpegResult _ hj) (by simp [Ready])) (by simp [Ready])
  | engineError source | takeFailed source =>
    obtain rfl := Option.some.inj h
    exact takeJpeg_ready (hj rfl)
      (fun j hj => ready_append (ready_sendJpegError hj) (by simp [Ready])) (by simp [Ready])
  | beginNextJpeg =>
    obtain rfl := Option.some.inj h
    rcases execBeginNextJpeg_cases w with ⟨j, -, -, -, he⟩ | he <;>
      · rw [he]
        simp [Ready]
  | applyRequestControls settings =>
    obtain rfl := Option.some.inj h
    cases settings <;> simp [Ready]
  | startNextJpegCapture | takePicture j =>
    obtain rfl := Option.some.inj h
    simp only [goOn]
    split_ifs <;> simp [Ready]
  | updateControls | errorBuffer | bufferResult =>
    obtain rfl := Option.some.inj h
    simp

/-- The request code is opened before it queues or returns a buffer. -/
theorem execRequest_ready {pc : RequestPc} {p : PreviewRequest}
    (hp : Ready w.log (.request pc p)) :
    ∀ a ∈ (execRequest p w pc).push, Ready (w.log ++ (Activation.request pc p).emits) a := by
  have here : ∀ {e : Event}, e.isShutter p.frameNumber = true ∨ e.isErrorRequest p.frameNumber = true →
      Opened p.frameNumber (w.log ++ [e]) := fun he =>
    ⟨_, List.mem_append_right _ (List.mem_singleton_self _), he⟩
  have still : ∀ {e : Event}, Opened p.frameNumber w.log → Opened p.frameNumber (w.log ++ [e]) :=
    fun ho => ho.mono (List.subset_append_left _ _)
  have enqueue : ∀ video output next, Opened p.frameNumber w.log →
      (Opened p.frameNumber w.log → Ready w.log (.request next p)) →
      ∀ a ∈ (enqueueOutput video output p next w).push, Ready (w.log ++ []) a := by
    intro video output next ho hnext
    rw [List.append_nil]
    rcases output with _ | o
    · simpa [enqueueOutput] using hnext ho
    · rcases enqueueOutput_cases video o p next w with ⟨q, -, he⟩ | ⟨-, he⟩
      · rw [he]
        simpa using hnext ho
      · rw [he]
        exact ready_append (ready_sendStreamResult false ho) (by simpa using hnext ho)
  cases pc with
  | notifyError | shutter =>
    intro a ha
    rw [List.mem_singleton.mp ha]
    exact here (by simp [Event.isShutter, Event.isErrorRequest])
  | errorResult | sendMetadata =>
    intro a ha
    rw [List.mem_singleton.mp ha]
    exact still hp
  | reserve =>
    rw [show execRequest p w .reserve = reserveOutput p w from rfl]
    rcases reserveOutput_cases p w with ⟨-, he⟩ | ⟨o, q, -, -, -, he⟩ | ⟨o, -, -, he⟩ <;>
      · rw [he]
        simp [Ready]
  | metadata =>
    intro a ha
    rw [List.mem_singleton.mp ha]
    exact Opened.mono hp (List.subset_append_left _ _)
  | enqueuePreview => exact enqueue false p.previewOutput .enqueueVideo hp id
  | enqueueVideo => exact enqueue true p.videoOutput .startStill hp id
  | startStill =>
    have hfinish : Ready (w.log ++ []) (.request .finish p) :=
      Opened.mono hp (List.subset_append_left _ _)
    simp only [execRequest, goOn]
    split_ifs
    · intro a ha
      rcases List.mem_cons.mp ha with rfl | ha
      · trivial
      · rw [List.mem_singleton.mp ha]
        exact hfinish
    · intro a ha
      rw [List.mem_singleton.mp ha]
      exact hfinish
  | finish => simp [execRequest]

/-- **One stretch keeps the order**, if what it takes from the JPEG queue is opened. -/
theorem exec_ordered {i : Activation} {x : Answer} (h : exec i x w = some o)
    (hlog : Ordered w.log) (hw : StreamsOpened w) (hi : Ready w.log i)
    (hj : takesJpeg i = true → ∀ j, w.device.pendingJpeg.toList.head? = some j →
      Opened j.frameNumber w.log) :
    (Ordered o.shared.log ∧ StreamsOpened o.shared) ∧ (∀ a ∈ o.push, Ready o.shared.log a) ∧
      Every (Ready o.shared.log) o.fork := by
  have hsub : w.log ⊆ o.shared.log := by
    rw [exec_log h]
    exact List.subset_append_left _ _
  refine ⟨⟨?_, ?_⟩, ?_⟩
  · rw [exec_log h]
    exact ordered_emits hlog hi
  · intro k hk n hn
    rcases exec_queueFrames h hn with hbefore | ⟨p, rfl, rfl, -⟩
    · exact (hw k hk n hbefore).mono hsub
    · cases k with
      | preview | video => exact Opened.mono hi hsub
      | jpeg => exact absurd rfl hk
  · rcases hr : i.isRequestCode with _ | _
    · refine ⟨fun a ha => (exec_ready h hr hw hj a ha).mono hsub, ?_⟩
      exact (exec_off h hr).every_fork fun _ => trivial
    · cases i with
      | classify r =>
        obtain rfl := Option.some.inj h
        have fork0 : Every (Ready w.log) [] := fun _ hs => by cases hs
        rcases execClassify_cases r x.nowNs w with he | ⟨p, -, -, he | he⟩ <;>
          · rw [he]
            exact ⟨by simp [Ready], fork0⟩
      | request pc p =>
        obtain rfl := Option.some.inj h
        rw [exec_log (i := .request pc p) (x := x) rfl]
        refine ⟨execRequest_ready hi, ?_⟩
        by_cases hpc : pc = .finish
        · subst hpc
          exact fun _ hs => by cases hs
        · obtain ⟨w', pre, pc', he, -⟩ := execRequest_advance p w hpc
          rw [he]
          exact fun _ hs => by cases hs
      | _ => cases hr

end Stretch

/-! ## The requests whose call returned 0 -/

/-- In every run that takes JPEG requests only once their shutter is sent,
    nothing is returned before its request is opened. -/
theorem ordered (h : Reach translator JpegOpened (State.opened cameraId) c) :
    Ordered c.shared.log := by
  have hinv := Reach.every_invariant (fun w => Ordered w.log ∧ StreamsOpened w)
    (fun w => Ready w.log) ⟨⟨ordered_nil, fun k _ n hn => by cases k <;> cases hn⟩,
      fun _ hs => by cases hs⟩ ?_ ?_ h
  · exact hinv.1.1
  · intro w k w' stack he hw
    rcases enter_cases he with ⟨r, -, rfl, rfl⟩ | ⟨u, a, rfl, rfl, ha⟩
    · exact ⟨hw, fun a ha => ha, by simp [Ready]⟩
    · refine ⟨hw, fun a ha => ha, fun b hb => ?_⟩
      obtain rfl := List.mem_singleton.mp hb
      cases b <;> simp_all [Ready, Activation.isEntry]
  · intro w A i rest B x o _ hg he ⟨hlog, hw⟩ hi
    obtain ⟨hP, hpush, hfork⟩ := exec_ordered he hlog hw hi hg
    refine ⟨hP, fun a ha => ha.mono ?_, hpush, hfork⟩
    rw [exec_log he]
    exact List.subset_append_left _ _

/-- What the framework has received for a request whose call returned 0: one
    `ERROR_REQUEST`, or one shutter and one result with metadata. -/
def OpenedOnce (c : State) (n : ℕ) : Prop :=
  let shutters := c.shared.log.countP (Event.isShutter n)
  let errors := c.shared.log.countP (Event.isErrorRequest n)
  let metadata := c.shared.log.countP (Event.isMetadata n)
  (errors = 1 ∧ shutters = 0 ∧ metadata = 0) ∨ (errors = 0 ∧ shutters = 1 ∧ metadata = 1)

theorem opened_once {n : ℕ} (h : Reach translator good (State.opened cameraId) c)
    (hn : c.shared.ReturnedOk n) : OpenedOnce c n := by
  obtain ⟨-, hzero, hone⟩ := returned_ok h hn
  have hopened := opened_eq n h
  have hmetadata := metadata_eq n h
  have hu : weigh (unopened n) c.threads ≤ weigh (inRequest n) c.threads := by
    refine weigh_le (fun a => ?_) c.threads
    cases a with
    | request pc p => cases pc <;> simp [unopened, inRequest]
    | _ => simp [unopened, inRequest]
  have hm : weigh (owesMetadata n) c.threads ≤ weigh (inRequest n) c.threads := by
    refine weigh_le (fun a => ?_) c.threads
    cases a with
    | request pc p => cases pc <;> simp [owesMetadata, inRequest]
    | _ => simp [owesMetadata, inRequest]
  rw [OpenedOnce]
  omega

/-- The order of results: each request whose call returned 0 is opened once, and
    its opening comes before everything that returns a buffer of it. -/
def ResultsOrdered (c : State) : Prop :=
  ∀ n, c.shared.ReturnedOk n → OpenedOnce c n ∧
    ∀ before e after, c.shared.log = before ++ e :: after → e.returnsBuffer n = true →
      Opened n before

/-- **Main theorem: camera3 result ordering**, in every run in which the head of
    the JPEG queue is only taken once its shutter has been sent. -/
theorem results_ordered (h : Reach translator JpegOpened (State.opened cameraId) c) :
    ResultsOrdered c := fun n hn =>
  ⟨opened_once h hn, fun before e after hsplit he => ordered h before e after hsplit n he⟩

/-! ## Two runs -/

/-- Configure stream 1 for the preview and stream 2 for still images. -/
def configureStill : List (Action Call Answer) :=
  .call (.configureStreams [some ⟨1, true, .implementationDefined, false⟩,
    some ⟨2, true, .blob, false⟩]) :: List.replicate 6 (go 0)

/-- A request for a preview frame and a still image. -/
def stillRequest : CaptureRequest :=
  ⟨1, none, none, [⟨some 1, some 10, -1, 0⟩, ⟨some 2, some 20, -1, 0⟩]⟩

/-- A check for `JpegOpened`. -/
def jpegOpened (c : State) (i : Activation) (_ : Answer) : Bool :=
  !takesJpeg i || c.shared.device.pendingJpeg.toList.head?.all fun j =>
    c.shared.log.any fun e => e.isShutter j.frameNumber || e.isErrorRequest j.frameNumber

theorem jpegOpened_sound (c : State) (i : Activation) (x : Answer)
    (h : jpegOpened c i x = true) : JpegOpened c i x := by
  intro hi j hj
  simpa [jpegOpened, hi, hj, Opened] using h

/-- The request is served, the worker starts the preview and the picture, and its
    image arrives. -/
def stillEnds : State :=
  (State.opened 0).after jpegOpened
    (configureStill ++ .call (.processCaptureRequest stillRequest) :: List.replicate 10 (go 2) ++
      List.replicate 10 (go 1) ++
      .call (.compressedImage ⟨true, 1, 0, ⟨2, 20⟩⟩) :: List.replicate 5 (go 3))

theorem stillEnds_ordered :
    (stillEnds.shared.ReturnedOk 1 ∧ stillEnds.shared.log.length = 3) ∧
      ResultsOrdered stillEnds := by
  refine ⟨⟨?_, rfl⟩, results_ordered (reach_after jpegOpened_sound rfl)⟩
  show (1, 0) ∈ [(1, (0 : ℤ))]
  decide

/-- The JPEG output is reserved, then a flush drains it, then its shutter is sent. -/
def overtakenEnd : State :=
  (State.opened 0).after (fun _ _ _ => true)
    (configureStill ++ .call (.processCaptureRequest stillRequest) :: List.replicate 3 (go 2) ++
      .call .flush :: [go 3, go 1, go 1] ++ List.replicate 11 (go 3) ++ List.replicate 7 (go 2))

/-- A flush between the reservation of a JPEG output and its shutter returns the
    buffer first. -/
theorem results_not_ordered :
    ¬ ∀ c, Reach translator AnyStep (State.opened 0) c → ResultsOrdered c := by
  intro hall
  have hreach : Reach translator AnyStep (State.opened 0) overtakenEnd :=
    reach_after (fun _ _ _ _ => trivial) rfl
  have hok : overtakenEnd.shared.ReturnedOk 1 := by
    show (1, 0) ∈ [(1, (0 : ℤ))]
    decide
  obtain ⟨-, hfirst⟩ := hall overtakenEnd hreach 1 hok
  obtain ⟨e, he, -⟩ := hfirst [] (.errorBuffer 1 2) overtakenEnd.shared.log.tail rfl rfl
  cases he

end Pro5Android.Camera
