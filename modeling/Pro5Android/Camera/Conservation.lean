import Pro5Android.Camera.Calls

/-!
# No buffer is lost or returned twice

An output buffer of an accepted request is a token: the frame number with the
output. At every moment the tokens of all accepted requests are exactly those in
the three queues, those held by an activation that is going to queue or return
them, and those handed back through `process_capture_result`. This needs that
the requests which get past their JPEG reservation consist of recognised
outputs: of any other output the code forgets the buffer there, although a
request with no recognised output at all is completed with an error that returns
its buffers (lines 2553–2560).

Results:
* `exec_tokens`, `conservation`: the balance of one stretch, and of a run.
* `flush_drains`: what a flush leaves in the queues.
* `buffers_conserved`: both, for the requests whose call returned 0.
* `buffers_not_conserved`: a run that loses a buffer.
-/

namespace Pro5Android.Camera

open Lib Lib.Machine

/-! ## Tokens and their places -/

/-- A frame number and one of its outputs. -/
abbrev Token := ℕ × Output

/-- The tokens of the outputs `os` of frame `n`. -/
def tokens (n : ℕ) (os : List Output) : Multiset Token :=
  weighList (fun o => {(n, o)}) os

def CaptureRequest.tokens (r : CaptureRequest) : Multiset Token :=
  Camera.tokens r.frameNumber r.outputs

def StreamRequest.token (s : StreamRequest) : Multiset Token := {(s.frameNumber, s.output)}

def JpegRequest.token (j : JpegRequest) : Multiset Token := {(j.frameNumber, j.output)}

/-- The tokens in the three pending queues. -/
def Device.queued (d : Device) : Multiset Token :=
  weighList StreamRequest.token (d.streamQueue false).toList +
    weighList StreamRequest.token (d.streamQueue true).toList +
    weighList JpegRequest.token d.pendingJpeg.toList

/-- The tokens an activation is going to queue or return. -/
def held : Activation → Multiset Token
  | .request .notifyError p | .request .errorResult p | .request .reserve p =>
    tokens p.frameNumber p.outputs
  | .request .shutter p | .request .metadata p | .request (.sendMetadata _) p
  | .request .enqueuePreview p =>
    tokens p.frameNumber p.previewOutput.toList + tokens p.frameNumber p.videoOutput.toList
  | .request .enqueueVideo p => tokens p.frameNumber p.videoOutput.toList
  | .bufferResult n o _ => {(n, o)}
  | _ => 0

/-- The tokens returned by one call of the framework. -/
def Event.returned : Event → Multiset Token
  | .result n _ buffers => tokens n (buffers.map Prod.fst)
  | _ => 0

/-- The tokens handed back so far. -/
def handedBack (log : List Event) : Multiset Token := weighList Event.returned log

/-- The tokens of all accepted requests. -/
def World.acceptedTokens (w : World) : Multiset Token := weighList CaptureRequest.tokens w.accepted

/-- All places a token can be at. -/
def places (c : State) : Multiset Token :=
  c.shared.device.queued + weigh held c.threads + handedBack c.shared.log

@[simp] theorem tokens_nil (n : ℕ) : tokens n [] = 0 := rfl

@[simp] theorem tokens_append (n : ℕ) (os os' : List Output) :
    tokens n (os ++ os') = tokens n os + tokens n os' :=
  weighList_append _ os os'

theorem tokens_singleton (n : ℕ) (o : Output) : tokens n [o] = {(n, o)} := by
  rw [tokens, weighList_cons, weighList_nil, add_zero]

@[simp] theorem handedBack_append (log sent : List Event) :
    handedBack (log ++ sent) = handedBack log + handedBack sent :=
  weighList_append _ log sent

/-- Outside the request code, an activation holds what it is about to return. -/
theorem held_eq_of_off {a : Activation} (h : a.isRequestCode = false) :
    held a = handedBack a.emits := by
  cases a with
  | classify | request => cases h
  | bufferResult n o status =>
    simp [held, handedBack, Activation.emits, Event.returned, tokens]
  | _ => rfl

/-! ## One stretch -/

section Stretch

variable {w : World} {o : Stretch}

theorem queued_setStreamQueue (d : Device) (video : Bool) (q : Ring StreamRequest 16) :
    (d.setStreamQueue video q).queued +
        weighList StreamRequest.token (d.streamQueue video).toList =
      d.queued + weighList StreamRequest.token q.toList := by
  cases video <;>
    · simp only [Device.queued, Device.streamQueue, Device.setStreamQueue, Bool.false_eq_true,
        if_false, if_true]
      abel

/-- What a stretch outside the request code takes from the queues, it holds. -/
def TakesQueued (w : World) (o : Stretch) : Prop :=
  o.shared.device.queued + (weighList held o.push + weigh held o.fork) = w.device.queued

theorem takesQueued_goOn {w' : World} {push : List Activation}
    (hd : w'.device.queued = w.device.queued) (hp : weighList held push = 0) :
    TakesQueued w (goOn w' push) := by
  show w'.device.queued + (weighList held push + 0) = _
  rw [hp, hd, add_zero, add_zero]

@[simp] theorem held_sendStreamResult (s : StreamRequest) (success : Bool) :
    weighList held (sendStreamResult s success) = s.token := by
  cases success <;> simp [sendStreamResult, held, StreamRequest.token]

@[simp] theorem held_sendJpegError (j : JpegRequest) :
    weighList held (sendJpegError j) = j.token := by
  simp [sendJpegError, held, JpegRequest.token]

@[simp] theorem held_sendJpegResult (j : JpegRequest) (status : ℤ) :
    weighList held (sendJpegResult j status) = j.token := by
  rw [sendJpegResult]
  split_ifs
  · simp [held, JpegRequest.token]
  · exact held_sendJpegError j

theorem takeStream_held {video : Bool} {found : StreamRequest → List Activation}
    {empty : List Activation} (hf : ∀ s, weighList held (found s) = s.token)
    (he : weighList held empty = 0) : TakesQueued w (takeStream video found empty w) := by
  rcases takeStream_cases video found empty w with ⟨s, q, hq, h⟩ | ⟨-, h⟩
  · rw [h]
    show (w.device.setStreamQueue video q).queued + (weighList held (found s) + 0) = _
    have hset := queued_setStreamQueue w.device video q
    rw [hq, weighList_cons, add_comm s.token, ← add_assoc, add_right_comm] at hset
    rw [hf, add_zero]
    exact add_right_cancel hset
  · rw [h]
    exact takesQueued_goOn rfl he

theorem takeJpeg_held {still : Option JpegRequest → StillEngine}
    {found : JpegRequest → List Activation} {empty : List Activation}
    (hf : ∀ j, weighList held (found j) = j.token) (he : weighList held empty = 0) :
    TakesQueued w (takeJpeg still found empty w) := by
  rcases takeJpeg_cases still found empty w with ⟨j, q, hq, h⟩ | ⟨-, h⟩
  · rw [h]
    simp only [TakesQueued, goOn, World.setDevice, World.setStill, Device.queued,
      Device.streamQueue, hq, hf, weighList_cons, weigh_nil]
    abel
  · rw [h]
    exact takesQueued_goOn rfl he

theorem drainStream_held {video : Bool} {again next : Activation} (ha : held again = 0)
    (hn : held next = 0) : TakesQueued w (drainStream video again next w) :=
  takeStream_held (fun s => by simp [ha]) (by simp [hn])

theorem drainJpeg_held {again next : Activation} (ha : held again = 0) (hn : held next = 0) :
    TakesQueued w (drainJpeg again next w) :=
  takeJpeg_held (fun j => by simp [ha]) (by simp [hn])

theorem execFlush_held {pc : FlushPc} (h : execFlush w pc = some o) : TakesQueued w o := by
  cases pc with
  | drainPreview | drainVideo =>
    obtain rfl := Option.some.inj h
    exact drainStream_held rfl rfl
  | drainJpeg =>
    obtain rfl := Option.some.inj h
    exact drainJpeg_held rfl rfl
  | awaitWorker thread =>
    rw [execFlush] at h
    split_ifs at h
    obtain rfl := Option.some.inj h
    exact takesQueued_goOn rfl rfl
  | _ =>
    obtain rfl := Option.some.inj h
    exact takesQueued_goOn rfl rfl

theorem execWorker_held {thread : ℕ} {status : ℤ} {pc : WorkerPc}
    (h : execWorker thread status w pc = some o) : TakesQueued w o := by
  cases pc with
  | failRecording | failPreview | failVideo =>
    obtain rfl := Option.some.inj h
    exact drainStream_held rfl rfl
  | failJpeg =>
    obtain rfl := Option.some.inj h
    exact drainJpeg_held rfl rfl
  | wait =>
    rw [execWorker] at h
    split_ifs at h <;>
      · obtain rfl := Option.some.inj h
        exact takesQueued_goOn rfl rfl
  | _ =>
    obtain rfl := Option.some.inj h
    exact takesQueued_goOn rfl rfl

theorem execConfigure_held (status : ℤ) (pc : ConfigurePc) :
    TakesQueued w (execConfigure status w pc) := by
  cases pc with
  | start streams =>
    rw [execConfigure]
    split_ifs <;> exact takesQueued_goOn rfl rfl
  | scan streams =>
    rw [execConfigure]
    split <;> exact takesQueued_goOn rfl rfl
  | setParameters =>
    rw [execConfigure]
    split_ifs <;> exact takesQueued_goOn rfl rfl
  | clearStop | setJoinable => exact takesQueued_goOn rfl rfl
  | createWorker =>
    rw [execConfigure]
    split_ifs
    · show w.device.queued + _ = _
      simp [held]
    · exact takesQueued_goOn rfl rfl

/-- **Outside the request code nothing gets lost.** -/
theorem exec_takesQueued {i : Activation} {x : Answer} (h : exec i x w = some o)
    (hi : i.isRequestCode = false) : TakesQueued w o := by
  cases i with
  | classify | request => cases hi
  | flush pc => exact execFlush_held h
  | configure pc =>
    obtain rfl := Option.some.inj h
    exact execConfigure_held x.status pc
  | worker thread pc => exact execWorker_held h
  | deliver video | errorStream video =>
    obtain rfl := Option.some.inj h
    exact takeStream_held (fun s => held_sendStreamResult s _) rfl
  | compressedImage source | engineError source | takeFailed source =>
    obtain rfl := Option.some.inj h
    exact takeJpeg_held (fun j => by simp [held]) rfl
  | beginNextJpeg =>
    obtain rfl := Option.some.inj h
    rcases execBeginNextJpeg_cases w with ⟨j, -, -, -, he⟩ | he <;>
      · rw [he]
        exact takesQueued_goOn rfl rfl
  | applyRequestControls settings =>
    obtain rfl := Option.some.inj h
    refine takesQueued_goOn rfl (weighList_eq_zero _ fun a ha => ?_)
    rcases settings with _ | s
    · cases ha
    · obtain ⟨u, -, rfl⟩ := List.mem_map.mp ha
      rfl
  | startNextJpegCapture | takePicture j =>
    obtain rfl := Option.some.inj h
    refine takesQueued_goOn rfl ?_
    split_ifs <;> rfl
  | updateControls | errorBuffer | bufferResult =>
    obtain rfl := Option.some.inj h
    exact takesQueued_goOn rfl rfl

/-- An output goes into its queue, or into an error when the queue is full. -/
theorem enqueueOutput_held (video : Bool) (output : Option Output) (p : PreviewRequest)
    (next : RequestPc) (w : World) :
    (enqueueOutput video output p next w).shared.log = w.log ∧
    (enqueueOutput video output p next w).shared.device.queued +
        (weighList held (enqueueOutput video output p next w).push +
          weigh held (enqueueOutput video output p next w).fork) =
      w.device.queued + (tokens p.frameNumber output.toList + held (.request next p)) := by
  rcases output with _ | o
  · refine ⟨rfl, ?_⟩
    show w.device.queued + (held (.request next p) + 0 + 0) = _ + (0 + _)
    abel
  · have htok : tokens p.frameNumber (some o).toList = {(p.frameNumber, o)} :=
      tokens_singleton _ _
    rcases enqueueOutput_cases video o p next w with ⟨q, hq, h⟩ | ⟨-, h⟩
    · rw [h, htok]
      refine ⟨rfl, ?_⟩
      show (w.device.setStreamQueue video q).queued + (held (.request next p) + 0 + 0) = _
      have hset := queued_setStreamQueue w.device video q
      rw [hq, weighList_append, weighList_cons, weighList_nil, add_zero,
        add_comm _ (StreamRequest.token _), ← add_assoc] at hset
      rw [add_right_cancel hset, StreamRequest.token]
      abel
    · rw [h, htok]
      refine ⟨rfl, ?_⟩
      show w.device.queued + (weighList held (sendStreamResult _ false ++ [_]) + 0) = _
      rw [weighList_append, held_sendStreamResult, weighList_cons, weighList_nil,
        StreamRequest.token]
      abel

/-- The recognised outputs of a request are all its outputs, or its JPEG
    reservation is going to be refused. -/
def Device.KeepsOutputs (d : Device) (p : PreviewRequest) : Prop :=
  p.outputs.Perm p.recognised ∨
    ∃ o, p.jpegOutput = some o ∧ d.reserveJpegRequest (p.jpegRequest o) = none

/-- The condition on a run: a request that gets past its JPEG reservation
    consists of recognised outputs. -/
def OutputsRecognised (c : State) (i : Activation) (_ : Answer) : Prop :=
  ∀ p, i = .request .reserve p → c.shared.device.KeepsOutputs p

theorem tokens_recognised (p : PreviewRequest) :
    tokens p.frameNumber p.recognised =
      tokens p.frameNumber p.previewOutput.toList + tokens p.frameNumber p.videoOutput.toList +
        tokens p.frameNumber p.jpegOutput.toList := by
  rw [PreviewRequest.recognised, tokens_append, tokens_append]

/-- The reservation passes on the outputs of the request, the JPEG output through
    its queue. -/
theorem reserveOutput_held {p : PreviewRequest} (hp : w.device.KeepsOutputs p) :
    (reserveOutput p w).shared.log = w.log ∧
    (reserveOutput p w).shared.device.queued +
        (weighList held (reserveOutput p w).push + weigh held (reserveOutput p w).fork) =
      w.device.queued + tokens p.frameNumber p.outputs := by
  have passed : p.outputs.Perm p.recognised →
      tokens p.frameNumber p.outputs = held (.request .shutter p) +
        tokens p.frameNumber p.jpegOutput.toList := fun hperm =>
    (weighList_perm _ hperm).trans (tokens_recognised p)
  rcases reserveOutput_cases p w with ⟨hj, h⟩ | ⟨o, q, hj, hf, hq, h⟩ | ⟨o, hj, -, h⟩
  · rw [h]
    rcases hp with hperm | ⟨o, ho, -⟩
    · refine ⟨rfl, ?_⟩
      rw [passed hperm, hj]
      show w.device.queued + (held _ + 0 + 0) = _ + (_ + 0)
      abel
    · rw [hj] at ho
      cases ho
  · rw [h]
    rcases hp with hperm | ⟨o', ho', hnone⟩
    · refine ⟨rfl, ?_⟩
      rw [passed hperm, hj]
      simp only [goOn, World.setDevice, Device.queued, Device.streamQueue, hq, weighList_append,
        weighList_cons, weighList_nil, weigh_nil, JpegRequest.token, PreviewRequest.jpegRequest,
        Option.toList_some, tokens_singleton]
      abel
    · -- the reservation cannot have been both made and refused
      rw [hj] at ho'
      obtain rfl := Option.some.inj ho'
      rw [reserveOutput, hj] at h
      rw [PreviewRequest.jpegRequest] at hnone
      simp only [hnone] at h
      exact absurd (congrArg Outcome.push h) (by simp)
  · rw [h]
    refine ⟨rfl, ?_⟩
    show w.device.queued + (tokens _ _ + 0 + 0) = _
    abel

theorem execRequest_held {pc : RequestPc} {p : PreviewRequest}
    (hp : pc = .reserve → w.device.KeepsOutputs p) :
    (execRequest p w pc).shared.device.queued +
        (weighList held (execRequest p w pc).push + weigh held (execRequest p w pc).fork) +
        handedBack (execRequest p w pc).shared.log =
      w.device.queued + held (.request pc p) + handedBack w.log := by
  have sent : ∀ e : Event, handedBack (w.log ++ [e]) = handedBack w.log + e.returned := by
    intro e
    rw [handedBack_append]
    exact congrArg _ (add_zero _)
  cases pc with
  | notifyError | shutter | sendMetadata =>
    show w.device.queued + (held _ + 0 + 0) + handedBack (w.log ++ [_]) = _
    rw [sent]
    simp only [held, Event.returned, List.map_nil, tokens_nil, add_zero]
  | errorResult =>
    show w.device.queued + (held _ + 0 + 0) + handedBack (w.log ++ [_]) = _
    rw [sent]
    simp only [held, Event.returned, List.map_map, Function.comp_def, List.map_id']
    abel
  | metadata =>
    show w.device.queued + (held _ + 0 + 0) + handedBack w.log = _
    simp only [held, add_zero]
  | startStill =>
    show w.device.queued + (weighList held (if _ then _ else _) + 0) + handedBack w.log = _
    split_ifs <;> simp [held]
  | finish => rfl
  | reserve =>
    obtain ⟨hlog, hq⟩ := reserveOutput_held (hp rfl)
    show (reserveOutput p w).shared.device.queued + _ + handedBack (reserveOutput p w).shared.log = _
    rw [hlog]
    exact congrArg (· + _) hq
  | enqueuePreview =>
    obtain ⟨hlog, hq⟩ := enqueueOutput_held false p.previewOutput p .enqueueVideo w
    show (enqueueOutput _ _ p _ w).shared.device.queued + _ +
      handedBack (enqueueOutput _ _ p _ w).shared.log = _
    rw [hlog]
    exact congrArg (· + _) hq
  | enqueueVideo =>
    obtain ⟨hlog, hq⟩ := enqueueOutput_held true p.videoOutput p .startStill w
    show (enqueueOutput _ _ p _ w).shared.device.queued + _ +
      handedBack (enqueueOutput _ _ p _ w).shared.log = _
    rw [hlog]
    exact congrArg (· + _) (hq.trans (congrArg _ (add_zero _)))

/-- **The balance of one stretch.** -/
theorem exec_tokens {i : Activation} {x : Answer} {w : World} {o : Stretch}
    (h : exec i x w = some o)
    (hp : ∀ p, i = .request .reserve p → w.device.KeepsOutputs p) :
    o.shared.device.queued + (weighList held o.push + weigh held o.fork) +
        handedBack o.shared.log + w.acceptedTokens =
      w.device.queued + held i + handedBack w.log + o.shared.acceptedTokens := by
  rcases hi : i.isRequestCode with _ | _
  · have hoff := exec_off h hi
    have htakes : _ = _ := exec_takesQueued h hi
    rw [World.acceptedTokens, World.acceptedTokens, hoff.accepted, hoff.log, handedBack_append,
      held_eq_of_off hi, htakes]
    abel
  · cases i with
    | classify r =>
      obtain rfl := Option.some.inj h
      rcases execClassify_cases r x.nowNs w with he | ⟨p, hframe, hout, he | he⟩ <;>
        · rw [he]
          simp [held, World.acceptedTokens, CaptureRequest.tokens, *]
          try abel
    | request pc p =>
      obtain rfl := Option.some.inj h
      rw [execRequest_held fun hpc => hp p (by rw [hpc])]
      have hacc : (execRequest p w pc).shared.accepted = w.accepted := by
        by_cases hpc : pc = .finish
        · rw [hpc]
          rfl
        · obtain ⟨w', pre, pc', he, -, ha, -⟩ := execRequest_advance p w hpc
          rw [he]
          exact ha
      rw [World.acceptedTokens, World.acceptedTokens, hacc]
    | _ => cases hi

end Stretch

/-! ## Runs -/

variable {cameraId : ℕ} {c₁ c : State}

/-- The tokens of the accepted requests are those at the three places. -/
theorem conservation (h : Reach translator OutputsRecognised (State.opened cameraId) c) :
    c.shared.acceptedTokens = places c := by
  refine Reach.weigh_invariant held
    (fun w T => w.acceptedTokens = w.device.queued + T + handedBack w.log) rfl ?_ ?_ h
  · intro w k w' stack T he hT
    rcases enter_cases he with ⟨r, -, rfl, rfl⟩ | ⟨u, a, rfl, rfl, ha⟩
    · show w.acceptedTokens = w.device.queued + (T + (0 + 0)) + handedBack w.log
      rwa [add_zero, add_zero]
    · have ha0 : held a = 0 := by
        cases a with
        | bufferResult | request => cases ha
        | _ => rfl
      rw [weighList_cons, weighList_nil, ha0, add_zero, add_zero]
      exact hT
  · intro w A i rest B x o R _ hg he _ hT
    have hstep := exec_tokens he hg
    rw [hT] at hstep
    apply add_right_cancel (b := w.device.queued + held i + handedBack w.log)
    rw [add_comm, ← hstep]
    abel

/-- The tokens of one frame among those of many requests. -/
theorem filter_tokens (n : ℕ) (l : List CaptureRequest) :
    (weighList CaptureRequest.tokens l).filter (fun t => t.1 = n) =
      weighList CaptureRequest.tokens (l.filter fun r => r.frameNumber = n) := by
  have one : ∀ m (os : List Output), (tokens m os).filter (fun t => t.1 = n) =
      if m = n then tokens m os else 0 := by
    intro m os
    induction os with
    | nil => simp
    | cons o os ih =>
      rw [← List.singleton_append, tokens_append, Multiset.filter_add, ih, tokens_singleton,
        Multiset.filter_singleton]
      split_ifs <;> simp
  induction l with
  | nil => rfl
  | cons r l ih =>
    rw [weighList_cons, Multiset.filter_add, ih, CaptureRequest.tokens, one]
    by_cases hr : r.frameNumber = n
    · rw [if_pos hr, List.filter_cons_of_pos (by simpa using hr), weighList_cons,
        CaptureRequest.tokens]
    · rw [if_neg hr, List.filter_cons_of_neg (by simpa using hr), zero_add]

/-- From a state in which a flush begins: as long as a queue is going to be
    emptied it may hold anything, and afterwards nothing of the requests whose
    call had returned 0 before. -/
theorem flush_drains {good : State → Activation → Answer → Prop} {k : Queue}
    (h₁ : Reach translator good (State.opened cameraId) c₁)
    (hflush : Has (fun a => a = .flush .stop) c₁.threads) (h : Reach translator good c₁ c) :
    Has (fun a => clears k a = true) c.threads ∨
      ∀ n, c₁.shared.ReturnedOk n → n ∉ c.shared.device.queueFrames k := by
  induction h with
  | refl =>
    obtain ⟨stack, hs, a, ha, rfl⟩ := hflush
    exact .inl ⟨stack, hs, _, ha, by cases k <;> rfl⟩
  | tail hreach hstep ih =>
    cases hstep with
    | call call he =>
      refine ih.imp (fun hhas => (has_append _ _).mpr (.inl hhas)) fun hold n hn => ?_
      rcases enter_cases he with ⟨r, -, rfl, -⟩ | ⟨u, a, rfl, -⟩ <;> exact hold n hn
    | run x hg he =>
      rename_i w A B i rest o
      rw [has_run]
      rcases ih with hhas | hold
      · rcases (has_split _ _ _ _).mp hhas with hothers | hi
        · exact .inl (.inl hothers)
        · rcases exec_clears he hi with hpush | hempty
          · exact .inl (.inr (.inl hpush))
          · exact .inr fun n _ => by simp [hempty]
      · refine .inr fun n hn hmem => ?_
        rcases exec_queueFrames he hmem with hbefore | ⟨p, rfl, hp, -⟩
        · exact hold n hn hbefore
        · -- the call of such a frame is over, so it queues nothing any more
          obtain ⟨-, hzero, -⟩ := returned_ok (h₁.trans hreach) (returnedOk_mono hreach hn)
          rw [weigh_split, inRequest, if_pos hp] at hzero
          omega

theorem not_has_clears_of_quiet {k : Queue} (h : Quiet c) :
    ¬ Has (fun a => clears k a = true) c.threads := by
  rintro ⟨stack, hs, a, ha, hclears⟩
  rcases h stack hs with rfl | ⟨thread, rfl⟩
  · cases ha
  · rw [List.mem_singleton.mp ha] at hclears
    cases k <;> cases hclears

theorem mem_queueFrames_of_queued {d : Device} {t : Token} (h : t ∈ d.queued) :
    ∃ k, t.1 ∈ d.queueFrames k := by
  have mem : ∀ {τ : Type} {f : τ → ℕ} {g : τ → Multiset Token} {l : List τ},
      (∀ a, ∃ o, g a = {(f a, o)}) → t ∈ weighList g l → t.1 ∈ l.map f := by
    intro τ f g l hg ht
    induction l with
    | nil => cases ht
    | cons a l ih =>
      rw [weighList_cons, Multiset.mem_add] at ht
      rcases ht with ht | ht
      · obtain ⟨o, ho⟩ := hg a
        rw [ho, Multiset.mem_singleton] at ht
        rw [ht]
        exact List.mem_cons_self
      · exact List.mem_cons_of_mem _ (ih ht)
  rw [Device.queued, Multiset.mem_add, Multiset.mem_add] at h
  rcases h with (h | h) | h
  · exact ⟨.preview, mem (fun s => ⟨s.output, rfl⟩) h⟩
  · exact ⟨.video, mem (fun s => ⟨s.output, rfl⟩) h⟩
  · exact ⟨.jpeg, mem (fun j => ⟨j.output, rfl⟩) h⟩

/-! ## The requests whose call returned 0 -/

/-- Each request whose call returned 0 has all its output buffers, each once,
    among the pending queues, the activations and what was handed back. -/
def Conserved (c : State) : Prop :=
  ∀ n, c.shared.ReturnedOk n → ∃ r ∈ c.shared.accepted, r.frameNumber = n ∧
    (places c).filter (fun t => t.1 = n) = r.tokens

/-- If a flush begins in `c₁` and nothing is in progress in `c`, no buffer of a
    request whose call had returned 0 in `c₁` is pending in `c`. -/
def Flushed (c₁ c : State) : Prop :=
  Has (fun a => a = .flush .stop) c₁.threads → Quiet c →
    ∀ n, c₁.shared.ReturnedOk n → ∀ t ∈ c.shared.device.queued, t.1 ≠ n

/-- **Main theorem: no output buffer is lost or returned twice**, and none stays
    pending across a flush, in every run in which the requests that get past
    their JPEG reservation consist of recognised outputs. -/
theorem buffers_conserved (h₁ : Reach translator OutputsRecognised (State.opened cameraId) c₁)
    (h : Reach translator OutputsRecognised c₁ c) : Conserved c ∧ Flushed c₁ c := by
  constructor
  · intro n hn
    obtain ⟨-, -, hone⟩ := returned_ok (h₁.trans h) hn
    rw [World.acceptedOf, List.countP_eq_length_filter, List.length_eq_one_iff] at hone
    obtain ⟨r, hr⟩ := hone
    have hmem : r ∈ c.shared.accepted.filter fun r => r.frameNumber = n := by
      rw [hr]
      exact List.mem_singleton_self r
    obtain ⟨hacc, hframe⟩ := List.mem_filter.mp hmem
    refine ⟨r, hacc, by simpa using hframe, ?_⟩
    rw [← conservation (h₁.trans h), World.acceptedTokens, filter_tokens, hr, weighList_cons,
      weighList_nil, add_zero]
  · intro hflush hquiet n hn t ht htn
    obtain ⟨k, hk⟩ := mem_queueFrames_of_queued ht
    rcases flush_drains h₁ hflush h with hclears | hold
    · exact not_has_clears_of_quiet hquiet hclears
    · exact hold n hn (htn ▸ hk)

/-! ## Two runs -/

/-- Configure stream 1 for the preview. -/
def configurePreview : List (Action Call Answer) :=
  .call (.configureStreams [some ⟨1, true, .implementationDefined, false⟩]) ::
    List.replicate 6 (go 0)

/-- A request for buffer 10 of stream 1. -/
def previewRequest : CaptureRequest := ⟨1, none, none, [⟨some 1, some 10, -1, 0⟩]⟩

/-- A request for buffer 10 of stream 1 and buffer 20 of stream 9. -/
def mixedRequest : CaptureRequest :=
  ⟨1, none, none, [⟨some 1, some 10, -1, 0⟩, ⟨some 9, some 20, -1, 0⟩]⟩

/-- A check for `OutputsRecognised`. -/
def outputsRecognised (_ : State) : Activation → Answer → Bool
  | .request .reserve p, _ => p.outputs.isPerm p.recognised
  | _, _ => true

theorem outputsRecognised_sound (c : State) (i : Activation) (x : Answer)
    (h : outputsRecognised c i x = true) : OutputsRecognised c i x := by
  rintro p rfl
  exact .inl (List.isPerm_iff.mp h)

/-- A preview request is queued, and a flush begins. -/
def flushBegins : State :=
  (State.opened 0).after outputsRecognised
    (configurePreview ++ .call (.processCaptureRequest previewRequest) :: List.replicate 10 (go 2) ++
      [.call .flush])

/-- The flush stops the worker, waits for it and drains the queues. -/
def flushEnds : State :=
  flushBegins.after outputsRecognised
    ([go 3, go 1, go 1] ++ List.replicate 13 (go 3))

theorem flushEnds_conserved :
    (flushBegins.shared.ReturnedOk 1 ∧ Has (fun a => a = .flush .stop) flushBegins.threads ∧
      Quiet flushEnds) ∧ Conserved flushEnds ∧ Flushed flushBegins flushEnds := by
  refine ⟨⟨?_, ?_, ?_⟩, ?_⟩
  · show (1, 0) ∈ [(1, (0 : ℤ))]
    decide
  · exact ⟨[.flush .stop], List.mem_of_mem_getLast? rfl, _, List.mem_singleton_self _, rfl⟩
  · intro stack hs
    have hall : ∀ stack ∈ flushEnds.threads, stack = [] := by decide
    exact .inl (hall stack hs)
  · exact @buffers_conserved 0 _ _ (reach_after outputsRecognised_sound rfl)
      (reach_after outputsRecognised_sound rfl)

/-- The mixed request after it was accepted and served. -/
def mixedEnd : State :=
  (State.opened 0).after (fun _ _ _ => true)
    (configurePreview ++ .call (.processCaptureRequest mixedRequest) :: List.replicate 10 (go 2))

/-- A request that mixes a configured stream with another one returns 0, and the
    buffer of the other stream is nowhere. -/
theorem buffers_not_conserved :
    ¬ ∀ c, Reach translator AnyStep (State.opened 0) c → Conserved c := by
  intro hall
  have hreach : Reach translator AnyStep (State.opened 0) mixedEnd :=
    reach_after (fun _ _ _ _ => trivial) rfl
  obtain ⟨r, hr, -, hplaces⟩ := hall mixedEnd hreach 1 (by
    show (1, 0) ∈ [(1, (0 : ℤ))]
    decide)
  obtain rfl : r = mixedRequest := List.mem_singleton.mp hr
  have hlost : ((1, ⟨9, 20⟩) : Token) ∉ places mixedEnd := by decide
  have hmem : ((1, ⟨9, 20⟩) : Token) ∈ mixedRequest.tokens := by decide
  rw [← hplaces] at hmem
  exact hlost (Multiset.mem_of_mem_filter hmem)

end Pro5Android.Camera
