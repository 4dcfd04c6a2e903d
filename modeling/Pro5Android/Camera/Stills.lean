import Pro5Android.Camera.Ordering
import Mathlib.Data.Multiset.OrderedMonoid

/-!
# Still captures and their requests

The engine's answers carry no request: an image or a failure goes to the head of
the JPEG queue. That this is the request whose picture was taken rests on
`jpeg_capture_active`, which `m86_begin_next_jpeg_request` sets and
`m86_take_jpeg_request` clears. It holds as long as every answer that takes a
request answers the outstanding picture, and a flush takes requests only once
the outstanding picture is cancelled and none is being started. The code sees to
neither: `CAMERA_MSG_ERROR` takes the head also when no picture of it was
started (lines 1071–1077), an answer that arrives after the flush that cancelled
its picture takes the next request, and a flush does not wait for a
`takePicture` under way.

Results:
* `exec_kept`: only the activations of `movesPicture` touch the JPEG queue, the
  flag or the pictures.
* `exec_matched`, `matched`: at most one picture is started or outstanding, the
  flag says so, and it belongs to the head of the queue.
* `exec_sound`, `answered`: every answer went to the request of its picture.
* `stills_matched`: both.
* `stills_not_matched`: a run in which an engine error takes a request whose
  picture was never started.
-/

namespace Pro5Android.Camera

open Lib Lib.Machine

/-! ## The picture in progress -/

/-- The requests whose `takePicture` an activation is about to call or has just
    seen fail. -/
def starting : Activation → Multiset JpegRequest
  | .takePicture j | .takeFailed j => {j}
  | _ => 0

/-- The requests whose picture is being started or outstanding. -/
def inProgress (c : State) : Multiset JpegRequest :=
  weigh starting c.threads + (c.shared.still.outstanding : Multiset JpegRequest)

/-- With `T` being started: the flag is clear and there is no picture, or it is
    set and there is one, of the head of the queue. -/
def Matched (w : World) (T : Multiset JpegRequest) : Prop :=
  (w.device.jpegCaptureActive = false ∧ T = 0 ∧ w.still.outstanding = []) ∨
    w.device.jpegCaptureActive = true ∧
      ∃ j, T + (w.still.outstanding : Multiset JpegRequest) = {j} ∧
        w.device.pendingJpeg.toList.head? = some j

/-- The condition on a run: whatever takes the head of the JPEG queue is the
    answer to an outstanding picture, or a flush (or a failed start of the
    preview) while no picture is being started and the outstanding one is
    cancelled. -/
def AnswersOutstanding (c : State) (i : Activation) (_ : Answer) : Prop :=
  c.shared.device.pendingJpeg.toList ≠ [] →
    match i with
    | .compressedImage source => source ∈ c.shared.still.outstanding
    | .engineError source => ∃ j ∈ c.shared.still.outstanding, source = some j
    | .flush .drainJpeg | .worker _ .failJpeg =>
      weigh starting c.threads = 0 ∧
        ∀ j ∈ c.shared.still.outstanding, j ∈ c.shared.still.cancelled
    | _ => True

/-- If one of the parts of a multiset with one element is not empty, it is all. -/
theorem part_of_singleton {T : Multiset JpegRequest} {l : List JpegRequest} {j s : JpegRequest}
    (h : T + (l : Multiset JpegRequest) = {j}) (hs : s ∈ l) : T = 0 ∧ l = [j] ∧ s = j := by
  have hcard := congrArg Multiset.card h
  have hpos : 0 < l.length := List.length_pos_of_mem hs
  rw [Multiset.card_add, Multiset.coe_card, Multiset.card_singleton] at hcard
  have hT : T = 0 := Multiset.card_eq_zero.mp (by omega)
  rw [hT, zero_add, Multiset.coe_eq_singleton] at h
  rw [h] at hs
  exact ⟨hT, h, List.mem_singleton.mp hs⟩

theorem started_of_singleton {T : Multiset JpegRequest} {l : List JpegRequest}
    {j s : JpegRequest} (h : T + {s} + (l : Multiset JpegRequest) = {j}) :
    T = 0 ∧ l = [] ∧ s = j := by
  have hcard := congrArg Multiset.card h
  rw [Multiset.card_add, Multiset.card_add, Multiset.coe_card, Multiset.card_singleton,
    Multiset.card_singleton] at hcard
  have hT : T = 0 := Multiset.card_eq_zero.mp (by omega)
  have hl : l = [] := List.length_eq_zero_iff.mp (by omega)
  rw [hT, hl, zero_add, Multiset.coe_nil, add_zero, Multiset.singleton_inj] at h
  exact ⟨hT, hl, h⟩

/-! ## Stretches that leave the picture alone -/

section Stretch

variable {w : World} {o : Stretch} {T : Multiset JpegRequest}

/-- The stretch touches neither the JPEG queue, nor the flag, nor the pictures. -/
structure PictureKept (w : World) (o : Stretch) : Prop where
  pendingJpeg : o.shared.device.pendingJpeg = w.device.pendingJpeg
  active : o.shared.device.jpegCaptureActive = w.device.jpegCaptureActive
  outstanding : o.shared.still.outstanding = w.still.outstanding
  attempts : o.shared.still.attempts = w.still.attempts
  deliveries : o.shared.still.deliveries = w.still.deliveries
  push : weighList starting o.push = 0
  fork : weigh starting o.fork = 0

theorem PictureKept.matched (h : PictureKept w o) (hT : Matched w T) :
    Matched o.shared (T + (weighList starting o.push + weigh starting o.fork)) := by
  rw [Matched, h.pendingJpeg, h.active, h.outstanding, h.push, h.fork, add_zero, add_zero]
  exact hT

theorem pictureKept_goOn {w' : World} {push : List Activation}
    (hp : w'.device.pendingJpeg = w.device.pendingJpeg)
    (ha : w'.device.jpegCaptureActive = w.device.jpegCaptureActive)
    (he : w'.still = { w.still with cancelled := w'.still.cancelled })
    (hs : weighList starting push = 0) : PictureKept w (goOn w' push) :=
  have ho := congrArg StillEngine.outstanding he
  have ht := congrArg StillEngine.attempts he
  have hd := congrArg StillEngine.deliveries he
  ⟨hp, ha, ho, ht, hd, hs, rfl⟩

@[simp] theorem starting_sendStreamResult (s : StreamRequest) (success : Bool) :
    weighList starting (sendStreamResult s success) = 0 := by
  cases success <;> rfl

@[simp] theorem starting_sendJpegError (j : JpegRequest) :
    weighList starting (sendJpegError j) = 0 := rfl

@[simp] theorem starting_sendJpegResult (j : JpegRequest) (status : ℤ) :
    weighList starting (sendJpegResult j status) = 0 := by
  rw [sendJpegResult]
  split_ifs <;> rfl

theorem takeStream_kept {video : Bool} {found : StreamRequest → List Activation}
    {empty : List Activation} (hf : ∀ s, weighList starting (found s) = 0)
    (he : weighList starting empty = 0) : PictureKept w (takeStream video found empty w) := by
  rcases takeStream_cases video found empty w with ⟨s, q, -, h⟩ | ⟨-, h⟩
  · rw [h]
    exact pictureKept_goOn (Device.setStreamQueue_pendingJpeg _ _ _)
      (Device.setStreamQueue_jpegCaptureActive _ _ _) rfl (hf s)
  · rw [h]
    exact pictureKept_goOn rfl rfl rfl he

theorem drainStream_kept {video : Bool} {again next : Activation} (ha : starting again = 0)
    (hn : starting next = 0) : PictureKept w (drainStream video again next w) :=
  takeStream_kept (fun s => by simp [ha]) (by simp [hn])

theorem execFlush_kept {pc : FlushPc} (h : execFlush w pc = some o) (hpc : pc ≠ .drainJpeg) :
    PictureKept w o := by
  cases pc with
  | drainJpeg => exact absurd rfl hpc
  | drainPreview | drainVideo =>
    obtain rfl := Option.some.inj h
    exact drainStream_kept rfl rfl
  | awaitWorker thread =>
    rw [execFlush] at h
    split_ifs at h
    obtain rfl := Option.some.inj h
    exact pictureKept_goOn rfl rfl rfl rfl
  | _ =>
    obtain rfl := Option.some.inj h
    exact pictureKept_goOn rfl rfl rfl rfl

theorem execWorker_kept {thread : ℕ} {status : ℤ} {pc : WorkerPc}
    (h : execWorker thread status w pc = some o) (hpc : pc ≠ .failJpeg) : PictureKept w o := by
  cases pc with
  | failJpeg => exact absurd rfl hpc
  | failRecording | failPreview | failVideo =>
    obtain rfl := Option.some.inj h
    exact drainStream_kept rfl rfl
  | wait =>
    rw [execWorker] at h
    split_ifs at h <;>
      · obtain rfl := Option.some.inj h
        exact pictureKept_goOn rfl rfl rfl rfl
  | _ =>
    obtain rfl := Option.some.inj h
    exact pictureKept_goOn rfl rfl rfl rfl

theorem execConfigure_kept (status : ℤ) (pc : ConfigurePc) :
    PictureKept w (execConfigure status w pc) := by
  cases pc with
  | start streams =>
    rw [execConfigure]
    split_ifs <;> exact pictureKept_goOn rfl rfl rfl rfl
  | scan streams =>
    rw [execConfigure]
    split <;> exact pictureKept_goOn rfl rfl rfl rfl
  | setParameters =>
    rw [execConfigure]
    split_ifs <;> exact pictureKept_goOn rfl rfl rfl rfl
  | clearStop | setJoinable => exact pictureKept_goOn rfl rfl rfl rfl
  | createWorker =>
    rw [execConfigure]
    split_ifs
    · exact ⟨rfl, rfl, rfl, rfl, rfl, rfl, rfl⟩
    · exact pictureKept_goOn rfl rfl rfl rfl

theorem execRequest_kept {p : PreviewRequest} {pc : RequestPc} (hpc : pc ≠ .reserve) :
    PictureKept w (execRequest p w pc) := by
  have enqueue : ∀ video output next,
      PictureKept w (enqueueOutput video output p next w) := by
    intro video output next
    rcases output with _ | o
    · exact pictureKept_goOn rfl rfl rfl rfl
    · rcases enqueueOutput_cases video o p next w with ⟨q, -, he⟩ | ⟨-, he⟩
      · rw [he]
        exact pictureKept_goOn (Device.setStreamQueue_pendingJpeg _ _ _)
          (Device.setStreamQueue_jpegCaptureActive _ _ _) rfl rfl
      · rw [he]
        exact pictureKept_goOn rfl rfl rfl rfl
  cases pc with
  | reserve => exact absurd rfl hpc
  | enqueuePreview => exact enqueue _ _ _
  | enqueueVideo => exact enqueue _ _ _
  | startStill =>
    refine pictureKept_goOn rfl rfl rfl ?_
    split_ifs <;> rfl
  | _ => exact pictureKept_goOn rfl rfl rfl rfl

/-- The activations that touch the JPEG queue, the flag or the pictures. -/
def movesPicture : Activation → Bool
  | .request .reserve _ | .flush .drainJpeg | .worker _ .failJpeg | .compressedImage _
  | .engineError _ | .beginNextJpeg | .takePicture _ | .takeFailed _ => true
  | _ => false

theorem starting_eq_zero {i : Activation} (h : movesPicture i = false) : starting i = 0 := by
  cases i with
  | takePicture | takeFailed => cases h
  | _ => rfl

/-- **All other stretches leave the picture alone.** -/
theorem exec_kept {i : Activation} {x : Answer} (h : exec i x w = some o)
    (hi : movesPicture i = false) : PictureKept w o := by
  cases i with
  | classify r =>
    obtain rfl := Option.some.inj h
    rcases execClassify_cases r x.nowNs w with he | ⟨p, -, -, he | he⟩ <;>
      · rw [he]
        exact pictureKept_goOn rfl rfl rfl rfl
  | request pc p =>
    obtain rfl := Option.some.inj h
    exact execRequest_kept (by rintro rfl; cases hi)
  | flush pc => exact execFlush_kept h (by rintro rfl; cases hi)
  | worker thread pc => exact execWorker_kept h (by rintro rfl; cases hi)
  | configure pc =>
    obtain rfl := Option.some.inj h
    exact execConfigure_kept x.status pc
  | deliver video | errorStream video =>
    obtain rfl := Option.some.inj h
    exact takeStream_kept (fun s => starting_sendStreamResult s _) rfl
  | applyRequestControls settings =>
    obtain rfl := Option.some.inj h
    refine pictureKept_goOn rfl rfl rfl (weighList_eq_zero _ fun a ha => ?_)
    rcases settings with _ | s
    · cases ha
    · obtain ⟨u, -, rfl⟩ := List.mem_map.mp ha
      rfl
  | startNextJpegCapture =>
    obtain rfl := Option.some.inj h
    refine pictureKept_goOn rfl rfl rfl ?_
    split_ifs <;> rfl
  | updateControls | errorBuffer | bufferResult =>
    obtain rfl := Option.some.inj h
    exact pictureKept_goOn rfl rfl rfl rfl
  | _ => cases hi

/-! ## Stretches that move the picture on -/

/-- A request reserved behind the others does not change the head of a queue
    that has one. -/
theorem reserve_matched {p : PreviewRequest} (hT : Matched w T) :
    Matched (reserveOutput p w).shared
      (T + (weighList starting (reserveOutput p w).push +
        weigh starting (reserveOutput p w).fork)) := by
  rcases reserveOutput_cases p w with ⟨-, h⟩ | ⟨o, q, -, -, hq, h⟩ | ⟨o, -, -, h⟩
  · rw [h]
    exact (pictureKept_goOn rfl rfl rfl rfl).matched hT
  · rw [h]
    show Matched _ (T + 0)
    rw [add_zero]
    refine hT.imp id fun ⟨hactive, j, hone, hhead⟩ => ⟨hactive, j, hone, ?_⟩
    show q.toList.head? = some j
    rw [hq, List.head?_append, hhead]
    rfl
  · rw [h]
    exact (pictureKept_goOn rfl rfl rfl rfl).matched hT

theorem begin_matched (hT : Matched w T) :
    Matched (execBeginNextJpeg w).shared
      (T + (weighList starting (execBeginNextJpeg w).push +
        weigh starting (execBeginNextJpeg w).fork)) := by
  rcases execBeginNextJpeg_cases w with ⟨j, -, hidle, hhead, h⟩ | h
  · rw [h]
    rcases hT with ⟨-, rfl, hout⟩ | ⟨hactive, -⟩
    · refine .inr ⟨rfl, j, ?_, hhead⟩
      simp [starting, hout]
    · rw [hidle] at hactive
      cases hactive
  · rw [h]
    exact (pictureKept_goOn rfl rfl rfl rfl).matched hT

/-- `takePicture` of the one request that was begun. -/
theorem attempt_matched {j : JpegRequest} (ok : Bool) (hT : Matched w (T + {j})) :
    Matched (w.setStill (w.still.attempt j ok)) (T + (if ok then 0 else {j})) := by
  rcases hT with ⟨-, hzero, -⟩ | ⟨hactive, j', hone, hhead⟩
  · have hcard := congrArg Multiset.card hzero
    simp at hcard
  · obtain ⟨rfl, hout, rfl⟩ := started_of_singleton hone
    refine .inr ⟨hactive, j, ?_, hhead⟩
    cases ok <;> simp [StillEngine.attempt, hout]

/-- Taking the head of the queue ends the picture in progress, if what it means
    for the pictures is that none is outstanding any more. -/
theorem takeJpeg_matched {still : Option JpegRequest → StillEngine}
    {found : JpegRequest → List Activation} {empty : List Activation}
    (hT : Matched w T) (hf : ∀ j, weighList starting (found j) = 0)
    (he : weighList starting empty = 0)
    (htake : ∀ j, w.device.pendingJpeg.toList.head? = some j → T = 0 ∧
      (still (some j)).outstanding = [])
    (hempty : w.device.pendingJpeg.toList = [] → w.still.outstanding = [] →
      (still none).outstanding = []) :
    Matched (takeJpeg still found empty w).shared
      (T + (weighList starting (takeJpeg still found empty w).push +
        weigh starting (takeJpeg still found empty w).fork)) := by
  rcases takeJpeg_cases still found empty w with ⟨j, q, hq, h⟩ | ⟨hq, h⟩
  · rw [h]
    obtain ⟨rfl, hout⟩ := htake j (by simp [hq])
    refine .inl ⟨rfl, ?_, hout⟩
    show 0 + (weighList starting (found j) + 0) = 0
    rw [hf, add_zero, add_zero]
  · rw [h]
    rcases hT with ⟨hidle, rfl, hout⟩ | ⟨-, j, -, hhead⟩
    · refine .inl ⟨hidle, ?_, hempty hq hout⟩
      show 0 + (weighList starting empty + 0) = 0
      rw [he, add_zero, add_zero]
    · rw [hq] at hhead
      cases hhead

/-- An answer to the outstanding picture, or one that finds no request. -/
theorem answer_matched {source : Option JpegRequest} {found : JpegRequest → List Activation}
    {empty : List Activation} (hT : Matched w T)
    (hs : w.device.pendingJpeg.toList ≠ [] → ∃ j ∈ w.still.outstanding, source = some j)
    (hf : ∀ j, weighList starting (found j) = 0) (he : weighList starting empty = 0) :
    Matched (takeJpeg (w.still.deliver source) found empty w).shared
      (T + (weighList starting (takeJpeg (w.still.deliver source) found empty w).push +
        weigh starting (takeJpeg (w.still.deliver source) found empty w).fork)) := by
  refine takeJpeg_matched hT hf he (fun j hhead => ?_) fun _ hout => ?_
  · obtain ⟨s, hmem, rfl⟩ := hs (by rintro hnil; rw [hnil] at hhead; cases hhead)
    rcases hT with ⟨-, -, hout⟩ | ⟨-, j', hone, -⟩
    · rw [hout] at hmem
      cases hmem
    · obtain ⟨rfl, hout, rfl⟩ := part_of_singleton hone hmem
      exact ⟨rfl, by simp [StillEngine.deliver, hout]⟩
  · cases source <;> simp [StillEngine.deliver, hout]

/-- A failed `takePicture` takes the request it was called for. -/
theorem takeFailed_matched {j : JpegRequest} (hT : Matched w (T + {j})) :
    Matched (execTakeFailed j w).shared
      (T + (weighList starting (execTakeFailed j w).push +
        weigh starting (execTakeFailed j w).fork)) := by
  rcases hT with ⟨-, hzero, -⟩ | ⟨-, j', hone, hhead⟩
  · have hcard := congrArg Multiset.card hzero
    simp at hcard
  · obtain ⟨rfl, hout, rfl⟩ := started_of_singleton hone
    rw [execTakeFailed]
    rcases takeJpeg_cases (w.still.deliver (some j))
        (fun failed => sendJpegError failed ++ [.beginNextJpeg]) [] w with
      ⟨j', q, hq, h⟩ | ⟨hq, -⟩
    · rw [h]
      exact .inl ⟨rfl, rfl, by simp [StillEngine.deliver, hout]⟩
    · rw [hq] at hhead
      cases hhead

/-- A loop that empties the queue meets no picture but a cancelled one. -/
theorem drain_matched {again next : Activation} (hT : Matched w T)
    (hs : w.device.pendingJpeg.toList ≠ [] →
      T = 0 ∧ ∀ j ∈ w.still.outstanding, j ∈ w.still.cancelled)
    (ha : starting again = 0) (hn : starting next = 0) :
    Matched (drainJpeg again next w).shared
      (T + (weighList starting (drainJpeg again next w).push +
        weigh starting (drainJpeg again next w).fork)) := by
  refine takeJpeg_matched hT (fun j => by simp [ha]) (by simp [hn]) (fun j hhead => ?_)
    fun _ hout => hout
  obtain ⟨hzero, hcancelled⟩ := hs (by rintro hnil; rw [hnil] at hhead; cases hhead)
  refine ⟨hzero, ?_⟩
  show (if j ∈ w.still.cancelled then w.still.outstanding.erase j else w.still.outstanding) = []
  rcases hT with ⟨-, -, hout⟩ | ⟨-, j', hone, hhead'⟩
  · simp [hout]
  · -- the head is the request of the outstanding picture
    rw [hhead] at hhead'
    obtain rfl := Option.some.inj hhead'
    rw [hzero, zero_add, Multiset.coe_eq_singleton] at hone
    rw [if_pos (hcancelled j (by simp [hone])), hone]
    exact List.erase_cons_head ..

/-- **One stretch keeps the flag, the picture and the head of the queue matched.** -/
theorem exec_matched {i : Activation} {x : Answer} {threads : List (List Activation)}
    (h : exec i x w = some o) (hthreads : weigh starting threads = T + starting i)
    (hg : AnswersOutstanding ⟨w, threads⟩ i x) (hT : Matched w (T + starting i)) :
    Matched o.shared (T + (weighList starting o.push + weigh starting o.fork)) := by
  have idle : starting i = 0 → weigh starting threads = T ∧ Matched w T := by
    intro hi
    rw [hi, add_zero] at hthreads hT
    exact ⟨hthreads, hT⟩
  rcases hm : movesPicture i with _ | _
  · exact (exec_kept h hm).matched (idle (starting_eq_zero hm)).2
  cases i with
  | request pc p =>
    cases pc with
    | reserve =>
      obtain rfl := Option.some.inj h
      exact reserve_matched (idle rfl).2
    | _ => cases hm
  | flush pc =>
    cases pc with
    | drainJpeg =>
      obtain rfl := Option.some.inj h
      obtain ⟨rfl, hT⟩ := idle rfl
      exact drain_matched hT hg rfl rfl
    | _ => cases hm
  | worker thread pc =>
    cases pc with
    | failJpeg =>
      obtain rfl := Option.some.inj h
      obtain ⟨rfl, hT⟩ := idle rfl
      exact drain_matched hT hg rfl rfl
    | _ => cases hm
  | compressedImage source =>
    obtain rfl := Option.some.inj h
    exact answer_matched (idle rfl).2 (fun hne => ⟨source, hg hne, rfl⟩)
      (fun j => by simp [starting]) rfl
  | engineError source =>
    obtain rfl := Option.some.inj h
    exact answer_matched (idle rfl).2 hg (fun j => by simp [starting]) rfl
  | beginNextJpeg =>
    obtain rfl := Option.some.inj h
    exact begin_matched (idle rfl).2
  | takePicture j =>
    obtain rfl := Option.some.inj h
    have hafter := attempt_matched (decide (x.status = 0)) hT
    by_cases hx : x.status = 0 <;> simpa [hx, starting] using hafter
  | takeFailed j =>
    obtain rfl := Option.some.inj h
    exact takeFailed_matched hT
  | _ => cases hm

end Stretch

/-! ## The answers -/

/-- Every answer went to the request of its picture, and the outstanding
    pictures were started. -/
structure StillEngine.Sound (e : StillEngine) : Prop where
  delivered : ∀ d ∈ e.deliveries, d.1 = some d.2 ∧ d.2 ∈ e.attempts
  started : ∀ j ∈ e.outstanding, j ∈ e.attempts

/-- A `takePicture` that has failed was called. -/
def Attempted (e : StillEngine) : Activation → Prop
  | .takeFailed j => j ∈ e.attempts
  | _ => True

section Answers

variable {w : World} {o : Stretch} {T : Multiset JpegRequest} {e e' : StillEngine}

theorem StillEngine.Sound.of_kept (he : e.Sound) (ho : e'.outstanding = e.outstanding)
    (ha : e'.attempts = e.attempts) (hd : e'.deliveries = e.deliveries) : e'.Sound := by
  refine ⟨?_, ?_⟩
  · rw [hd, ha]
    exact he.delivered
  · rw [ho, ha]
    exact he.started

theorem StillEngine.Sound.attempt (he : e.Sound) (j : JpegRequest) (ok : Bool) :
    (e.attempt j ok).Sound := by
  refine ⟨fun d hd => ?_, fun k hk => ?_⟩
  · obtain ⟨hsource, hmem⟩ := he.delivered d hd
    exact ⟨hsource, List.mem_append_left _ hmem⟩
  · have hk : k ∈ e.outstanding ∨ k = j := by
      cases ok <;> simp_all [StillEngine.attempt]
    rcases hk with hk | rfl
    · exact List.mem_append_left _ (he.started k hk)
    · exact List.mem_append_right _ (List.mem_singleton_self _)

theorem StillEngine.Sound.abandon (he : e.Sound) (j : Option JpegRequest) :
    (e.abandon j).Sound := by
  cases j with
  | none => exact he
  | some j =>
    refine ⟨he.delivered, fun k hk => he.started k ?_⟩
    simp only [StillEngine.abandon] at hk
    split_ifs at hk
    · exact List.mem_of_mem_erase hk
    · exact hk

/-- An answer that finds a request finds that of its own picture. -/
theorem StillEngine.Sound.deliver (he : e.Sound) {source j : Option JpegRequest}
    (hj : ∀ k, j = some k → source = some k ∧ k ∈ e.attempts) : (e.deliver source j).Sound := by
  have hstarted : ∀ k ∈ source.elim e.outstanding e.outstanding.erase, k ∈ e.attempts := by
    intro k hk
    cases source with
    | none => exact he.started k hk
    | some s => exact he.started k (List.mem_of_mem_erase hk)
  cases j with
  | none => exact ⟨he.delivered, hstarted⟩
  | some j =>
    refine ⟨fun d hd => ?_, hstarted⟩
    rcases List.mem_append.mp hd with hd | hd
    · exact he.delivered d hd
    · rw [List.mem_singleton.mp hd]
      exact hj j rfl

theorem attempts_deliver (source j : Option JpegRequest) :
    (e.deliver source j).attempts = e.attempts := by
  cases j <;> rfl

theorem attempts_abandon (j : Option JpegRequest) : (e.abandon j).attempts = e.attempts := by
  cases j <;> rfl

theorem attempted_of_starting {l : List Activation} (h : weighList starting l = 0) :
    ∀ a ∈ l, Attempted e a := by
  intro a ha
  have hzero : starting a = 0 :=
    List.sum_eq_zero_iff.mp h _ (List.mem_map_of_mem ha)
  cases a with
  | takeFailed j => cases congrArg Multiset.card hzero
  | _ => trivial

/-- The stretch hands no answer to a wrong request and goes on with no failed
    `takePicture` that was not called. -/
def KeepsSound (w : World) (o : Stretch) : Prop :=
  o.shared.still.Sound ∧ w.still.attempts ⊆ o.shared.still.attempts ∧
    (∀ a ∈ o.push, Attempted o.shared.still a) ∧ Every (Attempted o.shared.still) o.fork

theorem PictureKept.sound (h : PictureKept w o) (he : w.still.Sound) : KeepsSound w o := by
  refine ⟨he.of_kept h.outstanding h.attempts h.deliveries, ?_, attempted_of_starting h.push, ?_⟩
  · rw [h.attempts]
    exact List.Subset.refl _
  · intro stack hs
    have hzero : weighList starting stack = 0 :=
      List.sum_eq_zero_iff.mp h.fork _ (List.mem_map_of_mem hs)
    exact attempted_of_starting hzero

theorem takeJpeg_sound {still : Option JpegRequest → StillEngine}
    {found : JpegRequest → List Activation} {empty : List Activation}
    (hattempts : ∀ j, (still j).attempts = w.still.attempts)
    (hsome : ∀ j, w.device.pendingJpeg.toList.head? = some j → (still (some j)).Sound)
    (hnone : (still none).Sound) (hf : ∀ j, ∀ a ∈ found j, Attempted w.still a)
    (hempty : ∀ a ∈ empty, Attempted w.still a) :
    KeepsSound w (takeJpeg still found empty w) := by
  have same : ∀ j a, Attempted w.still a → Attempted (still j) a := by
    intro j a ha
    cases a with
    | takeFailed k =>
      show k ∈ (still j).attempts
      rw [hattempts]
      exact ha
    | _ => trivial
  rcases takeJpeg_cases still found empty w with ⟨j, q, hq, h⟩ | ⟨-, h⟩
  · rw [h]
    refine ⟨hsome j (by rw [hq]; rfl), ?_, fun a ha => same _ a (hf j a ha), ?_⟩
    · show _ ⊆ (still (some j)).attempts
      rw [hattempts]
      exact List.Subset.refl _
    · exact fun _ hs => by cases hs
  · rw [h]
    refine ⟨hnone, ?_, fun a ha => same _ a (hempty a ha), ?_⟩
    · show _ ⊆ (still none).attempts
      rw [hattempts]
      exact List.Subset.refl _
    · exact fun _ hs => by cases hs

/-- An answer to the outstanding picture goes to its request. -/
theorem answer_sound {source : Option JpegRequest} {found : JpegRequest → List Activation}
    {empty : List Activation} (he : w.still.Sound) (hT : Matched w T)
    (hs : w.device.pendingJpeg.toList ≠ [] → ∃ j ∈ w.still.outstanding, source = some j)
    (hf : ∀ j, ∀ a ∈ found j, Attempted w.still a) (hempty : ∀ a ∈ empty, Attempted w.still a) :
    KeepsSound w (takeJpeg (w.still.deliver source) found empty w) := by
  refine takeJpeg_sound (attempts_deliver source) (fun j hhead => ?_) (he.deliver (by simp)) hf hempty
  refine he.deliver fun k hk => ?_
  obtain rfl := Option.some.inj hk
  obtain ⟨s, hmem, rfl⟩ := hs (by rintro hnil; rw [hnil] at hhead; cases hhead)
  rcases hT with ⟨-, -, hout⟩ | ⟨-, j', hone, hhead'⟩
  · rw [hout] at hmem
    cases hmem
  · -- the head is the request of the outstanding picture
    obtain ⟨-, -, rfl⟩ := part_of_singleton hone hmem
    obtain rfl := Option.some.inj (hhead.symm.trans hhead')
    exact ⟨rfl, he.started _ hmem⟩

theorem takeFailed_sound {j : JpegRequest} (he : w.still.Sound) (hT : Matched w (T + {j}))
    (hj : j ∈ w.still.attempts) : KeepsSound w (execTakeFailed j w) := by
  refine takeJpeg_sound (attempts_deliver _) (fun k hhead => ?_) (he.deliver (by simp))
    (fun k => by simp [sendJpegError, Attempted]) (by simp)
  refine he.deliver fun k' hk => ?_
  obtain rfl := Option.some.inj hk
  rcases hT with ⟨-, hzero, -⟩ | ⟨-, j', hone, hhead'⟩
  · have hcard := congrArg Multiset.card hzero
    simp at hcard
  · obtain ⟨-, -, rfl⟩ := started_of_singleton hone
    obtain rfl := Option.some.inj (hhead.symm.trans hhead')
    exact ⟨rfl, hj⟩

theorem drain_sound {again next : Activation} (he : w.still.Sound) (ha : Attempted w.still again)
    (hn : Attempted w.still next) : KeepsSound w (drainJpeg again next w) := by
  refine takeJpeg_sound attempts_abandon (fun j _ => he.abandon _) (he.abandon _) (fun j => ?_)
    (by simpa using hn)
  simpa [sendJpegError, Attempted] using ha

/-- **One stretch hands no answer to a wrong request.** -/
theorem exec_sound {i : Activation} {x : Answer} {threads : List (List Activation)}
    (h : exec i x w = some o) (hg : AnswersOutstanding ⟨w, threads⟩ i x)
    (hT : Matched w (T + starting i)) (he : w.still.Sound) (hi : Attempted w.still i) :
    KeepsSound w o := by
  have idle : starting i = 0 → Matched w T := by
    intro hzero
    rwa [hzero, add_zero] at hT
  rcases hm : movesPicture i with _ | _
  · exact (exec_kept h hm).sound he
  cases i with
  | request pc p =>
    cases pc with
    | reserve =>
      obtain rfl := Option.some.inj h
      show KeepsSound w (reserveOutput p w)
      rcases reserveOutput_cases p w with ⟨-, h⟩ | ⟨o, q, -, -, -, h⟩ | ⟨o, -, -, h⟩ <;>
        · rw [h]
          exact ⟨he, List.Subset.refl _, by simp [Attempted], fun _ hs => by cases hs⟩
    | _ => cases hm
  | flush pc =>
    cases pc with
    | drainJpeg =>
      obtain rfl := Option.some.inj h
      exact drain_sound he trivial trivial
    | _ => cases hm
  | worker thread pc =>
    cases pc with
    | failJpeg =>
      obtain rfl := Option.some.inj h
      exact drain_sound he trivial trivial
    | _ => cases hm
  | compressedImage source =>
    obtain rfl := Option.some.inj h
    refine answer_sound he (idle rfl) (fun hne => ⟨source, hg hne, rfl⟩) (fun j => ?_)
      (by simp [Attempted])
    exact attempted_of_starting (by simp [starting])
  | engineError source =>
    obtain rfl := Option.some.inj h
    refine answer_sound he (idle rfl) hg (fun j => ?_) (by simp [Attempted])
    exact attempted_of_starting (by simp [starting])
  | beginNextJpeg =>
    obtain rfl := Option.some.inj h
    rcases execBeginNextJpeg_cases w with ⟨j, -, -, -, h⟩ | h <;>
      · rw [h]
        exact ⟨he, List.Subset.refl _, by simp [Attempted], fun _ hs => by cases hs⟩
  | takePicture j =>
    obtain rfl := Option.some.inj h
    refine ⟨he.attempt j _, List.subset_append_left _ _, fun a ha => ?_, fun _ hs => by cases hs⟩
    have hj : Attempted (w.still.attempt j (decide (x.status = 0))) (.takeFailed j) :=
      List.mem_append_right _ (List.mem_singleton_self _)
    have hmem : a = .takeFailed j := by
      simp only [goOn] at ha
      split_ifs at ha
      · cases ha
      · exact List.mem_singleton.mp ha
    rw [hmem]
    exact hj
  | takeFailed j =>
    obtain rfl := Option.some.inj h
    exact takeFailed_sound he hT hi
  | _ => cases hm

end Answers

/-! ## Runs -/

variable {cameraId : ℕ} {c : State}

/-- In every run in which requests are taken by the answer to their picture, the
    flag, the picture and the head of the queue match. -/
theorem matched (h : Reach translator AnswersOutstanding (State.opened cameraId) c) :
    Matched c.shared (weigh starting c.threads) := by
  refine Reach.weigh_invariant starting Matched (.inl ⟨rfl, rfl, rfl⟩) ?_ ?_ h
  · intro w k w' stack T he hT
    rcases enter_cases he with ⟨r, -, rfl, rfl⟩ | ⟨u, a, rfl, rfl, ha⟩
    · show Matched _ (T + 0)
      rwa [add_zero]
    · have ha0 : starting a = 0 := by
        cases a with
        | takePicture | takeFailed => cases ha
        | _ => rfl
      rw [weighList_cons, weighList_nil, ha0, add_zero, add_zero]
      exact hT
  · intro w A i rest B x o R _ hg he hR hT
    refine exec_matched he ?_ hg hT
    rw [weigh_split, hR]

/-- In these runs, every answer goes to the request of its picture. -/
theorem answered (h : Reach translator AnswersOutstanding (State.opened cameraId) c) :
    c.shared.still.Sound := by
  refine (Reach.every_invariant (fun w => w.still.Sound) (fun w => Attempted w.still)
    ⟨⟨fun _ hd => (by cases hd), fun _ hj => (by cases hj)⟩, fun _ hs => (by cases hs)⟩ ?_ ?_ h).1
  · intro w k w' stack he hw
    rcases enter_cases he with ⟨r, -, rfl, rfl⟩ | ⟨u, a, rfl, rfl, ha⟩
    · exact ⟨hw, fun a ha => ha, by simp [Attempted]⟩
    · refine ⟨hw.of_kept rfl rfl rfl, fun b hb => ?_, ?_⟩
      · cases b with
        | takeFailed j => exact hb
        | _ => trivial
      · intro b hb
        obtain rfl := List.mem_singleton.mp hb
        cases b with
        | takeFailed j => cases ha
        | _ => trivial
  · intro w A i rest B x o hreach hg he hw hi
    have hT := matched hreach
    rw [weigh_split] at hT
    obtain ⟨hsound, hsub, hpush, hfork⟩ := exec_sound he hg hT hw hi
    refine ⟨hsound, fun a ha => ?_, hpush, hfork⟩
    cases a with
    | takeFailed j => exact hsub ha
    | _ => trivial

/-- Still captures and their requests: at most one picture is being started or
    outstanding; while the flag is set there is one, of the head of the queue;
    and what the engine answered to a picture was given to the request it was
    started for. -/
def StillsMatched (c : State) : Prop :=
  Multiset.card (inProgress c) ≤ 1 ∧
  (c.shared.device.jpegCaptureActive = true →
    ∃ j ∈ inProgress c, c.shared.device.pendingJpeg.toList.head? = some j) ∧
  ∀ d ∈ c.shared.still.deliveries, d.1 = some d.2 ∧ d.2 ∈ c.shared.still.attempts

/-- **Main theorem: still captures are matched to their requests**, in every run
    in which requests are taken by the answer to their picture, or by a flush
    that has cancelled it. -/
theorem stills_matched (h : Reach translator AnswersOutstanding (State.opened cameraId) c) :
    StillsMatched c := by
  refine ⟨?_, ?_, (answered h).delivered⟩
  · rcases matched h with ⟨-, hT, hout⟩ | ⟨-, j, hone, -⟩
    · simp [inProgress, hT, hout]
    · rw [inProgress, hone, Multiset.card_singleton]
  · intro hactive
    rcases matched h with ⟨hidle, -⟩ | ⟨-, j, hone, hhead⟩
    · rw [hidle] at hactive
      cases hactive
    · exact ⟨j, by rw [inProgress, hone]; exact Multiset.mem_singleton_self j, hhead⟩

/-! ## Two runs -/

/-- A check for `AnswersOutstanding`. -/
def answersOutstanding (c : State) (i : Activation) (_ : Answer) : Bool :=
  c.shared.device.pendingJpeg.toList.isEmpty ||
    match i with
    | .compressedImage source => source ∈ c.shared.still.outstanding
    | .engineError source => source.any (· ∈ c.shared.still.outstanding)
    | .flush .drainJpeg | .worker _ .failJpeg =>
      (c.threads.all fun stack => stack.all fun a => starting a = 0) &&
        c.shared.still.outstanding.all (· ∈ c.shared.still.cancelled)
    | _ => true

theorem answersOutstanding_sound (c : State) (i : Activation) (x : Answer)
    (h : answersOutstanding c i x = true) : AnswersOutstanding c i x := by
  intro hne
  have drained : (∀ stack ∈ c.threads, ∀ a ∈ stack, starting a = 0) →
      weigh starting c.threads = 0 := weigh_eq_zero
  have hi := Or.resolve_left (Bool.or_eq_true_iff.mp h) (by simpa using hne)
  cases i with
  | compressedImage source => simpa using hi
  | engineError source =>
    cases source with
    | none => cases hi
    | some j => exact ⟨j, by simpa using hi, rfl⟩
  | flush pc =>
    cases pc with
    | drainJpeg =>
      obtain ⟨hall, hcancelled⟩ := Bool.and_eq_true_iff.mp hi
      exact ⟨drained (by simpa using hall), by simpa using hcancelled⟩
    | _ => trivial
  | worker thread pc =>
    cases pc with
    | failJpeg =>
      obtain ⟨hall, hcancelled⟩ := Bool.and_eq_true_iff.mp hi
      exact ⟨drained (by simpa using hall), by simpa using hcancelled⟩
    | _ => trivial
  | _ => trivial

/-- A picture is started and its image arrives; a second one is started and
    flushed. -/
def stillsEnd : State :=
  (State.opened 0).after answersOutstanding
    (configureStill ++ .call (.processCaptureRequest stillRequest) :: List.replicate 10 (go 2) ++
      List.replicate 10 (go 1) ++
      .call (.compressedImage ⟨true, 1, 0, ⟨2, 20⟩⟩) :: List.replicate 5 (go 3) ++
      .call (.processCaptureRequest { stillRequest with frameNumber := 2 }) ::
        List.replicate 14 (go 4))

theorem stillsEnd_matched :
    (stillsEnd.shared.still.deliveries = [(some ⟨true, 1, 0, ⟨2, 20⟩⟩, ⟨true, 1, 0, ⟨2, 20⟩⟩)] ∧
      stillsEnd.shared.device.jpegCaptureActive = true) ∧ StillsMatched stillsEnd :=
  ⟨⟨rfl, rfl⟩, stills_matched (reach_after answersOutstanding_sound rfl)⟩

/-- A still is reserved before the preview has started; then the engine reports
    an error. -/
def unstartedEnd : State :=
  (State.opened 0).after (fun _ _ _ => true)
    (configureStill ++ .call (.processCaptureRequest stillRequest) :: List.replicate 10 (go 2) ++
      [.call (.error none), go 3])

/-- An engine error takes a request whose picture was never started. -/
theorem stills_not_matched :
    ¬ ∀ c, Reach translator AnyStep (State.opened 0) c → StillsMatched c := by
  intro hall
  have hreach : Reach translator AnyStep (State.opened 0) unstartedEnd :=
    reach_after (fun _ _ _ _ => trivial) rfl
  obtain ⟨-, -, hdelivered⟩ := hall unstartedEnd hreach
  obtain ⟨hsource, -⟩ := hdelivered (none, ⟨true, 1, 0, ⟨2, 20⟩⟩) (List.mem_singleton_self _)
  cases hsource

end Pro5Android.Camera
