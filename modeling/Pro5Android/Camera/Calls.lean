import Pro5Android.Camera.Steps

/-!
# The calls of `process_capture_request`

Every call is at one place: it runs, or it has returned. While it runs, its
position is one activation of the request code, so the bookkeeping of a frame
number is a sum over all threads. The environment does not reuse frame numbers,
so what holds of the counts holds of the one request they count.

Results:
* `frames_nodup`, `calls_eq`, `accepted_eq`: the counts of a frame number.
* `returned_ok`: once the call of a frame number has returned 0, no activation
  belongs to it and exactly one request was accepted for it.
-/

namespace Pro5Android.Camera

open Lib Lib.Machine

/-! ## Counting -/

/-- One for each position of the call of frame `n`. -/
def inCall (n : ℕ) : Activation → ℕ
  | .classify r => if r.frameNumber = n then 1 else 0
  | .request _ p => if p.frameNumber = n then 1 else 0
  | _ => 0

/-- One for each position of the call of frame `n` after validation. -/
def inRequest (n : ℕ) : Activation → ℕ
  | .request _ p => if p.frameNumber = n then 1 else 0
  | _ => 0

/-- How many calls of frame `n` have returned. -/
def World.returnsOf (w : World) (n : ℕ) : ℕ :=
  w.requestReturns.countP fun e => e.1 = n

/-- How many requests of frame `n` were accepted. -/
def World.acceptedOf (w : World) (n : ℕ) : ℕ :=
  w.accepted.countP fun r => r.frameNumber = n

theorem inCall_eq_zero {n : ℕ} {a : Activation} (h : a.isRequestCode = false) : inCall n a = 0 := by
  cases a with
  | classify | request => cases h
  | _ => rfl

theorem inRequest_eq_zero {n : ℕ} {a : Activation} (h : a.isRequestCode = false) :
    inRequest n a = 0 := by
  cases a with
  | classify | request => cases h
  | _ => rfl

/-! ## One stretch -/

/-- Until its end, the request code goes on with one position of the same call
    and pushes no other above it. -/
theorem execRequest_advance (p : PreviewRequest) (w : World) {pc : RequestPc}
    (hpc : pc ≠ .finish) :
    ∃ w' pre pc', execRequest p w pc = goOn w' (pre ++ [.request pc' p]) ∧
      w'.frames = w.frames ∧ w'.accepted = w.accepted ∧ w'.requestReturns = w.requestReturns ∧
      ∀ a ∈ pre, a.isRequestCode = false := by
  have plain : ∀ {w' pc'}, w'.frames = w.frames → w'.accepted = w.accepted →
      w'.requestReturns = w.requestReturns → ∃ w'' pre pc'',
        goOn w' [.request pc' p] = goOn w'' (pre ++ [.request pc'' p]) ∧
        w''.frames = w.frames ∧ w''.accepted = w.accepted ∧
        w''.requestReturns = w.requestReturns ∧
        ∀ a ∈ pre, a.isRequestCode = false :=
    fun hf ha hr => ⟨_, [], _, rfl, hf, ha, hr, fun a h => by cases h⟩
  have enqueue : ∀ video output next, ∃ w' pre pc',
      enqueueOutput video output p next w = goOn w' (pre ++ [.request pc' p]) ∧
      w'.frames = w.frames ∧ w'.accepted = w.accepted ∧ w'.requestReturns = w.requestReturns ∧
      ∀ a ∈ pre, a.isRequestCode = false := by
    intro video output next
    rcases output with _ | o
    · exact plain rfl rfl rfl
    · rcases enqueueOutput_cases video o p next w with ⟨q, -, h⟩ | ⟨-, h⟩
      · rw [h]
        exact plain rfl rfl rfl
      · rw [h]
        exact ⟨w, _, next, rfl, rfl, rfl, rfl, fun a ha => sendStreamResult_off _ _ a ha⟩
  cases pc with
  | finish => exact absurd rfl hpc
  | notifyError | errorResult | shutter | metadata | sendMetadata => exact plain rfl rfl rfl
  | reserve =>
    show ∃ w' pre pc', reserveOutput p w = _ ∧ _
    rcases reserveOutput_cases p w with ⟨-, h⟩ | ⟨o, q, -, -, -, h⟩ | ⟨o, -, -, h⟩ <;>
      · rw [h]
        exact plain rfl rfl rfl
  | enqueuePreview => exact enqueue _ _ _
  | enqueueVideo => exact enqueue _ _ _
  | startStill =>
    by_cases hs : p.jpegOutput.isSome ∧ w.device.previewStarted
    · refine ⟨w, [.startNextJpegCapture], .finish, ?_, rfl, rfl, rfl, ?_⟩
      · show goOn w (if _ then _ else _) = _
        rw [if_pos hs]
        rfl
      · intro a ha
        rw [List.mem_singleton.mp ha]
        rfl
    · refine ⟨w, [], .finish, ?_, rfl, rfl, rfl, fun a ha => by cases ha⟩
      show goOn w (if _ then _ else _) = _
      rw [if_neg hs]
      rfl

/-- A stretch moves each call on by at most one place. -/
theorem exec_calls {i : Activation} {x : Answer} {w : World} {o : Stretch}
    (h : exec i x w = some o) (n : ℕ) :
    o.shared.frames = w.frames ∧
    weighList (inCall n) o.push + weigh (inCall n) o.fork + o.shared.returnsOf n =
      inCall n i + w.returnsOf n ∧
    weighList (inRequest n) o.push + weigh (inRequest n) o.fork +
        o.shared.requestReturns.count (n, 0) + w.acceptedOf n =
      inRequest n i + w.requestReturns.count (n, 0) + o.shared.acceptedOf n := by
  rcases hi : i.isRequestCode with _ | _
  · -- the other code moves no call
    have hoff := exec_off h hi
    rw [inCall_eq_zero hi, inRequest_eq_zero hi,
      weighList_eq_zero _ fun a ha => inCall_eq_zero (hoff.push a ha),
      weighList_eq_zero _ fun a ha => inRequest_eq_zero (hoff.push a ha),
      hoff.weigh_fork fun _ => rfl, hoff.weigh_fork fun _ => rfl,
      World.returnsOf, World.acceptedOf, World.acceptedOf, hoff.requestReturns, hoff.accepted]
    exact ⟨hoff.frames, by simp [World.returnsOf], by omega⟩
  · cases i with
    | classify r =>
      obtain rfl := Option.some.inj h
      rcases execClassify_cases r x.nowNs w with he | ⟨p, hp, -, he | he⟩
      · rw [he]
        simp [inCall, inRequest, World.returnsOf, World.acceptedOf, List.count_append,
          List.countP_append, List.countP_singleton, eInval]
        omega
      · rw [he]
        simp [inCall, inRequest, World.returnsOf, World.acceptedOf, List.countP_append,
          List.countP_singleton, hp]
        omega
      · rw [he]
        simp [inCall, inRequest, World.returnsOf, World.acceptedOf, List.countP_append,
          List.countP_singleton, hp]
        omega
    | request pc p =>
      obtain rfl := Option.some.inj h
      by_cases hpc : pc = .finish
      · subst hpc
        simp [execRequest, inCall, inRequest, World.returnsOf, World.acceptedOf,
          List.countP_append, List.countP_singleton, List.count_append, List.count_singleton]
        omega
      · obtain ⟨w', pre, pc', he, hf, ha, hr, hpre⟩ := execRequest_advance p w hpc
        have hc : weighList (inCall n) pre = 0 :=
          weighList_eq_zero _ fun a hmem => inCall_eq_zero (hpre a hmem)
        have hq : weighList (inRequest n) pre = 0 :=
          weighList_eq_zero _ fun a hmem => inRequest_eq_zero (hpre a hmem)
        rw [he]
        simp [inCall, inRequest, World.returnsOf, World.acceptedOf, hf, ha, hr, hc, hq]
    | _ => cases hi

/-- Returns are only added. -/
theorem exec_returns {i : Activation} {x : Answer} {w : World} {o : Stretch}
    (h : exec i x w = some o) : w.requestReturns <+: o.shared.requestReturns := by
  rcases hi : i.isRequestCode with _ | _
  · rw [(exec_off h hi).requestReturns]
  · cases i with
    | classify r =>
      obtain rfl := Option.some.inj h
      rcases execClassify_cases r x.nowNs w with he | ⟨p, -, -, he | he⟩ <;> rw [he]
      · exact List.prefix_append _ _
      · exact List.prefix_rfl
      · exact List.prefix_rfl
    | request pc p =>
      obtain rfl := Option.some.inj h
      by_cases hpc : pc = .finish
      · rw [hpc]
        exact List.prefix_append _ _
      · obtain ⟨w', pre, pc', he, -, -, hr, -⟩ := execRequest_advance p w hpc
        rw [he]
        show _ <+: w'.requestReturns
        rw [hr]
    | _ => cases hi

/-- The position of the request code that fills a queue. -/
def Queue.filledAt : Queue → RequestPc
  | .preview => .enqueuePreview
  | .video => .enqueueVideo
  | .jpeg => .reserve

/-- The output of a request that goes into a queue. -/
def Queue.outputOf (p : PreviewRequest) : Queue → Option Output
  | .preview => p.previewOutput
  | .video => p.videoOutput
  | .jpeg => p.jpegOutput

/-- Only the request code of a frame that has an output for it puts that frame
    into a queue. -/
theorem exec_queueFrames {i : Activation} {x : Answer} {w : World} {o : Stretch}
    (h : exec i x w = some o) {k : Queue} {n : ℕ} (hn : n ∈ o.shared.device.queueFrames k) :
    n ∈ w.device.queueFrames k ∨
      ∃ p, i = .request k.filledAt p ∧ p.frameNumber = n ∧ (k.outputOf p).isSome = true := by
  have enqueue : ∀ video output next p,
      n ∈ (enqueueOutput video output p next w).shared.device.queueFrames k →
      n ∈ w.device.queueFrames k ∨
        k = .stream video ∧ p.frameNumber = n ∧ output.isSome = true := by
    intro video output next p hmem
    rcases output with _ | o
    · exact .inl hmem
    · rcases enqueueOutput_cases video o p next w with ⟨q, hq, he⟩ | ⟨-, he⟩
      · rw [he] at hmem
        replace hmem : n ∈ (w.device.setStreamQueue video q).queueFrames k := hmem
        rw [Device.queueFrames_setStreamQueue] at hmem
        split_ifs at hmem with hk
        · rw [hq, List.map_append, List.mem_append] at hmem
          rw [hk, Device.queueFrames_stream]
          exact hmem.imp id fun hs => ⟨rfl, (List.mem_singleton.mp hs).symm, rfl⟩
        · exact .inl hmem
      · rw [he] at hmem
        exact .inl hmem
  rcases hi : i.isRequestCode with _ | _
  · exact .inl (((exec_off h hi).queues k).mem hn)
  · cases i with
    | classify r =>
      obtain rfl := Option.some.inj h
      rcases execClassify_cases r x.nowNs w with he | ⟨p, -, -, he | he⟩ <;>
        · rw [he] at hn
          exact .inl hn
    | request pc p =>
      obtain rfl := Option.some.inj h
      cases pc with
      | enqueuePreview =>
        refine (enqueue false _ _ _ hn).imp id ?_
        rintro ⟨rfl, hp, ho⟩
        exact ⟨p, rfl, hp, ho⟩
      | enqueueVideo =>
        refine (enqueue true _ _ _ hn).imp id ?_
        rintro ⟨rfl, hp, ho⟩
        exact ⟨p, rfl, hp, ho⟩
      | reserve =>
        replace hn : n ∈ (reserveOutput p w).shared.device.queueFrames k := hn
        rcases reserveOutput_cases p w with ⟨-, he⟩ | ⟨o, q, ho, -, hq, he⟩ | ⟨o, -, -, he⟩ <;>
          rw [he] at hn
        · exact .inl hn
        · cases k with
          | jpeg =>
            replace hn : n ∈ q.toList.map JpegRequest.frameNumber := hn
            rw [hq, List.map_append, List.mem_append] at hn
            refine hn.imp id fun hs => ⟨p, rfl, (List.mem_singleton.mp hs).symm, ?_⟩
            exact Option.isSome_of_eq_some ho
          | preview | video => exact .inl hn
        · exact .inl hn
      | metadata =>
        left
        cases k <;> exact hn
      | _ => exact .inl hn
    | _ => cases hi

/-- The first positions of the entry points other than `process_capture_request`. -/
def Activation.isEntry : Activation → Bool
  | .configure (.start _) | .flush .stop | .deliver _ | .compressedImage _ | .engineError _
  | .updateControls _ => true
  | _ => false

theorem isRequestCode_of_isEntry {a : Activation} (h : a.isEntry = true) :
    a.isRequestCode = false := by
  cases a with
  | classify | request => cases h
  | _ => rfl

/-- What a call of the environment can do: it enters a fresh request, or another
    entry point, which changes nothing but the pictures left unanswered. -/
theorem enter_cases {w w' : World} {k : Call} {stack : List Activation}
    (h : enter w k = some (w', stack)) :
    (∃ r, r.frameNumber ∉ w.frames ∧
      w' = { w with frames := w.frames ++ [r.frameNumber] } ∧ stack = [.classify r]) ∨
    (∃ u a, w' = w.setStill { w.still with unanswered := u } ∧ stack = [a] ∧
      a.isEntry = true) := by
  have same : w = w.setStill { w.still with unanswered := w.still.unanswered } := rfl
  have answered : ∀ {source w'}, w.answer source = some w' →
      ∃ u, w' = w.setStill { w.still with unanswered := u } := by
    intro source w' ha
    rw [World.answer] at ha
    split_ifs at ha
    exact ⟨_, (Option.some.inj ha).symm⟩
  cases k with
  | processCaptureRequest r =>
    rw [enter] at h
    split_ifs at h with hr
    obtain ⟨rfl, rfl⟩ := Prod.mk.inj (Option.some.inj h)
    exact .inl ⟨r, hr, rfl, rfl⟩
  | compressedImage source =>
    obtain ⟨w₁, hw, he⟩ := Option.map_eq_some_iff.mp h
    obtain ⟨rfl, rfl⟩ := Prod.mk.inj he
    obtain ⟨u, hu⟩ := answered hw
    exact .inr ⟨u, _, hu, rfl, rfl⟩
  | error source =>
    rcases source with _ | source
    · obtain ⟨rfl, rfl⟩ := Prod.mk.inj (Option.some.inj h)
      exact .inr ⟨_, _, same, rfl, rfl⟩
    · obtain ⟨w₁, hw, he⟩ := Option.map_eq_some_iff.mp h
      obtain ⟨rfl, rfl⟩ := Prod.mk.inj he
      obtain ⟨u, hu⟩ := answered hw
      exact .inr ⟨u, _, hu, rfl, rfl⟩
  | _ =>
    obtain ⟨rfl, rfl⟩ := Prod.mk.inj (Option.some.inj h)
    exact .inr ⟨_, _, same, rfl, rfl⟩

/-- A weight that vanishes outside the request code is only brought in by it. -/
theorem weighList_entry {N : Type*} [AddCommMonoid N] {f : Activation → N} {a : Activation}
    (hf : ∀ a, a.isRequestCode = false → f a = 0) (ha : a.isEntry = true) :
    weighList f [a] = 0 := by
  rw [weighList_cons, weighList_nil, hf a (isRequestCode_of_isEntry ha), add_zero]

/-! ## Runs -/

variable {good : State → Activation → Answer → Prop} {cameraId : ℕ} {c : State}

/-- Frame numbers are used once. -/
theorem frames_nodup (h : Reach translator good (State.opened cameraId) c) :
    c.shared.frames.Nodup := by
  refine Reach.shared_invariant (fun w => w.frames.Nodup) List.nodup_nil ?_ ?_ h
  · intro w k w' stack he hn
    rcases enter_cases he with ⟨r, hr, rfl, -⟩ | ⟨u, a, rfl, -⟩
    · exact List.nodup_append.mpr ⟨hn, List.nodup_singleton _, fun a ha b hb => by
        rintro rfl
        exact hr (by simpa [List.mem_singleton.mp hb] using ha)⟩
    · exact hn
  · intro w A i rest B x o _ _ he hn
    rwa [(exec_calls he 0).1]

/-- Every call runs at one place or has returned. -/
theorem calls_eq (n : ℕ) (h : Reach translator good (State.opened cameraId) c) :
    c.shared.frames.count n = weigh (inCall n) c.threads + c.shared.returnsOf n := by
  refine Reach.weigh_invariant (inCall n) (fun w T => w.frames.count n = T + w.returnsOf n) rfl
    ?_ ?_ h
  · intro w k w' stack T he hT
    rcases enter_cases he with ⟨r, -, rfl, rfl⟩ | ⟨u, a, rfl, rfl, ha⟩
    · simp only [List.count_append, List.count_singleton, weighList_cons, weighList_nil, inCall]
      rw [hT]
      simp only [World.returnsOf, beq_iff_eq]
      omega
    · rw [weighList_entry (fun _ => inCall_eq_zero) ha]
      exact hT
  · intro w A i rest B x o R _ _ he _ hT
    obtain ⟨hf, hc, -⟩ := exec_calls he n
    rw [hf]
    omega

/-- Every accepted request is being served or its call has returned 0. -/
theorem accepted_eq (n : ℕ) (h : Reach translator good (State.opened cameraId) c) :
    c.shared.acceptedOf n =
      weigh (inRequest n) c.threads + c.shared.requestReturns.count (n, 0) := by
  refine Reach.weigh_invariant (inRequest n)
    (fun w T => w.acceptedOf n = T + w.requestReturns.count (n, 0)) rfl ?_ ?_ h
  · intro w k w' stack T he hT
    rcases enter_cases he with ⟨r, -, rfl, rfl⟩ | ⟨u, a, rfl, rfl, ha⟩
    · exact hT
    · rw [weighList_entry (fun _ => inRequest_eq_zero) ha]
      exact hT
  · intro w A i rest B x o R _ _ he _ hT
    obtain ⟨-, -, hq⟩ := exec_calls he n
    omega

/-- The call of frame `n` has returned 0. -/
def World.ReturnedOk (w : World) (n : ℕ) : Prop := (n, 0) ∈ w.requestReturns

theorem inRequest_le (n : ℕ) (a : Activation) : inRequest n a ≤ inCall n a := by
  cases a <;> simp [inRequest, inCall]

/-- **Once the call of a frame number has returned 0**, it runs nowhere, it has
    returned once, and exactly one request was accepted for it. -/
theorem returned_ok {n : ℕ} (h : Reach translator good (State.opened cameraId) c)
    (hr : c.shared.ReturnedOk n) :
    weigh (inCall n) c.threads = 0 ∧ weigh (inRequest n) c.threads = 0 ∧
      c.shared.acceptedOf n = 1 := by
  have hcalls := calls_eq n h
  have hacc := accepted_eq n h
  have hle := weigh_le (inRequest_le n) c.threads
  have hone := List.nodup_iff_count_le_one.mp (frames_nodup h) n
  have hret : 1 ≤ c.shared.requestReturns.count (n, 0) := List.one_le_count_iff.mpr hr
  have hsub : c.shared.requestReturns.count (n, 0) ≤ c.shared.returnsOf n := by
    rw [List.count, World.returnsOf]
    refine List.countP_mono_left fun e _ he => ?_
    have : e = (n, 0) := by simpa using he
    simp [this]
  omega

theorem returnedOk_mono {c₁ : State} {n : ℕ} (h : Reach translator good c₁ c)
    (hr : c₁.shared.ReturnedOk n) : c.shared.ReturnedOk n := by
  refine Reach.shared_invariant (fun w => w.ReturnedOk n) hr ?_ ?_ h
  · intro w k w' stack he hn
    rcases enter_cases he with ⟨r, -, rfl, -⟩ | ⟨u, a, rfl, -⟩ <;> exact hn
  · intro w A i rest B x o _ _ he hn
    exact (exec_returns he).mem hn

end Pro5Android.Camera
