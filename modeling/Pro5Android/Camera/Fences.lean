import Pro5Android.Camera.Calls

/-!
# The acquire fences of a capture request

`m86_device_process_capture_request` waits for the acquire fence of an output and
closes it in the loop that validates the outputs. An output that is refused later finds
the fences before it closed, although the caller still owns them.

A call is followed stretch by stretch; between two of its stretches other threads may
change the world in any way.

Results:
* `closed_of_firstRefused`, `closed_of_noneRefused`: the fences that the loop closes.
* `processCaptureRequest_closes`: a call that fails after it has closed two fences.
* `atomic_iff_keepsFences`: the calls that are atomic.
-/

namespace Pro5Android.Camera

/-! ## What the loop closes -/

/-- The fence of an output, if it has one. -/
def StreamBuffer.fences (b : StreamBuffer) : List ℤ :=
  if 0 ≤ b.acquireFence then [b.acquireFence] else []

/-- The fences that the validation loop closes (lines 2515–2551), with the request built
    so far; it ends where `classifyOutputs` does. -/
def closeOutputs (d : Device) : List StreamBuffer → PreviewRequest → List ℤ
  | [], _ => []
  | b :: bs, p =>
    match b.output? with
    | some o =>
      match assignRole d { p with outputs := p.outputs ++ [o] } o with
      | some p => b.fences ++ closeOutputs d bs p
      | none => b.fences
    | none => []

/-- The fences that a call closes; the checks are those of `classifyRequest`. -/
def closeRequest (d : Device) (r : CaptureRequest) (nowNs : ℤ) : List ℤ :=
  if r.inputBuffer.isSome ∨ r.outputBuffers = [] ∨ 3 < r.outputBuffers.length then []
  else closeOutputs d r.outputBuffers ⟨r.frameNumber, nowNs, [], none, none, none⟩

/-! ## A call -/

/-- A stretch of a call, with the world before and after it. -/
structure Ran where
  before : World
  activation : Activation
  answer : Answer
  after : World

/-- A thread runs from a stack to its end. -/
inductive Runs : List Activation → List Ran → Prop
  | done : Runs [] []
  | stretch {a : Activation} {x : Answer} {w : World} {o : Stretch} {rest : List Activation}
      {trace : List Ran} (hexec : exec a x w = some o) (htrace : Runs (o.push ++ rest) trace) :
      Runs (a :: rest) (⟨w, a, x, o.shared⟩ :: trace)

/-- The call of a frame returns in a stretch. -/
def Ran.Returns (ran : Ran) (frameNumber : ℕ) (status : ℤ) : Prop :=
  ran.after.requestReturns = ran.before.requestReturns ++ [(frameNumber, status)]

/-- `m86_device_process_capture_request` called in the world `w`, with the status it
    returns, the fences it closes and the stretches it runs. `ready` tells that
    `callback_ops` and `engine` are set, and `none` is a null request. -/
inductive ProcessCaptureRequest (ready : Bool) (w : World) :
    Option CaptureRequest → ℤ → List ℤ → List Ran → Prop
  | noRequest : ProcessCaptureRequest ready w none eInval [] []
  | notReady (r : CaptureRequest) (hready : ready = false) :
      ProcessCaptureRequest ready w (some r) eInval [] []
  | ran {r : CaptureRequest} {first : Ran} {trace : List Ran} {status : ℤ} (hready : ready = true)
      (hruns : Runs [.classify r] (first :: trace)) (hfirst : first.before = w)
      (hreturns : ∃ ran ∈ first :: trace, ran.Returns r.frameNumber status) :
      ProcessCaptureRequest ready w (some r) status
        (closeRequest w.device r first.answer.nowNs) (first :: trace)

/-- The activations in which the module calls the engine. -/
def Activation.callsEngine : Activation → Bool
  | .applyRequestControls _ | .takePicture _ | .flush _ | .configure _ | .worker _ _ => true
  | _ => false

/-- A stretch that leaves the device, the framework and the engine alone. -/
structure Ran.Leaves (ran : Ran) : Prop where
  device : ran.after.device = ran.before.device
  log : ran.after.log = ran.before.log
  still : ran.after.still = ran.before.still
  engine : ran.activation.callsEngine = false

/-- The fences that are handed in. -/
def CaptureRequest.fences (r : CaptureRequest) : List ℤ :=
  r.outputBuffers.flatMap StreamBuffer.fences

/-- A call that fails leaves everything to the caller, and one that succeeds has closed
    every fence. -/
structure Atomic (request : Option CaptureRequest) (status : ℤ) (closed : List ℤ)
    (trace : List Ran) : Prop where
  error : status < 0 → closed = [] ∧ ∀ ran ∈ trace, ran.Leaves
  success : status = 0 → ∃ r, request = some r ∧ closed = r.fences

/-! ## Outputs that are refused -/

/-- The role of an output, by its stream. -/
def Device.roleOf (d : Device) (b : StreamBuffer) : Option Queue :=
  b.output?.bind fun o =>
    if some o.stream = d.configuredPreviewStream then some .preview
    else if some o.stream = d.configuredVideoStream then some .video
    else if some o.stream = d.configuredJpegStream then some .jpeg
    else none

/-- An output that lacks its stream or buffer, or has the role of one before it. -/
def Refused (d : Device) (before : List StreamBuffer) (b : StreamBuffer) : Prop :=
  b.output? = none ∨ ∃ k, d.roleOf b = some k ∧ ∃ c ∈ before, d.roleOf c = some k

/-- The first output of `bs` that is refused, after those in `before`. -/
structure FirstRefused (d : Device) (before bs done : List StreamBuffer) (b : StreamBuffer)
    (rest : List StreamBuffer) : Prop where
  split : bs = done ++ b :: rest
  refused : Refused d (before ++ done) b
  first : ∀ done' c rest', done = done' ++ c :: rest' → ¬ Refused d (before ++ done') c

/-- No fence stands before the output that is refused first, nor on itself unless it
    lacks its stream or buffer. -/
def KeepsFences (ready : Bool) (d : Device) (request : Option CaptureRequest) : Prop :=
  ∀ r, request = some r → ready = true → r.inputBuffer = none → r.outputBuffers.length ≤ 3 →
    ∀ done b rest, FirstRefused d [] r.outputBuffers done b rest →
      (∀ c ∈ done, c.acquireFence < 0) ∧ (b.output?.isSome = true → b.acquireFence < 0)

/-! ## The loop -/

section

variable {d : Device} {p : PreviewRequest} {before bs : List StreamBuffer} {b : StreamBuffer}

/-- The request built so far has the roles of the outputs before. -/
def Assigned (d : Device) (before : List StreamBuffer) (p : PreviewRequest) : Prop :=
  ∀ k : Queue, (k.outputOf p).isSome = true ↔ ∃ c ∈ before, d.roleOf c = some k

theorem assignRole_cases {o : Output} (ho : b.output? = some o) (p : PreviewRequest) :
    (∃ k, d.roleOf b = some k ∧ (k.outputOf p).isSome = true ∧ assignRole d p o = none) ∨
    ((∀ k, d.roleOf b = some k → (k.outputOf p).isSome = false) ∧
      ∃ p', assignRole d p o = some p' ∧ ∀ k, (k.outputOf p').isSome = true ↔
        (k.outputOf p).isSome = true ∨ d.roleOf b = some k) := by
  unfold Device.roleOf assignRole
  rw [ho]
  dsimp only [Option.bind_some]
  split_ifs with hpreview hassigned hvideo hassigned hjpeg hassigned
  · exact .inl ⟨.preview, rfl, hassigned, rfl⟩
  · refine .inr ⟨?_, _, rfl, ?_⟩
    · rintro k ⟨⟩
      exact Bool.not_eq_true _ ▸ hassigned
    · intro k
      cases k <;> simp [Queue.outputOf]
  · exact .inl ⟨.video, rfl, hassigned, rfl⟩
  · refine .inr ⟨?_, _, rfl, ?_⟩
    · rintro k ⟨⟩
      exact Bool.not_eq_true _ ▸ hassigned
    · intro k
      cases k <;> simp [Queue.outputOf]
  · exact .inl ⟨.jpeg, rfl, hassigned, rfl⟩
  · refine .inr ⟨?_, _, rfl, ?_⟩
    · rintro k ⟨⟩
      exact Bool.not_eq_true _ ▸ hassigned
    · intro k
      cases k <;> simp [Queue.outputOf]
  · refine .inr ⟨?_, _, rfl, ?_⟩
    · rintro k ⟨⟩
    · intro k
      simp

/-- The loop ends at an output that is refused. -/
theorem loop_of_refused (hp : Assigned d before p) (hrefused : Refused d before b)
    (bs : List StreamBuffer) (f : Bool) :
    classifyOutputs d (b :: bs) p f = none ∧
      closeOutputs d (b :: bs) p = if b.output?.isSome then b.fences else [] := by
  rw [classifyOutputs, closeOutputs]
  cases ho : b.output? with
  | none => exact ⟨rfl, rfl⟩
  | some o =>
    dsimp only
    obtain ⟨k, -, -, hnone⟩ | ⟨hfree, -⟩ :=
      assignRole_cases (d := d) ho { p with outputs := p.outputs ++ [o] }
    · rw [hnone]
      exact ⟨rfl, rfl⟩
    · obtain hnull | ⟨k, hrole, htaken⟩ := hrefused
      · rw [ho] at hnull
        cases hnull
      · exact absurd ((hp k).mpr htaken) (by rw [Bool.not_eq_true]; exact hfree k hrole)

/-- The loop goes on at any other output, and closes its fence. -/
theorem loop_of_not_refused (hp : Assigned d before p) (hrefused : ¬ Refused d before b) :
    ∃ p', Assigned d (before ++ [b]) p' ∧
      (∀ bs f, classifyOutputs d (b :: bs) p f = classifyOutputs d bs p' (f || fenceWaitFails b)) ∧
      ∀ bs, closeOutputs d (b :: bs) p = b.fences ++ closeOutputs d bs p' := by
  obtain ⟨hnull, hfree⟩ := not_or.mp hrefused
  obtain ⟨o, ho⟩ := Option.ne_none_iff_exists'.mp hnull
  obtain ⟨k, hrole, htaken, -⟩ | ⟨-, p', hassign, hroles⟩ :=
    assignRole_cases (d := d) ho { p with outputs := p.outputs ++ [o] }
  · exact absurd ⟨k, hrole, (hp k).mp htaken⟩ hfree
  · refine ⟨p', fun k => ?_, fun bs f => ?_, fun bs => ?_⟩
    · rw [hroles k]
      simp only [List.mem_append, List.mem_singleton, or_and_right, exists_or, exists_eq_left]
      exact or_congr_left (hp k)
    · rw [classifyOutputs, ho]
      dsimp only
      rw [hassign]
    · rw [closeOutputs, ho]
      dsimp only
      rw [hassign]

/-- **Up to the first output that is refused** every fence is closed. -/
theorem closed_of_firstRefused {done rest : List StreamBuffer} (hp : Assigned d before p)
    (h : FirstRefused d before bs done b rest) (f : Bool) :
    classifyOutputs d bs p f = none ∧ closeOutputs d bs p =
      done.flatMap StreamBuffer.fences ++ if b.output?.isSome then b.fences else [] := by
  obtain ⟨rfl, hrefused, hfirst⟩ := h
  induction done generalizing before p f with
  | nil =>
    rw [List.append_nil] at hrefused
    exact loop_of_refused hp hrefused rest f
  | cons c done ih =>
    have hc : ¬ Refused d before c := by
      have hnot := hfirst [] c done rfl
      rwa [List.append_nil] at hnot
    obtain ⟨p', hp', hclassify, hclose⟩ := loop_of_not_refused hp hc
    obtain ⟨hnone, hclosed⟩ := ih hp' (f || fenceWaitFails c)
      (by rw [List.append_assoc]; exact hrefused) fun done' c' rest' hdone => by
        rw [List.append_assoc]
        exact hfirst (c :: done') c' rest' (by rw [hdone]; rfl)
    refine ⟨(hclassify _ _).trans hnone, ?_⟩
    rw [List.flatMap_cons, List.append_assoc, ← hclosed]
    exact hclose _

/-- Where none is refused, all fences are closed. -/
theorem closed_of_noneRefused (hp : Assigned d before p)
    (h : ¬ ∃ done b rest, FirstRefused d before bs done b rest) (f : Bool) :
    classifyOutputs d bs p f ≠ none ∧
      closeOutputs d bs p = bs.flatMap StreamBuffer.fences := by
  induction bs generalizing before p f with
  | nil => exact ⟨Option.some_ne_none _, rfl⟩
  | cons c bs ih =>
    have hc : ¬ Refused d before c := by
      intro hrefused
      refine h ⟨[], c, bs, rfl, by rw [List.append_nil]; exact hrefused, ?_⟩
      intro done' c' rest' hdone
      exact absurd hdone.symm (List.append_ne_nil_of_right_ne_nil _ (List.cons_ne_nil _ _))
    obtain ⟨p', hp', hclassify, hclose⟩ := loop_of_not_refused hp hc
    have hnone : ¬ ∃ done b rest, FirstRefused d (before ++ [c]) bs done b rest := by
      rintro ⟨done, b, rest, hfirst⟩
      refine h ⟨c :: done, b, rest, by rw [hfirst.split]; rfl, ?_, ?_⟩
      · have hrefused := hfirst.refused
        rwa [List.append_assoc] at hrefused
      · intro done' c' rest' hdone
        cases done' with
        | nil =>
          obtain ⟨rfl, -⟩ := List.cons.inj hdone
          rwa [List.append_nil]
        | cons e done' =>
          obtain ⟨rfl, htail⟩ := List.cons.inj hdone
          have hnot := hfirst.first done' c' rest' htail
          rwa [List.append_assoc] at hnot
    obtain ⟨hsome, hclosed⟩ := ih hp' hnone (f || fenceWaitFails c)
    rw [hclassify, hclose, hclosed]
    exact ⟨hsome, rfl⟩

end

/-! ## The stretches of a call -/

section

/-- After validation every return is with status 0. -/
theorem returns_zero {a : Activation} {x : Answer} {w : World} {o : Stretch}
    (hexec : exec a x w = some o) (ha : ∀ r, a ≠ .classify r) {frameNumber : ℕ} {status : ℤ}
    (hreturns : o.shared.requestReturns = w.requestReturns ++ [(frameNumber, status)]) :
    status = 0 ∧ ∃ p, a = .request .finish p := by
  have hchange : o.shared.requestReturns ≠ w.requestReturns := by
    rw [hreturns, ne_eq, List.append_right_eq_self]
    exact List.cons_ne_nil _ _
  cases hcode : a.isRequestCode with
  | false => exact absurd (exec_off hexec hcode).requestReturns hchange
  | true =>
    cases a with
    | classify r => exact absurd rfl (ha r)
    | request pc p =>
      obtain rfl := Option.some.inj hexec
      by_cases hpc : pc = .finish
      · subst hpc
        have hlast := List.append_cancel_left hreturns
        exact ⟨(Prod.mk.inj (List.cons.inj hlast).1).2.symm, p, rfl⟩
      · obtain ⟨w', pre, pc', heq, -, -, hsame, -⟩ := execRequest_advance p w hpc
        rw [heq] at hchange
        exact absurd hsame hchange
    | _ => cases hcode

/-- The code after validation does not call the entry point again. -/
theorem push_ne_classify {a : Activation} {x : Answer} {w : World} {o : Stretch}
    (hexec : exec a x w = some o) (ha : ∀ r, a ≠ .classify r) :
    ∀ b ∈ o.push, ∀ r, b ≠ .classify r := by
  have hoff {b : Activation} (hb : b.isRequestCode = false) (r : CaptureRequest) :
      b ≠ .classify r := by
    rintro rfl
    cases hb
  intro b hb
  cases hcode : a.isRequestCode with
  | false => exact hoff ((exec_off hexec hcode).push b hb)
  | true =>
    cases a with
    | classify r => exact absurd rfl (ha r)
    | request pc p =>
      obtain rfl := Option.some.inj hexec
      by_cases hpc : pc = .finish
      · subst hpc
        exact absurd hb List.not_mem_nil
      · obtain ⟨w', pre, pc', heq, -, -, -, hpre⟩ := execRequest_advance p w hpc
        rw [heq] at hb
        obtain hb | hb := List.mem_append.mp hb
        · exact hoff (hpre b hb)
        · rw [List.mem_singleton.mp hb]
          exact fun r h => Activation.noConfusion h
    | _ => cases hcode

theorem runs_return_zero {stack : List Activation} {trace : List Ran} (hruns : Runs stack trace)
    (hstack : ∀ a ∈ stack, ∀ r, a ≠ .classify r) {ran : Ran} (hran : ran ∈ trace)
    {frameNumber : ℕ} {status : ℤ} (hreturns : ran.Returns frameNumber status) : status = 0 := by
  induction hruns with
  | done => exact absurd hran List.not_mem_nil
  | stretch hexec _ ih =>
    rw [List.forall_mem_cons] at hstack
    obtain rfl | hran := List.mem_cons.mp hran
    · exact (returns_zero hexec hstack.1 hreturns).1
    · refine ih (fun a ha => ?_) hran
      obtain ha | ha := List.mem_append.mp ha
      · exact push_ne_classify hexec hstack.1 a ha
      · exact hstack.2 a ha

end

/-! ## The call -/

section

variable {d : Device} {r : CaptureRequest} {nowNs : ℤ}

theorem assigned_nil (d : Device) (frameNumber : ℕ) (nowNs : ℤ) :
    Assigned d [] ⟨frameNumber, nowNs, [], none, none, none⟩ := by
  intro k
  refine iff_of_false ?_ ?_
  · cases k <;> exact Bool.false_ne_true
  · rintro ⟨c, hc, -⟩
    exact List.not_mem_nil hc

theorem flatMap_fences_eq_nil {bs : List StreamBuffer} :
    bs.flatMap StreamBuffer.fences = [] ↔ ∀ b ∈ bs, b.acquireFence < 0 := by
  rw [List.flatMap_eq_nil_iff]
  refine forall₂_congr fun b _ => ?_
  unfold StreamBuffer.fences
  by_cases h : 0 ≤ b.acquireFence
  · rw [if_pos h]
    exact iff_of_false (List.cons_ne_nil _ _) (not_lt.mpr h)
  · rw [if_neg h]
    exact iff_of_true rfl (not_le.mp h)

theorem fences_eq_nil {b : StreamBuffer} : b.fences = [] ↔ b.acquireFence < 0 := by
  have h : [b].flatMap StreamBuffer.fences = [] ↔ ∀ c ∈ [b], c.acquireFence < 0 :=
    flatMap_fences_eq_nil
  rwa [List.flatMap_singleton, List.forall_mem_singleton] at h

/-- What a call closes, beside what validation answers. -/
theorem closeRequest_cases (d : Device) (r : CaptureRequest) (nowNs : ℤ) :
    (classifyRequest d r nowNs = none ∧ closeRequest d r nowNs = [] ∧
      (r.inputBuffer.isSome = true ∨ r.outputBuffers = [] ∨ 3 < r.outputBuffers.length)) ∨
    ((r.inputBuffer = none ∧ r.outputBuffers.length ≤ 3) ∧
      ((∃ done b rest, FirstRefused d [] r.outputBuffers done b rest ∧
        classifyRequest d r nowNs = none ∧ closeRequest d r nowNs =
          done.flatMap StreamBuffer.fences ++ if b.output?.isSome then b.fences else []) ∨
      (classifyRequest d r nowNs ≠ none ∧ closeRequest d r nowNs = r.fences))) := by
  unfold classifyRequest closeRequest
  by_cases hargs : r.inputBuffer.isSome ∨ r.outputBuffers = [] ∨ 3 < r.outputBuffers.length
  · rw [if_pos hargs, if_pos hargs]
    exact .inl ⟨rfl, rfl, hargs⟩
  · rw [if_neg hargs, if_neg hargs]
    obtain ⟨hinput, -, hlength⟩ : r.inputBuffer.isSome ≠ true ∧ r.outputBuffers ≠ [] ∧
        ¬ 3 < r.outputBuffers.length :=
      ⟨fun h => hargs (.inl h), fun h => hargs (.inr (.inl h)), fun h => hargs (.inr (.inr h))⟩
    refine .inr ⟨⟨Option.not_isSome_iff_eq_none.mp hinput, not_lt.mp hlength⟩, ?_⟩
    have hp := assigned_nil d r.frameNumber nowNs
    by_cases hrefused : ∃ done b rest, FirstRefused d [] r.outputBuffers done b rest
    · obtain ⟨done, b, rest, hfirst⟩ := hrefused
      exact .inl ⟨done, b, rest, hfirst, closed_of_firstRefused hp hfirst false⟩
    · exact .inr (closed_of_noneRefused hp hrefused false)

/-- The stretch in which a call is refused. -/
theorem exec_classify_of_none {w : World} (x : Answer)
    (h : classifyRequest w.device r x.nowNs = none) :
    exec (.classify r) x w = some (goOn (w.requestReturned r.frameNumber eInval) []) := by
  show some (execClassify r x.nowNs w) = _
  rw [execClassify, h]

theorem exec_classify_of_some {w : World} (x : Answer)
    (h : classifyRequest w.device r x.nowNs ≠ none) {o : Stretch}
    (hexec : exec (.classify r) x w = some o) :
    o.shared.requestReturns = w.requestReturns ∧ ∀ a ∈ o.push, ∀ r', a ≠ .classify r' := by
  obtain ⟨⟨p, fenceFailed⟩, hsome⟩ := Option.ne_none_iff_exists'.mp h
  have hexec : some (execClassify r x.nowNs w) = some o := hexec
  rw [execClassify, hsome] at hexec
  obtain rfl := Option.some.inj hexec
  refine ⟨rfl, fun a ha r' => ?_⟩
  have ha : a ∈ if fenceFailed = true ∨ p.recognised = [] then
      [Activation.request .notifyError p]
    else [.applyRequestControls r.settings, .request .reserve p] := ha
  split_ifs at ha
  · rw [List.mem_singleton.mp ha]
    exact fun h => Activation.noConfusion h
  · obtain rfl | ha := List.mem_cons.mp ha
    · exact fun h => Activation.noConfusion h
    · rw [List.mem_singleton.mp ha]
      exact fun h => Activation.noConfusion h

/-- **A run of the call** is one stretch that refuses the request, or returns 0. -/
theorem runs_cases {first : Ran} {trace : List Ran} {status : ℤ}
    (hruns : Runs [.classify r] (first :: trace))
    (hreturns : ∃ ran ∈ first :: trace, ran.Returns r.frameNumber status) :
    (classifyRequest first.before.device r first.answer.nowNs = none ∧ status = eInval ∧
      trace = [] ∧ first.Leaves) ∨
    (classifyRequest first.before.device r first.answer.nowNs ≠ none ∧ status = 0) := by
  cases hruns with
  | @stretch _ x w o _ _ hexec htrace =>
    dsimp only
    by_cases hnone : classifyRequest w.device r x.nowNs = none
    · refine .inl ⟨hnone, ?_⟩
      rw [exec_classify_of_none x hnone] at hexec
      obtain rfl := Option.some.inj hexec
      cases htrace with
      | done =>
        obtain ⟨ran, hran, hreturns⟩ := hreturns
        obtain rfl := List.mem_singleton.mp hran
        have hlast := List.append_cancel_left hreturns
        exact ⟨(Prod.mk.inj (List.cons.inj hlast).1).2.symm, rfl, rfl, rfl, rfl, rfl⟩
    · refine .inr ⟨hnone, ?_⟩
      obtain ⟨hsame, hpush⟩ := exec_classify_of_some x hnone hexec
      obtain ⟨ran, hran, hreturns⟩ := hreturns
      obtain rfl | hran := List.mem_cons.mp hran
      · have hreturns : o.shared.requestReturns = _ := hreturns
        rw [hsame, List.self_eq_append_right] at hreturns
        exact absurd hreturns (List.cons_ne_nil _ _)
      · rw [List.append_nil] at htrace
        exact runs_return_zero htrace hpush hran hreturns

end

/-- Two outputs of the preview stream: the call fails when both fences are closed. -/
theorem processCaptureRequest_closes :
    ∃ w r trace, ProcessCaptureRequest true w (some r) eInval [5, 6] trace ∧
      ¬ Atomic (some r) eInval [5, 6] trace := by
  refine ⟨(World.opened 0).setDevice
      { Device.opened 0 with configuredPreviewStream := some 1 },
    ⟨1, none, none, [⟨some 1, some 7, 5, 0⟩, ⟨some 1, some 8, 6, 0⟩]⟩, _,
    .ran rfl (.stretch (exec_classify_of_none ⟨0, 0, ⟨100, 0, 0⟩⟩ rfl) .done) rfl
      ⟨_, List.mem_singleton_self _, rfl⟩, fun h => ?_⟩
  exact List.cons_ne_nil _ _ (h.error (by decide)).1

/-- **A call is atomic** in every run if no fence stands before the output that is refused
    first, nor on it. -/
theorem atomic_iff_keepsFences (ready : Bool) (w : World) (request : Option CaptureRequest) :
    (∀ status closed trace, ProcessCaptureRequest ready w request status closed trace →
      Atomic request status closed trace) ↔ KeepsFences ready w.device request := by
  constructor
  · rintro hatomic r rfl hready hinput hlength done b rest hfirst
    have hp := assigned_nil w.device r.frameNumber 0
    obtain ⟨hnone, hclosed⟩ := closed_of_firstRefused hp hfirst false
    have hargs : ¬ (r.inputBuffer.isSome = true ∨ r.outputBuffers = [] ∨
        3 < r.outputBuffers.length) := by
      rw [hinput, hfirst.split]
      rw [hfirst.split] at hlength
      rintro (h | h | h)
      · exact Bool.false_ne_true h
      · exact List.append_ne_nil_of_right_ne_nil _ (List.cons_ne_nil _ _) h
      · exact absurd h (not_lt.mpr hlength)
    have hclassify : classifyRequest w.device r 0 = none := by
      unfold classifyRequest
      rw [if_neg hargs]
      exact hnone
    have hcall := hatomic eInval (closeRequest w.device r 0) _
      (.ran hready (.stretch (exec_classify_of_none ⟨0, 0, ⟨0, 0, 0⟩⟩ hclassify) .done) rfl
        ⟨_, List.mem_singleton_self _, rfl⟩)
    have hnil := (hcall.error (by decide)).1
    unfold closeRequest at hnil
    rw [if_neg hargs, hclosed, List.append_eq_nil_iff] at hnil
    refine ⟨flatMap_fences_eq_nil.mp hnil.1, fun hsome => ?_⟩
    rw [if_pos hsome] at hnil
    exact fences_eq_nil.mp hnil.2
  · rintro hkeeps status closed trace hcall
    have hne : eInval ≠ 0 := by decide
    cases hcall with
    | noRequest =>
      exact ⟨fun _ => ⟨rfl, fun _ h => absurd h List.not_mem_nil⟩, fun h => absurd h hne⟩
    | notReady r hready =>
      exact ⟨fun _ => ⟨rfl, fun _ h => absurd h List.not_mem_nil⟩, fun h => absurd h hne⟩
    | @ran r first trace status hready hruns hfirst hreturns =>
      subst hfirst
      have hcases := closeRequest_cases first.before.device r first.answer.nowNs
      obtain ⟨hnone, rfl, rfl, hleaves⟩ | ⟨hsome, rfl⟩ := runs_cases hruns hreturns
      · refine ⟨fun _ => ⟨?_, fun ran hran => ?_⟩, fun h => absurd h hne⟩
        · obtain ⟨-, hclosed, -⟩ |
            ⟨⟨hinput, hlength⟩, ⟨done, b, rest, hrefused, -, hclosed⟩ | ⟨hsome, -⟩⟩ := hcases
          · exact hclosed
          · obtain ⟨hbefore, hself⟩ :=
              hkeeps r rfl hready hinput hlength done b rest hrefused
            rw [hclosed, flatMap_fences_eq_nil.mpr hbefore, List.nil_append]
            split_ifs with hb
            · exact fences_eq_nil.mpr (hself hb)
            · rfl
          · exact absurd hnone hsome
        · rw [List.mem_singleton.mp hran]
          exact hleaves
      · refine ⟨fun h => absurd h (lt_irrefl 0), fun _ => ⟨r, rfl, ?_⟩⟩
        obtain ⟨hnone, -⟩ | ⟨-, ⟨_, _, _, -, hnone, -⟩ | ⟨-, hclosed⟩⟩ := hcases
        · exact absurd hnone hsome
        · exact absurd hnone hsome
        · exact hclosed

end Pro5Android.Camera
