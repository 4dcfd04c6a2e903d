import Pro5Android.Native3.Router
import Mathlib.Data.List.Perm.Subperm

/-!
# Capture requests and stream configurations

`validateRequest` of `ExynosCamera3StreamRouterM86.cpp` (lines 148–184) uses the
classifier of `validateConfiguration` and counts as that does, but does not ask whether a
role comes twice.

Results:
* `requestLoop_eq_some_iff`, `validateRequest_eq_zero_iff`: what a request has to meet.
* `exists_configuration`: outputs with one role each belong to a configuration.
* `consistent_iff`: the requests on which the two validations agree.
* `two_previews_accepted`: a request of the other kind.
-/

namespace Pro5Android.Native3

/-! ## The validation -/

/-- `camera3_stream_buffer_t`: its stream, and whether it has a buffer. -/
structure StreamBuffer where
  stream : Option Stream
  buffer : Bool
  deriving DecidableEq

/-- `camera3_capture_request_t`; `none` is a null pointer. -/
structure CaptureRequest where
  outputBuffers : Option (List StreamBuffer)
  inputBuffer : Option StreamBuffer

/-- The loop of `validateRequest` (lines 164–177), on `processedCount` and `jpegCount`;
    `none` is `return -EINVAL`. -/
def requestLoop (cameraId : ℤ) : List StreamBuffer → ℕ → ℕ → Option (ℕ × ℕ)
  | [], processedCount, jpegCount => some (processedCount, jpegCount)
  | output :: outputs, processedCount, jpegCount =>
    let role := classify cameraId output.stream
    if role = .invalid ∨ output.buffer = false then none
    else if role = .jpeg then requestLoop cameraId outputs processedCount (jpegCount + 1)
    else requestLoop cameraId outputs (processedCount + 1) jpegCount

/-- `validateRequest` (lines 148–184). -/
def validateRequest (cameraId : ℤ) (request : Option CaptureRequest) : ℤ :=
  match request with
  | none => -einval
  | some request =>
    match request.outputBuffers with
    | none => -einval
    | some outputs =>
      if outputs.length < 1 ∨ outputs.length > 3 ∨ request.inputBuffer.isSome then -einval
      else
        match requestLoop cameraId outputs 0 0 with
        | none => -einval
        | some (processedCount, jpegCount) =>
          if processedCount > 2 ∨ jpegCount > 1 then -einval else 0

/-- The roles of the outputs, in order. -/
def roles (cameraId : ℤ) (outputs : List StreamBuffer) : List StreamRole :=
  outputs.map fun output => classify cameraId output.stream

/-! ## What a request has to meet -/

section

variable {cameraId : ℤ} {outputs : List StreamBuffer} {inputBuffer : Option StreamBuffer}

/-- **The loop** goes through when every role is valid and every buffer is there; it counts
    the outputs. -/
theorem requestLoop_eq_some_iff (processedCount jpegCount processed jpeg : ℕ) :
    requestLoop cameraId outputs processedCount jpegCount = some (processed, jpeg) ↔
      (∀ role ∈ roles cameraId outputs, role ≠ .invalid) ∧
      (∀ output ∈ outputs, output.buffer = true) ∧
      processed = processedCount + (roles cameraId outputs).countP (· != .jpeg) ∧
      jpeg = jpegCount + (roles cameraId outputs).countP (· == .jpeg) := by
  induction outputs generalizing processedCount jpegCount with
  | nil =>
    rw [requestLoop, Option.some.injEq, Prod.mk.injEq]
    simp only [roles, List.map_nil, List.not_mem_nil, false_implies, implies_true,
      List.countP_nil, Nat.add_zero, true_and]
    exact and_congr eq_comm eq_comm
  | cons output outputs ih =>
    rw [requestLoop]
    simp only [roles, List.map_cons, List.forall_mem_cons, List.countP_cons] at ih ⊢
    generalize classify cameraId output.stream = role
    by_cases hrefused : role = .invalid ∨ output.buffer = false
    · rw [if_pos hrefused]
      refine iff_of_false (Option.some_ne_none _).symm ?_
      rintro ⟨⟨hvalid, -⟩, ⟨hbuffer, -⟩, -⟩
      obtain h | h := hrefused
      · exact hvalid h
      · exact Bool.false_ne_true (h.symm.trans hbuffer)
    · rw [if_neg hrefused]
      obtain ⟨hvalid, hbuffer⟩ := not_or.mp hrefused
      rw [Bool.not_eq_false] at hbuffer
      by_cases hjpeg : role = .jpeg
      · rw [if_pos hjpeg, ih]
        subst hjpeg
        simp only [hbuffer, ne_eq, reduceCtorEq, not_false_eq_true, true_and, bne_self_eq_false,
          Bool.false_eq_true, if_false, beq_self_eq_true, if_true, Nat.add_zero]
        rw [Nat.add_assoc, Nat.add_comm 1]
      · rw [if_neg hjpeg, ih]
        simp only [hbuffer, hvalid, hjpeg, ne_eq, not_false_eq_true, true_and, bne_iff_ne,
          beq_iff_eq, if_true, if_false, Nat.add_zero]
        rw [Nat.add_assoc, Nat.add_comm 1]

/-- **A request is accepted** if it has no input, one to three outputs, each with a valid
    role and a buffer, and no more than two processed ones and one JPEG. -/
theorem validateRequest_eq_zero_iff :
    validateRequest cameraId (some ⟨some outputs, inputBuffer⟩) = 0 ↔
      (1 ≤ outputs.length ∧ outputs.length ≤ 3 ∧ inputBuffer = none) ∧
      (∀ role ∈ roles cameraId outputs, role ≠ .invalid) ∧
      (∀ output ∈ outputs, output.buffer = true) ∧
      (roles cameraId outputs).countP (· != .jpeg) ≤ 2 ∧
      (roles cameraId outputs).countP (· == .jpeg) ≤ 1 := by
  show (if _ then -einval else _) = 0 ↔ _
  by_cases hargs : outputs.length < 1 ∨ outputs.length > 3 ∨ inputBuffer.isSome = true
  · rw [if_pos hargs]
    refine iff_of_false (by decide) ?_
    rintro ⟨⟨hone, hthree, rfl⟩, -⟩
    simp only [Option.isSome_none, Bool.false_eq_true, or_false] at hargs
    omega
  · rw [if_neg hargs]
    obtain ⟨hone, hthree, hinput⟩ := not_or.mp hargs |>.imp_right not_or.mp
    rw [Bool.not_eq_true, Option.isSome_eq_false_iff, Option.isNone_iff_eq_none] at hinput
    have hloop := fun processed jpeg =>
      @requestLoop_eq_some_iff cameraId outputs 0 0 processed jpeg
    simp only [Nat.zero_add] at hloop
    cases hresult : requestLoop cameraId outputs 0 0 with
    | none =>
      refine iff_of_false (by decide) ?_
      rintro ⟨-, hvalid, hbuffer, -⟩
      have hsome := (hloop _ _).mpr ⟨hvalid, hbuffer, rfl, rfl⟩
      exact Option.some_ne_none _ (hsome.symm.trans hresult)
    | some counts =>
      obtain ⟨processed, jpeg⟩ := counts
      obtain ⟨hvalid, hbuffer, rfl, rfl⟩ := (hloop _ _).mp hresult
      dsimp only
      split_ifs with hcounts
      · exact iff_of_false (by decide) fun h => by omega
      · exact iff_of_true rfl ⟨⟨by omega, by omega, hinput⟩, hvalid, hbuffer, by omega, by omega⟩

end

/-! ## Requests and configurations -/

/-- The streams are a sub-selection of a configuration that is accepted. -/
def Configurable (cameraId : ℤ) (streams : List (Option Stream)) : Prop :=
  ∃ configuration, validateConfiguration cameraId (some ⟨some configuration⟩) = 0 ∧
    streams.Subperm configuration

/-- The two validations agree on a request: if it is accepted, each role comes once and its
    streams belong to a configuration, and if it has no input, every output has a buffer and
    the streams belong to a configuration, it is accepted. -/
structure Consistent (cameraId : ℤ) (request : Option CaptureRequest) : Prop where
  sound : validateRequest cameraId request = 0 →
    ∃ outputs inputBuffer, request = some ⟨some outputs, inputBuffer⟩ ∧
      (roles cameraId outputs).Nodup ∧ Configurable cameraId (outputs.map StreamBuffer.stream)
  complete : ∀ outputs, request = some ⟨some outputs, none⟩ →
    (∀ output ∈ outputs, output.buffer = true) → outputs ≠ [] →
    Configurable cameraId (outputs.map StreamBuffer.stream) → validateRequest cameraId request = 0

/-- Two outputs of one processed role, with or without a JPEG, and nothing that the code
    refuses. -/
def DoublesRole (cameraId : ℤ) (request : Option CaptureRequest) : Prop :=
  ∃ outputs, request = some ⟨some outputs, none⟩ ∧ (∀ output ∈ outputs, output.buffer = true) ∧
    ∃ role, role ≠ .invalid ∧ role ≠ .jpeg ∧
      ((roles cameraId outputs).Perm [role, role] ∨
        (roles cameraId outputs).Perm [role, role, .jpeg])

section

variable {cameraId : ℤ} {outputs : List StreamBuffer}

theorem map_classify_stream (outputs : List StreamBuffer) :
    (outputs.map StreamBuffer.stream).map (classify cameraId) = roles cameraId outputs := by
  rw [List.map_map]
  rfl

/-- The preview stream that is put beside a still picture. -/
def companion : Stream :=
  ⟨.output, 1920, 1080, halPixelFormatImplementationDefined, usageHwTexture⟩

theorem classify_companion (cameraId : ℤ) : classify cameraId (some companion) = .preview := by
  unfold classify companion
  dsimp only
  rw [if_neg (by decide), if_neg (by decide), if_neg (by decide), if_neg (by decide),
    if_neg (by decide), if_pos (by decide)]

/-- Counts of roles that a configuration may have. -/
theorem validateConfiguration_of_roles (hcamera : cameraId = 0 ∨ cameraId = 1)
    {pointers : List (Option Stream)}
    (hvalid : ∀ role ∈ pointers.map (classify cameraId), role ≠ .invalid)
    (hnodup : (pointers.map (classify cameraId)).Nodup)
    (hone : 1 ≤ (pointers.map (classify cameraId)).countP (· != .jpeg))
    (htwo : (pointers.map (classify cameraId)).countP (· != .jpeg) ≤ 2)
    (hjpeg : (pointers.map (classify cameraId)).countP (· == .jpeg) ≤ 1) :
    validateConfiguration cameraId (some ⟨some pointers⟩) = 0 := by
  have hlength : pointers.length = (pointers.map (classify cameraId)).countP (· != .jpeg) +
      (pointers.map (classify cameraId)).countP (· == .jpeg) := by
    rw [← length_eq_roleCounts, List.length_map]
  refine (validateConfiguration_tests cameraId pointers).mpr ⟨⟨by omega, by omega, hcamera⟩, ?_⟩
  refine ⟨_, _, (rolesLoop_eq_some_iff _ _ _ _ _ _ _).mpr ⟨?_, hnodup, rfl, rfl⟩, ?_⟩
  · exact fun role hrole => ⟨hvalid role hrole, rfl⟩
  · omega

/-- **Outputs with one role each belong to a configuration**: they are one, or a still
    picture, which is one beside a preview. -/
theorem exists_configuration (hcamera : cameraId = 0 ∨ cameraId = 1)
    {pointers : List (Option Stream)}
    (hvalid : ∀ role ∈ pointers.map (classify cameraId), role ≠ .invalid)
    (hnodup : (pointers.map (classify cameraId)).Nodup)
    (htwo : (pointers.map (classify cameraId)).countP (· != .jpeg) ≤ 2)
    (hjpeg : (pointers.map (classify cameraId)).countP (· == .jpeg) ≤ 1) :
    Configurable cameraId pointers := by
  by_cases hone : 1 ≤ (pointers.map (classify cameraId)).countP (· != .jpeg)
  · exact ⟨pointers, validateConfiguration_of_roles hcamera hvalid hnodup hone htwo hjpeg,
      List.Subperm.refl _⟩
  · have hall : ∀ role ∈ pointers.map (classify cameraId), role = .jpeg := by
      intro role hrole
      have hzero := List.countP_eq_zero.mp (Nat.eq_zero_of_not_pos hone) role hrole
      simpa using hzero
    refine ⟨some companion :: pointers, ?_, (List.sublist_cons_self _ _).subperm⟩
    apply validateConfiguration_of_roles hcamera
    all_goals rw [List.map_cons, classify_companion]
    · rw [List.forall_mem_cons]
      exact ⟨by decide, hvalid⟩
    · rw [List.nodup_cons]
      exact ⟨fun hmem => absurd (hall _ hmem) (by decide), hnodup⟩
    · rw [List.countP_cons_of_pos (by decide)]
      omega
    · rw [List.countP_cons_of_pos (by decide)]
      omega
    · rw [List.countP_cons_of_neg (by decide)]
      exact hjpeg

/-- At most two elements that are not distinct are one element twice. -/
theorem exists_pair_of_not_nodup {α : Type*} {l : List α} (hlength : l.length ≤ 2)
    (hdup : ¬ l.Nodup) : ∃ a, l = [a, a] := by
  cases l with
  | nil => exact absurd List.nodup_nil hdup
  | cons a rest =>
    cases rest with
    | nil => exact absurd (List.nodup_singleton a) hdup
    | cons b rest =>
      obtain rfl : rest = [] := by
        simp only [List.length_cons] at hlength
        exact List.eq_nil_of_length_eq_zero (by omega)
      obtain rfl : a = b := by simpa using hdup
      exact ⟨a, rfl⟩

/-- Roles that come twice within the counts are two of one processed role. -/
theorem perm_of_not_nodup {l : List StreamRole} (htwo : l.countP (· != .jpeg) ≤ 2)
    (hjpeg : l.countP (· == .jpeg) ≤ 1) (hdup : ¬ l.Nodup) :
    ∃ role ∈ l, role ≠ .jpeg ∧ (l.Perm [role, role] ∨ l.Perm [role, role, .jpeg]) := by
  have hsplit : (l.filter (· != .jpeg) ++ l.filter (· == .jpeg)).Perm l := by
    have hperm := List.filter_append_perm (fun role : StreamRole => role != .jpeg) l
    have hcongr : l.filter (fun role => !(role != .jpeg)) = l.filter (· == .jpeg) :=
      List.filter_congr fun role _ => Bool.not_not _
    rwa [hcongr] at hperm
  have hmem : ∀ role ∈ l.filter (· != .jpeg), role ≠ .jpeg := by
    intro role hrole
    simpa using (List.mem_filter.mp hrole).2
  have hcount : l.count .jpeg ≤ 1 := hjpeg
  rw [List.countP_eq_length_filter] at htwo
  rw [List.filter_beq] at hsplit
  have hprocessed : ¬ (l.filter (· != .jpeg)).Nodup := by
    refine fun hnodup => hdup (hsplit.nodup_iff.mp (hnodup.append ?_ ?_))
    · exact List.nodup_replicate.mpr hcount
    · intro role hrole hreplicate
      exact hmem role hrole (List.eq_of_mem_replicate hreplicate)
  obtain ⟨role, hpair⟩ := exists_pair_of_not_nodup htwo hprocessed
  rw [hpair] at hsplit hmem
  refine ⟨role, hsplit.subset (by simp), hmem role (by simp), ?_⟩
  obtain h0 | h1 := Nat.le_one_iff_eq_zero_or_eq_one.mp hcount
  · rw [h0] at hsplit
    exact .inl hsplit.symm
  · rw [h1] at hsplit
    exact .inr hsplit.symm

/-- Such a request is accepted, with a role that comes twice. -/
theorem accepted_of_doublesRole {request : Option CaptureRequest}
    (h : DoublesRole cameraId request) :
    ∃ outputs, request = some ⟨some outputs, none⟩ ∧ validateRequest cameraId request = 0 ∧
      ¬ (roles cameraId outputs).Nodup := by
  obtain ⟨outputs, rfl, hbuffer, role, hvalid, hjpeg, hperm⟩ := h
  have hlength : (roles cameraId outputs).length = outputs.length := List.length_map _
  have hne : (role != .jpeg) = true := bne_iff_ne.mpr hjpeg
  have heq : (role == .jpeg) = false := beq_eq_false_iff_ne.mpr hjpeg
  refine ⟨outputs, rfl, validateRequest_eq_zero_iff.mpr ?_, ?_⟩
  · obtain hperm | hperm := hperm
    all_goals
      rw [hperm.countP_eq, hperm.countP_eq, ← hlength, hperm.length_eq]
      refine ⟨⟨by simp, by simp, rfl⟩, fun r hr => ?_, hbuffer, ?_⟩
      · have hmem := hperm.subset hr
        simp only [List.mem_cons, List.not_mem_nil, or_false] at hmem
        grind
      · simp [hne, heq]
  · intro hnodup
    obtain hperm | hperm := hperm
    all_goals
      have hnot := hperm.nodup_iff.mp hnodup
      simp at hnot

/-- What is accepted and does not double a role has each role once. -/
theorem nodup_of_accepted {inputBuffer : Option StreamBuffer}
    (haccepted : validateRequest cameraId (some ⟨some outputs, inputBuffer⟩) = 0)
    (h : ¬ DoublesRole cameraId (some ⟨some outputs, inputBuffer⟩)) :
    (roles cameraId outputs).Nodup := by
  obtain ⟨⟨-, -, rfl⟩, hvalid, hbuffer, htwo, hjpeg⟩ := validateRequest_eq_zero_iff.mp haccepted
  by_contra hdup
  obtain ⟨role, hmem, hne, hperm⟩ := perm_of_not_nodup htwo hjpeg hdup
  exact h ⟨outputs, rfl, hbuffer, role, hvalid role hmem, hne, hperm⟩

/-- A sub-selection of a configuration meets what is asked of a request. -/
theorem accepted_of_configurable (hbuffer : ∀ output ∈ outputs, output.buffer = true)
    (hne : outputs ≠ []) (h : Configurable cameraId (outputs.map StreamBuffer.stream)) :
    validateRequest cameraId (some ⟨some outputs, none⟩) = 0 := by
  obtain ⟨configuration, hconfiguration, hsub⟩ := h
  obtain ⟨⟨-, hthree, -⟩, processed, jpeg, hloop, -, htwo, hjpeg⟩ :=
    (validateConfiguration_tests cameraId configuration).mp hconfiguration
  obtain ⟨hvalid, -, rfl, rfl⟩ := (rolesLoop_eq_some_iff _ _ _ _ _ _ _).mp hloop
  have hroles : (roles cameraId outputs).Subperm (configuration.map (classify cameraId)) := by
    obtain ⟨streams, hperm, hsublist⟩ := hsub
    rw [← map_classify_stream]
    exact ⟨streams.map (classify cameraId), hperm.map _, hsublist.map _⟩
  have hlength : outputs.length ≤ configuration.length := by
    rw [← List.length_map StreamBuffer.stream]
    exact hsub.length_le
  have hpos := List.length_pos_iff.mpr hne
  have hprocessed := hroles.countP_le (· != StreamRole.jpeg)
  have hstill := hroles.countP_le (· == StreamRole.jpeg)
  refine validateRequest_eq_zero_iff.mpr ⟨⟨hpos, by omega, rfl⟩,
    fun role hrole => (hvalid role (hroles.subset hrole)).1, hbuffer, by omega, by omega⟩

theorem einval_ne : -einval ≠ 0 := by decide

/-- **The two validations agree** on every request but those that double a role. -/
theorem consistent_iff (hcamera : cameraId = 0 ∨ cameraId = 1)
    (request : Option CaptureRequest) :
    Consistent cameraId request ↔ ¬ DoublesRole cameraId request := by
  constructor
  · intro hconsistent hdoubles
    obtain ⟨outputs, hrequest, haccepted, hdup⟩ := accepted_of_doublesRole hdoubles
    obtain ⟨outputs', inputBuffer, hrequest', hnodup, -⟩ := hconsistent.sound haccepted
    obtain ⟨hsame, -⟩ := CaptureRequest.mk.inj (Option.some.inj (hrequest.symm.trans hrequest'))
    exact hdup (Option.some.inj hsame ▸ hnodup)
  · intro hnot
    refine ⟨fun haccepted => ?_, ?_⟩
    · obtain ⟨outputs, inputBuffer, rfl⟩ : ∃ outputs inputBuffer,
          request = some ⟨some outputs, inputBuffer⟩ := by
        cases request with
        | none => exact absurd haccepted einval_ne
        | some request =>
          obtain ⟨outputBuffers, inputBuffer⟩ := request
          cases outputBuffers with
          | none => exact absurd haccepted einval_ne
          | some outputs => exact ⟨outputs, inputBuffer, rfl⟩
      have hnodup := nodup_of_accepted haccepted hnot
      obtain ⟨-, hvalid, -, htwo, hjpeg⟩ := validateRequest_eq_zero_iff.mp haccepted
      rw [← map_classify_stream] at hvalid hnodup htwo hjpeg
      exact ⟨outputs, inputBuffer, rfl, by rwa [← map_classify_stream],
        exists_configuration hcamera hvalid hnodup htwo hjpeg⟩
    · rintro outputs rfl hbuffer hne hconfigurable
      exact accepted_of_configurable hbuffer hne hconfigurable

end

/-- A request for a still picture. -/
def stillRequest : CaptureRequest :=
  ⟨some [⟨some ⟨.output, 1920, 1080, halPixelFormatBlob, 0⟩, true⟩], none⟩

theorem consistent_iff_still :
    Consistent 0 (some stillRequest) ↔ ¬ DoublesRole 0 (some stillRequest) :=
  consistent_iff (.inl rfl) (some stillRequest)

/-- **Two buffers of the preview stream** are accepted. -/
theorem two_previews_accepted :
    ¬ Consistent 0 (some ⟨some [⟨some companion, true⟩, ⟨some companion, true⟩], none⟩) := by
  intro hconsistent
  obtain ⟨outputs, inputBuffer, hrequest, hnodup, -⟩ := hconsistent.sound (by decide)
  obtain ⟨hsame, -⟩ := CaptureRequest.mk.inj (Option.some.inj hrequest)
  rw [← Option.some.inj hsame] at hnodup
  exact absurd hnodup (by decide)

end Pro5Android.Native3
