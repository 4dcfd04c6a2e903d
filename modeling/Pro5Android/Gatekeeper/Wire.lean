import Pro5Android.Gatekeeper.Messages

/-!
# Gatekeeper messages on the wire

The four messages share a header and `Serialize`, `Deserialize`; what differs are
the virtual functions of `Messages`. `format` says apart from the code which bytes
a message of each kind consists of.

Results:
* `hooks_size`, `hooks_serialize`, `hooks_deserialize`: the virtual functions
  write the format of what a message contains, and read back exactly that.
-/

namespace Pro5Android.Gatekeeper

open Lib

inductive MessageKind
  | verifyRequest
  | verifyResponse
  | enrollRequest
  | enrollResponse
  deriving DecidableEq, Repr

namespace MessageKind

/-- The fields of the subclass. -/
abbrev Body : MessageKind → Type
  | verifyRequest => VerifyRequest
  | verifyResponse => VerifyResponse
  | enrollRequest => EnrollRequest
  | enrollResponse => EnrollResponse

/-- The virtual functions. -/
structure Hooks (β : Type) where
  nonErrorSerializedSize : β → UInt32
  nonErrorSerialize : β → Bytes → Option Bytes
  nonErrorDeserialize : β → Bytes → Option (GatekeeperError × β)

def hooks : (k : MessageKind) → Hooks k.Body
  | verifyRequest =>
    ⟨VerifyRequest.nonErrorSerializedSize, VerifyRequest.nonErrorSerialize,
      VerifyRequest.nonErrorDeserialize⟩
  | verifyResponse =>
    ⟨VerifyResponse.nonErrorSerializedSize, VerifyResponse.nonErrorSerialize,
      VerifyResponse.nonErrorDeserialize⟩
  | enrollRequest =>
    ⟨EnrollRequest.nonErrorSerializedSize, EnrollRequest.nonErrorSerialize,
      EnrollRequest.nonErrorDeserialize⟩
  | enrollResponse =>
    ⟨EnrollResponse.nonErrorSerializedSize, EnrollResponse.nonErrorSerialize,
      EnrollResponse.nonErrorDeserialize⟩

/-- The buffers of a message. -/
def buffers : (k : MessageKind) → k.Body → List SizedBuffer
  | verifyRequest, (m : VerifyRequest) => [m.passwordHandle, m.providedPassword]
  | verifyResponse, (m : VerifyResponse) => [m.authToken]
  | enrollRequest, (m : EnrollRequest) =>
    [m.providedPassword, m.enrolledPassword, m.passwordHandle]
  | enrollResponse, (m : EnrollResponse) => [m.enrolledPasswordHandle]

/-- What a message of this kind says. -/
abbrev Content : MessageKind → Type
  | verifyRequest => UInt64 × Codec.Blob 4 × Codec.Blob 4
  | verifyResponse => Codec.Blob 4 × UInt8
  | enrollRequest => Codec.Blob 4 × Codec.Blob 4 × Codec.Blob 4
  | enrollResponse => Codec.Blob 4

/-- How it is written. -/
def format : (k : MessageKind) → Codec k.Content
  | verifyRequest => .prod .u64 (.prod (.blob 4) (.blob 4))
  | verifyResponse => .prod (.blob 4) .u8
  | enrollRequest => .prod (.blob 4) (.prod (.blob 4) (.blob 4))
  | enrollResponse => .blob 4

/-- What a message says, read off its fields. -/
def content : (k : MessageKind) → k.Body → k.Content
  | verifyRequest, (m : VerifyRequest) =>
    (m.challenge, m.passwordHandle.content, m.providedPassword.content)
  | verifyResponse, (m : VerifyResponse) => (m.authToken.content, m.requestReenroll)
  | enrollRequest, (m : EnrollRequest) =>
    (m.providedPassword.content, m.enrolledPassword.content, m.passwordHandle.content)
  | enrollResponse, (m : EnrollResponse) => m.enrolledPasswordHandle.content

/-- Every buffer has the bytes its length promises. -/
def Valid (k : MessageKind) (b : k.Body) : Prop := ∀ buf ∈ k.buffers b, buf.Valid

/-- No buffer has fewer or more bytes than its length, though some may be missing. -/
def Sound (k : MessageKind) (b : k.Body) : Prop := ∀ buf ∈ k.buffers b, buf.Sound

variable {k : MessageKind} {b : k.Body}

theorem Valid.sound (h : k.Valid b) : k.Sound b := fun buf hbuf => (h buf hbuf).1

/-- The payload of a message, by its format. -/
def payload (k : MessageKind) (b : k.Body) : Bytes := k.format.put (k.content b)

theorem hooks_size (h : k.Valid b) :
    k.hooks.nonErrorSerializedSize b = (k.payload b).length.toUInt32 := by
  have hadd : ∀ x y : ℕ, (x + y).toUInt32 = x.toUInt32 + y.toUInt32 := fun x y =>
    UInt32.ofNat_add x y
  cases k with
  | verifyRequest =>
    have h1 := serializedBufferSize_eq (h b.passwordHandle (by simp [buffers]))
    have h2 := serializedBufferSize_eq (h b.providedPassword (by simp [buffers]))
    show 8 + serializedBufferSize b.passwordHandle + serializedBufferSize b.providedPassword =
      (leBytes 8 b.challenge.toNat ++ ((Codec.blob 4).put b.passwordHandle.content ++
        (Codec.blob 4).put b.providedPassword.content)).length.toUInt32
    rw [List.length_append, List.length_append, length_leBytes, hadd, hadd, ← h1, ← h2,
      UInt32.add_assoc]
    rfl
  | verifyResponse =>
    have h1 := serializedBufferSize_eq (h b.authToken (by simp [buffers]))
    show serializedBufferSize b.authToken + 1 =
      ((Codec.blob 4).put b.authToken.content ++ leBytes 1 b.requestReenroll.toNat).length.toUInt32
    rw [List.length_append, length_leBytes, hadd, ← h1]
    rfl
  | enrollRequest =>
    have h1 := serializedBufferSize_eq (h b.providedPassword (by simp [buffers]))
    have h2 := serializedBufferSize_eq (h b.enrolledPassword (by simp [buffers]))
    have h3 := serializedBufferSize_eq (h b.passwordHandle (by simp [buffers]))
    show serializedBufferSize b.providedPassword + serializedBufferSize b.enrolledPassword +
      serializedBufferSize b.passwordHandle = ((Codec.blob 4).put b.providedPassword.content ++
        ((Codec.blob 4).put b.enrolledPassword.content ++
          (Codec.blob 4).put b.passwordHandle.content)).length.toUInt32
    rw [List.length_append, List.length_append, hadd, hadd, ← h1, ← h2, ← h3, UInt32.add_assoc]
  | enrollResponse => exact serializedBufferSize_eq (h b.enrolledPasswordHandle (by simp [buffers]))

theorem hooks_serialize (h : k.Valid b) (buffer : Bytes) :
    k.hooks.nonErrorSerialize b buffer = some (buffer ++ k.payload b) := by
  cases k with
  | verifyRequest =>
    have h1 := h b.passwordHandle (by simp [buffers])
    have h2 := h b.providedPassword (by simp [buffers])
    show (appendToBuffer _ b.passwordHandle).bind (appendToBuffer · b.providedPassword) =
      some (buffer ++ (leBytes 8 b.challenge.toNat ++ ((Codec.blob 4).put b.passwordHandle.content
        ++ (Codec.blob 4).put b.providedPassword.content)))
    rw [appendToBuffer_eq h1, Option.bind_some, appendToBuffer_eq h2]
    simp only [List.append_assoc]
  | verifyResponse =>
    have h1 := h b.authToken (by simp [buffers])
    show (appendToBuffer buffer b.authToken).map (· ++ leBytes 1 b.requestReenroll.toNat) =
      some (buffer ++ ((Codec.blob 4).put b.authToken.content ++ leBytes 1 b.requestReenroll.toNat))
    rw [appendToBuffer_eq h1, Option.map_some, List.append_assoc]
  | enrollRequest =>
    have h1 := h b.providedPassword (by simp [buffers])
    have h2 := h b.enrolledPassword (by simp [buffers])
    have h3 := h b.passwordHandle (by simp [buffers])
    show ((appendToBuffer buffer b.providedPassword).bind
      (appendToBuffer · b.enrolledPassword)).bind (appendToBuffer · b.passwordHandle) = some (buffer ++
        ((Codec.blob 4).put b.providedPassword.content ++
          ((Codec.blob 4).put b.enrolledPassword.content ++
            (Codec.blob 4).put b.passwordHandle.content)))
    rw [appendToBuffer_eq h1, Option.bind_some, appendToBuffer_eq h2, Option.bind_some,
      appendToBuffer_eq h3]
    simp only [List.append_assoc]
  | enrollResponse =>
    exact appendToBuffer_eq (h b.enrolledPasswordHandle (by simp [buffers])) buffer

/-- What reading a payload leaves of a message, and what it returns. -/
def ReadAs (k : MessageKind) (get : Option (k.Content × Bytes)) (r : GatekeeperError × k.Body) :
    Prop :=
  match get with
  | some (c, _) => r.1 = errorNone ∧ k.Valid r.2 ∧ k.content r.2 = c
  | none => r.1 = errorInvalid ∧ k.Sound r.2

theorem sound_cons {x : SizedBuffer} {l : List SizedBuffer} (hx : x.Sound)
    (hl : ∀ buf ∈ l, buf.Sound) : ∀ buf ∈ x :: l, buf.Sound := by
  simpa using ⟨hx, hl⟩

theorem errorInvalid_ne : errorInvalid ≠ errorNone := by decide

theorem get_u64 {bs : Bytes} (h : ¬ bs.length < 8) :
    Codec.u64.get bs = some ((leValue (bs.take 8)).toUInt64, bs.drop 8) := if_neg h

theorem verifyRequest_deserialize {b : VerifyRequest} (h : b.providedPassword.Sound)
    (payload : Bytes) : ∃ r, b.nonErrorDeserialize payload = some r ∧
      verifyRequest.ReadAs (verifyRequest.format.get payload) r := by
  have hprod : verifyRequest.format.get payload = (Codec.u64.get payload).bind fun p =>
    (((Codec.blob 4).get p.2).bind fun q => ((Codec.blob 4).get q.2).map fun r =>
      ((q.1, r.1), r.2)).map fun q => ((p.1, q.1), q.2) := rfl
  rw [VerifyRequest.nonErrorDeserialize, SizedBuffer.wipe_eq h, Option.bind_some, hprod]
  by_cases hshort : payload.length < 8
  · have hget : Codec.u64.get payload = none := if_pos hshort
    rw [if_pos hshort, hget]
    exact ⟨_, rfl, rfl, sound_cons (SizedBuffer.sound_reset _)
      (sound_cons (SizedBuffer.sound_reset _) (by simp))⟩
  rw [if_neg hshort, memcpy?, if_pos (not_lt.mp hshort), Option.bind_some, get_u64 hshort,
    Option.bind_some]
  dsimp only
  rcases readFromBuffer_cases (payload.drop 8) (SizedBuffer.buffer_reset b.passwordHandle) with
    ⟨handle, rest, hget, hread⟩ | ⟨hget, rest, buf, hbuf, hread⟩
  · rw [hread, hget, Option.bind_some, Option.bind_some]
    dsimp only
    rw [if_neg (not_not.mpr rfl)]
    rcases readFromBuffer_cases rest (SizedBuffer.buffer_reset b.providedPassword) with
      ⟨password, rest', hget', hread'⟩ | ⟨hget', rest', buf, hbuf, hread'⟩
    · rw [hread', hget']
      refine ⟨_, rfl, rfl, ?_, ?_⟩
      · simp [Valid, buffers, SizedBuffer.valid_ofBlob]
      · show (_, (SizedBuffer.ofBlob handle).content, (SizedBuffer.ofBlob password).content) = _
        rw [SizedBuffer.content_ofBlob, SizedBuffer.content_ofBlob]
    · rw [hread', hget']
      exact ⟨_, rfl, rfl, sound_cons (SizedBuffer.valid_ofBlob _).1
        (sound_cons (SizedBuffer.sound_of_none hbuf) (by simp))⟩
  · rw [hread, hget, Option.bind_some]
    dsimp only
    rw [if_pos errorInvalid_ne]
    exact ⟨_, rfl, rfl, sound_cons (SizedBuffer.sound_of_none hbuf)
      (sound_cons (SizedBuffer.sound_reset _) (by simp))⟩

theorem verifyResponse_deserialize (b : VerifyResponse) (payload : Bytes) :
    ∃ r, b.nonErrorDeserialize payload = some r ∧
      verifyResponse.ReadAs (verifyResponse.format.get payload) r := by
  have hprod : verifyResponse.format.get payload = ((Codec.blob 4).get payload).bind fun p =>
    (Codec.u8.get p.2).map fun q => ((p.1, q.1), q.2) := rfl
  rw [VerifyResponse.nonErrorDeserialize, hprod]
  rcases readFromBuffer_cases payload (SizedBuffer.buffer_reset b.authToken) with
    ⟨token, rest, hget, hread⟩ | ⟨hget, rest, buf, hbuf, hread⟩
  · rw [hread, hget, Option.bind_some, Option.bind_some]
    dsimp only
    rw [if_neg (not_not.mpr rfl)]
    by_cases hshort : rest.length < 1
    · have hbyte : Codec.u8.get rest = none := if_pos hshort
      rw [if_pos hshort, hbyte]
      exact ⟨_, rfl, rfl, sound_cons (SizedBuffer.valid_ofBlob _).1 (by simp)⟩
    · have hbyte : Codec.u8.get rest = some ((leValue (rest.take 1)).toUInt8, rest.drop 1) :=
        if_neg hshort
      rw [if_neg hshort, memcpy?, if_pos (not_lt.mp hshort), hbyte]
      refine ⟨_, rfl, rfl, ?_, ?_⟩
      · simp [Valid, buffers, SizedBuffer.valid_ofBlob]
      · show ((SizedBuffer.ofBlob token).content, _) = _
        rw [SizedBuffer.content_ofBlob]
  · rw [hread, hget, Option.bind_some]
    dsimp only
    rw [if_pos errorInvalid_ne]
    exact ⟨_, rfl, rfl, sound_cons (SizedBuffer.sound_of_none hbuf) (by simp)⟩

theorem enrollRequest_deserialize {b : EnrollRequest} (h : enrollRequest.Sound b)
    (payload : Bytes) : ∃ r, b.nonErrorDeserialize payload = some r ∧
      enrollRequest.ReadAs (enrollRequest.format.get payload) r := by
  have hprod : enrollRequest.format.get payload = ((Codec.blob 4).get payload).bind fun p =>
    (((Codec.blob 4).get p.2).bind fun q => ((Codec.blob 4).get q.2).map fun r =>
      ((q.1, r.1), r.2)).map fun q => ((p.1, q.1), q.2) := rfl
  rw [EnrollRequest.nonErrorDeserialize, hprod,
    SizedBuffer.wipe_eq (h b.providedPassword (by simp [buffers])), Option.bind_some,
    SizedBuffer.wipe_eq (h b.enrolledPassword (by simp [buffers])), Option.bind_some,
    SizedBuffer.wipe_eq (h b.passwordHandle (by simp [buffers])), Option.bind_some]
  dsimp only
  rcases readFromBuffer_cases payload (SizedBuffer.buffer_reset b.providedPassword) with
    ⟨provided, rest, hget, hread⟩ | ⟨hget, rest, buf, hbuf, hread⟩
  · rw [hread, hget, Option.bind_some, Option.bind_some]
    dsimp only
    rw [if_neg (not_not.mpr rfl)]
    rcases readFromBuffer_cases rest (SizedBuffer.buffer_reset b.enrolledPassword) with
      ⟨enrolled, rest', hget', hread'⟩ | ⟨hget', rest', buf, hbuf, hread'⟩
    · rw [hread', hget', Option.bind_some, Option.bind_some]
      dsimp only
      rw [if_neg (not_not.mpr rfl)]
      rcases readFromBuffer_cases rest' (SizedBuffer.buffer_reset b.passwordHandle) with
        ⟨handle, rest'', hget'', hread''⟩ | ⟨hget'', rest'', buf, hbuf, hread''⟩
      · rw [hread'', hget'']
        refine ⟨_, rfl, rfl, ?_, ?_⟩
        · simp [Valid, buffers, SizedBuffer.valid_ofBlob]
        · show ((SizedBuffer.ofBlob provided).content, (SizedBuffer.ofBlob enrolled).content,
            (SizedBuffer.ofBlob handle).content) = _
          rw [SizedBuffer.content_ofBlob, SizedBuffer.content_ofBlob, SizedBuffer.content_ofBlob]
      · rw [hread'', hget'']
        exact ⟨_, rfl, rfl, sound_cons (SizedBuffer.valid_ofBlob _).1
          (sound_cons (SizedBuffer.valid_ofBlob _).1
            (sound_cons (SizedBuffer.sound_of_none hbuf) (by simp)))⟩
    · rw [hread', hget', Option.bind_some]
      dsimp only
      rw [if_pos errorInvalid_ne]
      exact ⟨_, rfl, rfl, sound_cons (SizedBuffer.valid_ofBlob _).1
        (sound_cons (SizedBuffer.sound_of_none hbuf)
          (sound_cons (SizedBuffer.sound_reset _) (by simp)))⟩
  · rw [hread, hget, Option.bind_some]
    dsimp only
    rw [if_pos errorInvalid_ne]
    exact ⟨_, rfl, rfl, sound_cons (SizedBuffer.sound_of_none hbuf)
      (sound_cons (SizedBuffer.sound_reset _)
        (sound_cons (SizedBuffer.sound_reset _) (by simp)))⟩

theorem enrollResponse_deserialize (b : EnrollResponse) (payload : Bytes) :
    ∃ r, b.nonErrorDeserialize payload = some r ∧
      enrollResponse.ReadAs (enrollResponse.format.get payload) r := by
  rw [EnrollResponse.nonErrorDeserialize,
    show enrollResponse.format.get payload = (Codec.blob 4).get payload from rfl]
  rcases readFromBuffer_cases payload (SizedBuffer.buffer_reset b.enrolledPasswordHandle) with
    ⟨handle, rest, hget, hread⟩ | ⟨hget, rest, buf, hbuf, hread⟩
  · rw [hread, hget]
    refine ⟨_, rfl, rfl, ?_, ?_⟩
    · simp [Valid, buffers, SizedBuffer.valid_ofBlob]
    · exact SizedBuffer.content_ofBlob handle
  · rw [hread, hget]
    exact ⟨_, rfl, rfl, sound_cons (SizedBuffer.sound_of_none hbuf) (by simp)⟩

/-- The virtual function accepts exactly the payloads that begin with the format of
    something, reads that, and stays inside the payload and the allocations. -/
theorem hooks_deserialize (h : k.Sound b) (payload : Bytes) :
    ∃ r, k.hooks.nonErrorDeserialize b payload = some r ∧
      k.ReadAs (k.format.get payload) r := by
  cases k with
  | verifyRequest => exact verifyRequest_deserialize (h _ (by simp [buffers])) payload
  | verifyResponse => exact verifyResponse_deserialize b payload
  | enrollRequest => exact enrollRequest_deserialize h payload
  | enrollResponse => exact enrollResponse_deserialize b payload

/-! ## Setters and destructors -/

/-- The setter of a response; requests have none. -/
def store : (k : MessageKind) → k.Body → SizedBuffer → k.Body
  | verifyRequest, m, _ => m
  | verifyResponse, m, buf => VerifyResponse.setVerificationToken m buf
  | enrollRequest, m, _ => m
  | enrollResponse, m, buf => EnrollResponse.setEnrolledPasswordHandle m buf

/-- The destructor; those of the responses touch no byte of a buffer. -/
def destroy : (k : MessageKind) → k.Body → Option k.Body
  | verifyRequest, m => VerifyRequest.destroy m
  | verifyResponse, m => some m
  | enrollRequest, m => EnrollRequest.destroy m
  | enrollResponse, m => some m

theorem store_sound (h : k.Sound b) {buf : SizedBuffer} (hbuf : buf.Valid) :
    k.Sound (k.store b buf) := by
  cases k with
  | verifyRequest => exact h
  | verifyResponse => exact sound_cons hbuf.1 (by simp)
  | enrollRequest => exact h
  | enrollResponse => exact sound_cons hbuf.1 (by simp)

theorem store_valid (h : k.Valid b) {buf : SizedBuffer} (hbuf : buf.Valid) :
    k.Valid (k.store b buf) := by
  cases k with
  | verifyRequest => exact h
  | verifyResponse => simpa [Valid, store, buffers, VerifyResponse.setVerificationToken] using hbuf
  | enrollRequest => exact h
  | enrollResponse =>
    simpa [Valid, store, buffers, EnrollResponse.setEnrolledPasswordHandle] using hbuf

theorem destroy_isSome (h : k.Sound b) : (k.destroy b).isSome := by
  cases k with
  | verifyRequest =>
    rw [destroy, VerifyRequest.destroy, SizedBuffer.wipe_eq (h _ (by simp [buffers]))]
    rfl
  | verifyResponse => rfl
  | enrollRequest =>
    rw [destroy, EnrollRequest.destroy,
      SizedBuffer.wipe_eq (h b.providedPassword (by simp [buffers])), Option.bind_some,
      SizedBuffer.wipe_eq (h b.enrolledPassword (by simp [buffers])), Option.bind_some,
      SizedBuffer.wipe_eq (h b.passwordHandle (by simp [buffers]))]
    rfl
  | enrollResponse => rfl

end MessageKind

end Pro5Android.Gatekeeper
