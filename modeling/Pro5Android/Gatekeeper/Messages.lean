import Pro5Android.Lib.Codec
import Mathlib.Tactic.Basic

/-!
# Messages of the gatekeeper

The four messages of `gatekeeper_messages.cpp` and what `Serialize` and
`Deserialize` do with them. Memory is explicit: a `SizedBuffer` has the bytes that
were allocated for it, or none, beside the length it states, and an access
outside an allocation or a payload is `none`. A pointer into a payload is what
is left of it there.

Results:
* `appendToBuffer_eq`: a buffer is written as its length and its bytes.
* `readFromBuffer_cases`: a length and that many bytes are read where they are
  there; otherwise reading fails inside the payload.
-/

namespace Pro5Android.Gatekeeper

open Lib

abbrev Bytes := List UInt8

/-- `gatekeeper_error_t`; `Deserialize` casts any word of a header to it. -/
abbrev GatekeeperError := UInt32

def errorNone : GatekeeperError := 0
def errorInvalid : GatekeeperError := 1
def errorRetry : GatekeeperError := 2
def errorUnknown : GatekeeperError := 3

/-- `memcpy` of the first `n` bytes of a region. -/
def memcpy? (region : Bytes) (n : ℕ) : Option Bytes :=
  if n ≤ region.length then some (region.take n) else none

/-! ## Sized buffers -/

/-- `SizedBuffer`: the bytes allocated, and the length. -/
structure SizedBuffer where
  buffer : Option Bytes
  length : UInt32
  deriving DecidableEq, Repr

namespace SizedBuffer

/-- The buffer of `SizedBuffer()`, and of one cleared by `memset_s`. -/
def empty : SizedBuffer := ⟨none, 0⟩

/-- `buffer.reset()` behind the test for a null pointer. -/
def reset (b : SizedBuffer) : SizedBuffer := { b with buffer := none }

/-- `memset_s(buffer.get(), 0, length)` and then `buffer.reset()`. -/
def wipe (b : SizedBuffer) : Option SizedBuffer :=
  match b.buffer with
  | none => some b
  | some bytes => if b.length.toNat ≤ bytes.length then some b.reset else none

/-- The allocation is as long as the buffer says, where there is one. -/
def Sound (b : SizedBuffer) : Prop := ∀ bytes, b.buffer = some bytes → bytes.length = b.length.toNat

/-- It is there, too, unless the length is zero. -/
def Valid (b : SizedBuffer) : Prop := b.Sound ∧ (b.length ≠ 0 → b.buffer ≠ none)

/-- The bytes of the buffer. -/
def content (b : SizedBuffer) : Codec.Blob 4 :=
  ⟨(b.buffer.getD []).take b.length.toNat, by
    have := b.length.toNat_lt
    rw [List.length_take]
    omega⟩

/-- The buffer `read_from_buffer` makes. -/
def ofBlob (bytes : Codec.Blob 4) : SizedBuffer :=
  ⟨if bytes.1.length = 0 then none else some bytes.1, bytes.1.length.toUInt32⟩

theorem sound_of_none {b : SizedBuffer} (h : b.buffer = none) : b.Sound := by
  intro bytes hb
  rw [h] at hb
  cases hb

theorem coe_content (b : SizedBuffer) :
    b.content.1 = (b.buffer.getD []).take b.length.toNat := rfl

theorem length_content {b : SizedBuffer} (h : b.Valid) : b.content.1.length = b.length.toNat := by
  rw [coe_content, List.length_take]
  cases hb : b.buffer with
  | none =>
    have hzero : b.length = 0 := by
      by_contra hne
      exact h.2 hne hb
    simp [hzero]
  | some bytes => simp [h.1 bytes hb]

theorem valid_ofBlob (bytes : Codec.Blob 4) : (ofBlob bytes).Valid := by
  rw [Valid, Sound, ofBlob]
  constructor
  · intro bytes' hb
    dsimp only at hb ⊢
    split_ifs at hb
    rw [toNat_toUInt32 bytes.2, Option.some.inj hb]
  · intro hne
    dsimp only at hne ⊢
    rw [if_neg]
    · exact Option.some_ne_none _
    · intro hzero
      exact hne (by rw [hzero]; rfl)

@[simp] theorem content_ofBlob (bytes : Codec.Blob 4) : (ofBlob bytes).content = bytes := by
  apply Subtype.ext
  rw [content, ofBlob]
  dsimp only
  rw [toNat_toUInt32 bytes.2]
  split_ifs with hzero
  · rw [hzero, List.take_zero, List.length_eq_zero_iff.mp hzero]
  · rw [Option.getD_some, List.take_length]

theorem buffer_reset (b : SizedBuffer) : b.reset.buffer = none := rfl

@[simp] theorem sound_reset (b : SizedBuffer) : b.reset.Sound := sound_of_none rfl

theorem wipe_eq {b : SizedBuffer} (h : b.Sound) : b.wipe = some b.reset := by
  obtain ⟨buffer, length⟩ := b
  cases buffer with
  | none => rfl
  | some bytes => exact if_pos (h bytes rfl).ge

end SizedBuffer

/-- `serialized_buffer_size` (lines 33–35). -/
def serializedBufferSize (buf : SizedBuffer) : UInt32 := 4 + buf.length

/-- `append_to_buffer` (lines 37–44) behind the bytes already written. -/
def appendToBuffer (written : Bytes) (toAppend : SizedBuffer) : Option Bytes :=
  let written := written ++ leBytes 4 toAppend.length.toNat
  if toAppend.length ≠ 0 then
    match toAppend.buffer with
    | none => none
    | some source => (memcpy? source toAppend.length.toNat).map (written ++ ·)
  else some written

/-- `read_from_buffer` (lines 46–61). -/
def readFromBuffer (payload : Bytes) (target : SizedBuffer) :
    Option (GatekeeperError × Bytes × SizedBuffer) :=
  if payload.length < 4 then some (errorInvalid, payload, target)
  else
    (memcpy? payload 4).bind fun word =>
      let target := { target with length := (leValue word).toUInt32 }
      let payload := payload.drop 4
      if target.length ≠ 0 then
        if payload.length < target.length.toNat then some (errorInvalid, payload, target)
        else
          (memcpy? payload target.length.toNat).map fun bytes =>
            (errorNone, payload.drop target.length.toNat, { target with buffer := some bytes })
      else some (errorNone, payload, target)

theorem appendToBuffer_eq {b : SizedBuffer} (h : b.Valid) (written : Bytes) :
    appendToBuffer written b = some (written ++ (Codec.blob 4).put b.content) := by
  have hput : (Codec.blob 4).put b.content = leBytes 4 b.length.toNat ++ b.content.1 := by
    rw [← SizedBuffer.length_content h]
    rfl
  rw [appendToBuffer, hput]
  split_ifs with hlen
  · cases hb : b.buffer with
    | none => exact absurd hb (h.2 hlen)
    | some source =>
      have hsource := h.1 source hb
      dsimp only
      rw [memcpy?, if_pos hsource.ge, Option.map_some, SizedBuffer.coe_content, hb,
        Option.getD_some, List.append_assoc]
  · have hzero : b.length = 0 := not_not.mp hlen
    have hnil : b.content.1 = [] := by
      rw [← List.length_eq_zero_iff, SizedBuffer.length_content h, hzero]
      rfl
    rw [hnil, List.append_nil]

theorem serializedBufferSize_eq {b : SizedBuffer} (h : b.Valid) :
    serializedBufferSize b = ((Codec.blob 4).put b.content).length.toUInt32 := by
  have hlen : ((Codec.blob 4).put b.content).length = 4 + b.length.toNat := by
    show (leBytes 4 _ ++ _).length = _
    rw [List.length_append, length_leBytes, SizedBuffer.length_content h]
  apply UInt32.toNat_inj.mp
  rw [hlen, serializedBufferSize, UInt32.toNat_add, Nat.toUInt32, UInt32.toNat_ofNat']
  rfl

/-- `read_from_buffer` into a buffer that was reset reads a length and that many
    bytes where they are there, and fails otherwise. -/
theorem readFromBuffer_cases (payload : Bytes) {target : SizedBuffer} (h : target.buffer = none) :
    (∃ bytes rest, (Codec.blob 4).get payload = some (bytes, rest) ∧
      readFromBuffer payload target = some (errorNone, rest, SizedBuffer.ofBlob bytes)) ∨
    ((Codec.blob 4).get payload = none ∧ ∃ rest buf, buf.buffer = none ∧
      readFromBuffer payload target = some (errorInvalid, rest, buf)) := by
  rw [readFromBuffer]
  by_cases hshort : payload.length < 4
  · rw [if_pos hshort]
    exact .inr ⟨dif_pos (.inl hshort), _, _, h, rfl⟩
  have hword := toNat_toUInt32 (leValue_take_lt (not_lt.mp hshort))
  rw [if_neg hshort, memcpy?, if_pos (not_lt.mp hshort), Option.bind_some]
  dsimp only
  rw [hword]
  by_cases hlong : (payload.drop 4).length < leValue (payload.take 4)
  · have hne : (leValue (payload.take 4)).toUInt32 ≠ 0 := by
      intro hzero
      rw [hzero] at hword
      rw [← hword] at hlong
      exact absurd hlong (Nat.not_lt_zero _)
    rw [if_pos hne, if_pos hlong]
    exact .inr ⟨dif_pos (.inr hlong), _, _, by exact h, rfl⟩
  have hget : (Codec.blob 4).get payload = some (⟨(payload.drop 4).take
      (leValue (payload.take 4)), _⟩, (payload.drop 4).drop (leValue (payload.take 4))) :=
    dif_neg (not_or.mpr ⟨hshort, hlong⟩)
  refine .inl ⟨_, _, hget, ?_⟩
  have htake : ((payload.drop 4).take (leValue (payload.take 4))).length =
      leValue (payload.take 4) := by
    rw [List.length_take]
    omega
  by_cases hzero : leValue (payload.take 4) = 0
  · rw [if_neg (by simp [hzero])]
    simp only [SizedBuffer.ofBlob, hzero, h, List.drop_zero, List.take_zero, List.length_nil,
      if_true]
  · have hne : (leValue (payload.take 4)).toUInt32 ≠ 0 := by
      intro hword'
      rw [hword'] at hword
      exact hzero hword.symm
    rw [if_pos hne, if_neg hlong, memcpy?, if_pos (not_lt.mp hlong), Option.map_some]
    simp only [SizedBuffer.ofBlob, htake, if_neg hzero]

/-! ## The fields of the four messages -/

structure VerifyRequest where
  challenge : UInt64
  passwordHandle : SizedBuffer
  providedPassword : SizedBuffer

/-- `request_reenroll` is the byte of its representation. -/
structure VerifyResponse where
  authToken : SizedBuffer
  requestReenroll : UInt8

structure EnrollRequest where
  passwordHandle : SizedBuffer
  enrolledPassword : SizedBuffer
  providedPassword : SizedBuffer

structure EnrollResponse where
  enrolledPasswordHandle : SizedBuffer

namespace VerifyRequest

/-- Lines 161–164. -/
def nonErrorSerializedSize (m : VerifyRequest) : UInt32 :=
  8 + serializedBufferSize m.passwordHandle + serializedBufferSize m.providedPassword

/-- Lines 166–171. -/
def nonErrorSerialize (m : VerifyRequest) (buffer : Bytes) : Option Bytes :=
  (appendToBuffer (buffer ++ leBytes 8 m.challenge.toNat) m.passwordHandle).bind
    (appendToBuffer · m.providedPassword)

/-- Lines 173–196. -/
def nonErrorDeserialize (m : VerifyRequest) (payload : Bytes) :
    Option (GatekeeperError × VerifyRequest) :=
  m.providedPassword.wipe.bind fun providedPassword =>
    let m := { m with passwordHandle := m.passwordHandle.reset, providedPassword }
    if payload.length < 8 then some (errorInvalid, m)
    else
      (memcpy? payload 8).bind fun word =>
        let m := { m with challenge := (leValue word).toUInt64 }
        (readFromBuffer (payload.drop 8) m.passwordHandle).bind fun (error, payload, buf) =>
          let m := { m with passwordHandle := buf }
          if error ≠ errorNone then some (error, m)
          else
            (readFromBuffer payload m.providedPassword).map fun (error, _, buf) =>
              (error, { m with providedPassword := buf })

/-- `~VerifyRequest` (lines 150–159). -/
def destroy (m : VerifyRequest) : Option VerifyRequest :=
  m.providedPassword.wipe.map fun providedPassword =>
    { m with passwordHandle := m.passwordHandle.reset, providedPassword }

end VerifyRequest

namespace VerifyResponse

/-- `SetVerificationToken` (lines 216–219). -/
def setVerificationToken (m : VerifyResponse) (authToken : SizedBuffer) : VerifyResponse :=
  { m with authToken }

/-- Lines 221–223. -/
def nonErrorSerializedSize (m : VerifyResponse) : UInt32 := serializedBufferSize m.authToken + 1

/-- Lines 225–228. -/
def nonErrorSerialize (m : VerifyResponse) (buffer : Bytes) : Option Bytes :=
  (appendToBuffer buffer m.authToken).map (· ++ leBytes 1 m.requestReenroll.toNat)

/-- Lines 230–246. -/
def nonErrorDeserialize (m : VerifyResponse) (payload : Bytes) :
    Option (GatekeeperError × VerifyResponse) :=
  (readFromBuffer payload m.authToken.reset).bind fun (error, payload, buf) =>
    let m := { m with authToken := buf }
    if error ≠ errorNone then some (error, m)
    else if payload.length < 1 then some (errorInvalid, m)
    else
      (memcpy? payload 1).map fun byte =>
        (errorNone, { m with requestReenroll := (leValue byte).toUInt8 })

end VerifyResponse

namespace EnrollRequest

/-- Lines 294–297. -/
def nonErrorSerializedSize (m : EnrollRequest) : UInt32 :=
  serializedBufferSize m.providedPassword + serializedBufferSize m.enrolledPassword +
    serializedBufferSize m.passwordHandle

/-- Lines 299–303. -/
def nonErrorSerialize (m : EnrollRequest) (buffer : Bytes) : Option Bytes :=
  ((appendToBuffer buffer m.providedPassword).bind (appendToBuffer · m.enrolledPassword)).bind
    (appendToBuffer · m.passwordHandle)

/-- Lines 305–333. -/
def nonErrorDeserialize (m : EnrollRequest) (payload : Bytes) :
    Option (GatekeeperError × EnrollRequest) :=
  m.providedPassword.wipe.bind fun providedPassword =>
  m.enrolledPassword.wipe.bind fun enrolledPassword =>
  m.passwordHandle.wipe.bind fun passwordHandle =>
    let m : EnrollRequest := { passwordHandle, enrolledPassword, providedPassword }
    (readFromBuffer payload m.providedPassword).bind fun (error, payload, buf) =>
      let m := { m with providedPassword := buf }
      if error ≠ errorNone then some (error, m)
      else
        (readFromBuffer payload m.enrolledPassword).bind fun (error, payload, buf) =>
          let m := { m with enrolledPassword := buf }
          if error ≠ errorNone then some (error, m)
          else
            (readFromBuffer payload m.passwordHandle).map fun (error, _, buf) =>
              (error, { m with passwordHandle := buf })

/-- `~EnrollRequest` (lines 277–292). -/
def destroy (m : EnrollRequest) : Option EnrollRequest :=
  m.providedPassword.wipe.bind fun providedPassword =>
  m.enrolledPassword.wipe.bind fun enrolledPassword =>
  m.passwordHandle.wipe.map fun passwordHandle =>
    { passwordHandle, enrolledPassword, providedPassword }

end EnrollRequest

namespace EnrollResponse

/-- `SetEnrolledPasswordHandle` (lines 351–354). -/
def setEnrolledPasswordHandle (m : EnrollResponse) (enrolledPasswordHandle : SizedBuffer) :
    EnrollResponse :=
  { m with enrolledPasswordHandle }

/-- Lines 356–358. -/
def nonErrorSerializedSize (m : EnrollResponse) : UInt32 :=
  serializedBufferSize m.enrolledPasswordHandle

/-- Lines 360–362. -/
def nonErrorSerialize (m : EnrollResponse) (buffer : Bytes) : Option Bytes :=
  appendToBuffer buffer m.enrolledPasswordHandle

/-- Lines 364–370. -/
def nonErrorDeserialize (m : EnrollResponse) (payload : Bytes) :
    Option (GatekeeperError × EnrollResponse) :=
  (readFromBuffer payload m.enrolledPasswordHandle.reset).map fun (error, _, buf) =>
    (error, { m with enrolledPasswordHandle := buf })

end EnrollResponse

end Pro5Android.Gatekeeper
