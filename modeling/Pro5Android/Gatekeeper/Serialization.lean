import Pro5Android.Gatekeeper.Wire
import Pro5Android.Lib.Runs

/-!
# `Serialize` and `Deserialize`

The part of `gatekeeper_messages.cpp` that all four messages share: a header with
the error and the user id, and behind it the payload, the retry timeout of
`ERROR_RETRY`, or nothing.

Results:
* `deserialize_serialize`: a message that is written into a buffer that is large
  enough is read back by any object, whatever that object held before.
* `serialize_inside_iff`: when `Serialize` stays inside the buffer it is given.
* `uses_consistent`: an object of any kind can be filled, failed and emptied in any
  order; no access leaves an allocation or a payload, and what is accepted is the
  wire form of what is then in the object.
-/

namespace Pro5Android.Gatekeeper

open Lib

/-- `GateKeeperMessage` with the fields of its subclass. -/
structure GateKeeperMessage (k : MessageKind) where
  error : GatekeeperError
  userId : UInt32
  retryTimeout : UInt32
  body : k.Body

namespace GateKeeperMessage

variable {k : MessageKind}

/-- Lines 64–75. -/
def getSerializedSize (m : GateKeeperMessage k) : UInt32 :=
  if m.error = errorNone then 8 + k.hooks.nonErrorSerializedSize m.body
  else if m.error = errorRetry then 8 + 4
  else 8

/-- The header that `Serialize` stores. -/
def header (m : GateKeeperMessage k) : Bytes :=
  leBytes 4 m.error.toNat ++ leBytes 4 m.userId.toNat

/-- Lines 77–103, for a buffer with `capacity` bytes before its end: the value
    returned, and the bytes stored from its start on. -/
def serialize (m : GateKeeperMessage k) (capacity : ℕ) : Option (UInt32 × Bytes) :=
  if m.getSerializedSize.toNat > capacity then some (0, [])
  else if m.error ≠ errorNone then
    if 8 > capacity then some (0, [])
    else if m.error = errorRetry then some (8 + 4, m.header ++ leBytes 4 m.retryTimeout.toNat)
    else some (8, m.header)
  else if 8 + (k.hooks.nonErrorSerializedSize m.body).toNat > capacity then some (0, [])
  else
    (k.hooks.nonErrorSerialize m.body m.header).map fun written =>
      (8 + k.hooks.nonErrorSerializedSize m.body, written)

/-- Lines 110–125: what stands behind a header with this error. -/
def deserializePayload (m : GateKeeperMessage k) (headerError : UInt32) (payload : Bytes) :
    Option (GatekeeperError × GateKeeperMessage k) :=
  if headerError = errorNone then
    (k.hooks.nonErrorDeserialize m.body payload).map fun (error, body) =>
      (error, { m with error, body })
  else
    let m := { m with error := headerError }
    if m.error = errorRetry then
      if 0 < payload.length then
        if 4 ≤ payload.length then
          (memcpy? payload 4).map fun word =>
            (m.error, { m with retryTimeout := (leValue word).toUInt32 })
        else some (errorInvalid, { m with error := errorInvalid })
      else some (m.error, { m with retryTimeout := 0 })
    else some (m.error, m)

/-- Lines 105–128. -/
def deserialize (m : GateKeeperMessage k) (payload : Bytes) :
    Option (GatekeeperError × GateKeeperMessage k) :=
  if payload.length < 8 then some (errorInvalid, m)
  else
    (memcpy? payload 8).bind fun header =>
      let m := { m with userId := (leValue (header.drop 4)).toUInt32 }
      m.deserializePayload (leValue (header.take 4)).toUInt32 (payload.drop 8)

/-- `SetRetryTimeout` (lines 130–133). -/
def setRetryTimeout (m : GateKeeperMessage k) (retryTimeout : UInt32) : GateKeeperMessage k :=
  { m with retryTimeout, error := errorRetry }

/-- The bytes of a message. -/
def wire (m : GateKeeperMessage k) : Bytes :=
  m.header ++
    if m.error = errorNone then k.payload m.body
    else if m.error = errorRetry then leBytes 4 m.retryTimeout.toNat
    else []

/-- What is in a message that reports no error can be written. -/
def Consistent (m : GateKeeperMessage k) : Prop :=
  k.Sound m.body ∧ (m.error = errorNone → k.Valid m.body)

/-- The payload of a message that reports no error is shorter than 4 GiB. -/
def Fits (m : GateKeeperMessage k) : Prop :=
  m.error = errorNone → (k.payload m.body).length < 2 ^ 32

@[simp] theorem length_header (m : GateKeeperMessage k) : m.header.length = 8 := by
  rw [header, List.length_append, length_leBytes, length_leBytes]

/-- A request with two bytes of handle and one of password. -/
def sampleRequest : GateKeeperMessage .verifyRequest :=
  ⟨errorNone, 10, 0, ⟨7, ⟨some [1, 2], 2⟩, ⟨some [9], 1⟩⟩⟩

/-- An object as a constructor without arguments leaves it. -/
def emptyRequest : GateKeeperMessage .verifyRequest :=
  ⟨errorNone, 0, 0, ⟨0, SizedBuffer.empty, SizedBuffer.empty⟩⟩

theorem consistent_of_valid {m : GateKeeperMessage k} (h : k.Valid m.body) : m.Consistent :=
  ⟨h.sound, fun _ => h⟩

theorem sampleRequest_consistent : sampleRequest.Consistent := by
  apply consistent_of_valid
  simp [sampleRequest, MessageKind.Valid, MessageKind.buffers, SizedBuffer.Valid,
    SizedBuffer.Sound]

theorem emptyRequest_consistent : emptyRequest.Consistent := by
  apply consistent_of_valid
  simp [emptyRequest, MessageKind.Valid, MessageKind.buffers, SizedBuffer.Valid,
    SizedBuffer.Sound, SizedBuffer.empty]

/-! ## Writing -/

theorem wire_none {m : GateKeeperMessage k} (h : m.error = errorNone) :
    m.wire = m.header ++ k.payload m.body := by
  rw [wire, if_pos h]

theorem wire_retry {m : GateKeeperMessage k} (h : m.error = errorRetry) :
    m.wire = m.header ++ leBytes 4 m.retryTimeout.toNat := by
  rw [wire, if_neg (by rw [h]; decide), if_pos h]

theorem wire_failed {m : GateKeeperMessage k} (hnone : m.error ≠ errorNone)
    (hretry : m.error ≠ errorRetry) : m.wire = m.header := by
  rw [wire, if_neg hnone, if_neg hretry, List.append_nil]

theorem serialize_eq {m : GateKeeperMessage k} (h : m.Consistent) (hfits : m.Fits)
    (capacity : ℕ) : m.serialize capacity =
      if m.wire.length ≤ capacity then some (m.wire.length.toUInt32, m.wire)
      else some (0, []) := by
  rw [serialize, getSerializedSize]
  by_cases hnone : m.error = errorNone
  · have hsize := MessageKind.hooks_size (h.2 hnone)
    have hnat : (k.hooks.nonErrorSerializedSize m.body).toNat = (k.payload m.body).length := by
      rw [hsize, toNat_toUInt32 (hfits hnone)]
    have hcount : (8 + (k.payload m.body).length).toUInt32 =
        8 + (k.payload m.body).length.toUInt32 := UInt32.ofNat_add 8 _
    have hle : (8 + k.hooks.nonErrorSerializedSize m.body).toNat ≤
        8 + (k.payload m.body).length := by
      rw [UInt32.toNat_add, hnat]
      exact Nat.mod_le _ _
    rw [if_pos hnone, if_neg (not_not.mpr hnone), MessageKind.hooks_serialize (h.2 hnone),
      Option.map_some, hnat, wire_none hnone, List.length_append, length_header]
    by_cases hroom : 8 + (k.payload m.body).length ≤ capacity
    · rw [if_neg (by omega), if_neg (by omega), if_pos hroom, hsize, hcount]
    · rw [if_neg hroom, if_pos (show 8 + (k.payload m.body).length > capacity by omega), ite_self]
  rw [if_neg hnone, if_pos hnone]
  by_cases hretry : m.error = errorRetry
  · have h12 : (8 + 4 : UInt32).toNat = 12 := rfl
    rw [if_pos hretry, if_pos hretry, h12, wire_retry hretry, List.length_append, length_header,
      length_leBytes]
    by_cases hroom : 8 + 4 ≤ capacity
    · rw [if_neg (by omega), if_neg (by omega), if_pos hroom]
      rfl
    · rw [if_pos (by omega), if_neg hroom]
  · have h8 : (8 : UInt32).toNat = 8 := rfl
    rw [if_neg hretry, if_neg hretry, h8, wire_failed hnone hretry, length_header]
    by_cases hroom : 8 ≤ capacity
    · rw [if_neg (by omega), if_neg (by omega), if_pos hroom]
      rfl
    · rw [if_pos (by omega), if_neg hroom]

/-- `Serialize` stores nothing past the end of the buffer, whatever its size, exactly
    where the payload is shorter than 4 GiB. -/
theorem serialize_inside_iff {m : GateKeeperMessage k} (h : m.Consistent) :
    (∀ capacity, ∃ n bytes, m.serialize capacity = some (n, bytes) ∧ bytes.length ≤ capacity) ↔
      m.Fits := by
  constructor
  · intro hinside hnone
    by_contra hlarge
    obtain ⟨n, bytes, hser, hlen⟩ :=
      hinside (8 + (k.hooks.nonErrorSerializedSize m.body).toNat)
    have hsmall : ¬ (8 + k.hooks.nonErrorSerializedSize m.body).toNat >
        8 + (k.hooks.nonErrorSerializedSize m.body).toNat := by
      rw [UInt32.toNat_add]
      exact not_lt.mpr (Nat.mod_le _ _)
    rw [serialize, getSerializedSize, if_pos hnone, if_neg hsmall, if_neg (not_not.mpr hnone),
      if_neg (lt_irrefl _), MessageKind.hooks_serialize (h.2 hnone), Option.map_some] at hser
    obtain ⟨-, rfl⟩ := Prod.mk.inj (Option.some.inj hser)
    rw [List.length_append, length_header] at hlen
    have := (k.hooks.nonErrorSerializedSize m.body).toNat_lt
    omega
  · intro hfits capacity
    rw [serialize_eq h hfits]
    split_ifs with hroom
    · exact ⟨_, _, rfl, hroom⟩
    · exact ⟨_, _, rfl, Nat.zero_le _⟩

theorem serialize_inside_sample :
    (∀ capacity, ∃ n bytes, sampleRequest.serialize capacity = some (n, bytes) ∧
      bytes.length ≤ capacity) ↔ sampleRequest.Fits :=
  serialize_inside_iff sampleRequest_consistent

/-! ## Reading -/

theorem toUInt32_leValue_leBytes (n : UInt32) : (leValue (leBytes 4 n.toNat)).toUInt32 = n := by
  rw [leValue_leBytes n.toNat_lt]
  exact UInt32.ofNat_toNat

theorem deserialize_of_header (m : GateKeeperMessage k) (e u : UInt32) (payload : Bytes) :
    m.deserialize (leBytes 4 e.toNat ++ leBytes 4 u.toNat ++ payload) =
      { m with userId := u }.deserializePayload e payload := by
  have hlen : (leBytes 4 e.toNat ++ leBytes 4 u.toNat).length = 8 := by
    rw [List.length_append, length_leBytes, length_leBytes]
  have hlong : 8 ≤ (leBytes 4 e.toNat ++ leBytes 4 u.toNat ++ payload).length := by
    rw [List.length_append, hlen]
    omega
  rw [deserialize, if_neg (not_lt.mpr hlong), memcpy?, if_pos hlong, List.take_left' hlen,
    Option.bind_some, List.drop_left' hlen, List.take_left' (length_leBytes _ _),
    List.drop_left' (length_leBytes _ _), toUInt32_leValue_leBytes, toUInt32_leValue_leBytes]

/-- A payload that is long enough begins with a header. -/
theorem eq_header_append {payload : Bytes} (h : ¬ payload.length < 8) :
    ∃ e u : UInt32, ∃ rest, payload = leBytes 4 e.toNat ++ leBytes 4 u.toNat ++ rest := by
  have hread : ∀ bs : Bytes, bs.length = 4 → leBytes 4 (leValue bs).toUInt32.toNat = bs := by
    intro bs hbs
    have hlt := leValue_lt bs
    rw [hbs] at hlt
    rw [toNat_toUInt32 hlt, leBytes_leValue hbs]
  refine ⟨(leValue (payload.take 4)).toUInt32, (leValue ((payload.drop 4).take 4)).toUInt32,
    payload.drop 8, ?_⟩
  rw [hread _ (by rw [List.length_take]; omega),
    hread _ (by rw [List.length_take, List.length_drop]; omega), ← List.take_add,
    List.take_append_drop]

/-- A payload that is read as a message without error is that message in wire form, and
    what follows it. In any case the object stays consistent. -/
theorem deserialize_spec {m : GateKeeperMessage k} (h : m.Consistent) (payload : Bytes) :
    ∃ r, m.deserialize payload = some r ∧ r.2.Consistent ∧
      (r.1 = errorNone → r.2.error = errorNone ∧ ∃ rest, payload = r.2.wire ++ rest) := by
  by_cases hshort : payload.length < 8
  · exact ⟨_, if_pos hshort, h, fun hr => absurd hr MessageKind.errorInvalid_ne⟩
  obtain ⟨e, u, tail, rfl⟩ := eq_header_append hshort
  rw [deserialize_of_header, deserializePayload]
  by_cases hnone : e = errorNone
  · obtain ⟨r, hr, hread⟩ := MessageKind.hooks_deserialize h.1 tail
    rw [if_pos hnone, hr]
    refine ⟨_, rfl, ?_⟩
    dsimp only
    cases hget : k.format.get tail with
    | none =>
      rw [hget] at hread
      obtain ⟨herror, hsound⟩ := hread
      refine ⟨⟨hsound, fun he => ?_⟩, fun he => ?_⟩
      all_goals exact absurd (herror.symm.trans he) MessageKind.errorInvalid_ne
    | some p =>
      obtain ⟨c, rest⟩ := p
      rw [hget] at hread
      obtain ⟨herror, hvalid, hcontent⟩ := hread
      refine ⟨⟨hvalid.sound, fun _ => hvalid⟩, fun _ => ⟨herror, rest, ?_⟩⟩
      rw [k.format.put_of_get hget, wire_none (by exact herror), header, MessageKind.payload,
        hcontent, herror, hnone, List.append_assoc, List.append_assoc, List.append_assoc]
  rw [if_neg hnone]
  by_cases hretry : e = errorRetry
  · have hfail : ∀ t, { m with userId := u, error := e, retryTimeout := t }.Consistent :=
      fun t => ⟨h.1, fun he => absurd he hnone⟩
    rw [if_pos hretry]
    split_ifs with hpos h4
    · rw [memcpy?, if_pos h4]
      exact ⟨_, rfl, hfail _, fun he => absurd he hnone⟩
    · exact ⟨_, rfl, ⟨h.1, fun he => absurd he MessageKind.errorInvalid_ne⟩,
        fun he => absurd he MessageKind.errorInvalid_ne⟩
    · exact ⟨_, rfl, hfail _, fun he => absurd he hnone⟩
  · rw [if_neg hretry]
    exact ⟨_, rfl, ⟨h.1, fun he => absurd he hnone⟩, fun he => absurd he hnone⟩

/-- What a message says, apart from the object it is in. -/
def SameAs (m m' : GateKeeperMessage k) : Prop :=
  m'.userId = m.userId ∧ m'.error = m.error ∧
    (m.error = errorNone → k.Valid m'.body ∧ k.content m'.body = k.content m.body) ∧
    (m.error = errorRetry → m'.retryTimeout = m.retryTimeout)

/-- A message of less than 4 GiB written into a buffer that is large enough fills exactly the
    bytes it returns the number of, and any object that reads them, with anything behind
    them, holds that message. -/
theorem deserialize_serialize {m m₀ : GateKeeperMessage k} (h : m.Consistent)
    (hwire : m.wire.length < 2 ^ 32) (h₀ : m₀.Consistent) {capacity : ℕ}
    (hroom : m.wire.length ≤ capacity) (rest : Bytes) :
    ∃ n bytes, m.serialize capacity = some (n, bytes) ∧ n.toNat = bytes.length ∧
      bytes.length ≤ capacity ∧
      ∃ m', m₀.deserialize (bytes ++ rest) = some (m.error, m') ∧ m.SameAs m' := by
  have hfits : m.Fits := fun hnone => by
    rw [wire_none hnone, List.length_append] at hwire
    omega
  refine ⟨_, m.wire, by rw [serialize_eq h hfits, if_pos hroom], toNat_toUInt32 hwire, hroom, ?_⟩
  by_cases hnone : m.error = errorNone
  · rw [wire_none hnone, header, List.append_assoc, deserialize_of_header, deserializePayload,
      if_pos hnone]
    obtain ⟨⟨error, body⟩, hr, hread⟩ :=
      MessageKind.hooks_deserialize (b := m₀.body) h₀.1 (k.payload m.body ++ rest)
    rw [MessageKind.payload, k.format.get_put] at hread
    obtain ⟨herror, hvalid, hcontent⟩ := hread
    dsimp only at herror
    rw [hr, herror, hnone]
    exact ⟨_, rfl, rfl, hnone.symm, fun _ => ⟨hvalid, hcontent⟩,
      fun he => absurd (hnone.symm.trans he) (by decide)⟩
  by_cases hretry : m.error = errorRetry
  · have hlen : (leBytes 4 m.retryTimeout.toNat).length = 4 := length_leBytes _ _
    have h4 : 4 ≤ (leBytes 4 m.retryTimeout.toNat ++ rest).length := by
      rw [List.length_append, hlen]
      omega
    rw [wire_retry hretry, header, List.append_assoc, deserialize_of_header, deserializePayload,
      if_neg hnone, if_pos hretry, if_pos (by omega), if_pos h4, memcpy?, if_pos h4,
      List.take_left' hlen, Option.map_some, toUInt32_leValue_leBytes]
    exact ⟨_, rfl, rfl, rfl, fun he => absurd he hnone, fun _ => rfl⟩
  · rw [wire_failed hnone hretry, header, deserialize_of_header, deserializePayload, if_neg hnone,
      if_neg hretry]
    exact ⟨_, rfl, rfl, rfl, fun he => absurd he hnone, fun he => absurd he hretry⟩

theorem deserialize_serialize_sample : ∃ n bytes,
    sampleRequest.serialize 64 = some (n, bytes) ∧ n.toNat = bytes.length ∧ bytes.length ≤ 64 ∧
      ∃ m', emptyRequest.deserialize (bytes ++ [0]) = some (errorNone, m') ∧
        sampleRequest.SameAs m' :=
  deserialize_serialize sampleRequest_consistent (by decide) emptyRequest_consistent (by decide) [0]

/-! ## The life of an object -/

/-- What is done with an object between its construction and its destruction. -/
inductive Use
  | deserialize (payload : Bytes)
  | setRetryTimeout (retryTimeout : UInt32)
  | fail (error : GatekeeperError)
  | store (buf : SizedBuffer)

/-- `ERROR_NONE` is not assigned, and a buffer that is stored has its bytes. -/
def Use.Legal : Use → Prop
  | .deserialize _ => True
  | .setRetryTimeout _ => True
  | .fail error => error ≠ errorNone
  | .store buf => buf.Valid

def use (m : GateKeeperMessage k) : Use → Option (GateKeeperMessage k)
  | .deserialize payload => (m.deserialize payload).map Prod.snd
  | .setRetryTimeout retryTimeout => some (m.setRetryTimeout retryTimeout)
  | .fail error => some { m with error }
  | .store buf => some { m with body := k.store m.body buf }

theorem use_consistent {m : GateKeeperMessage k} (h : m.Consistent) {u : Use} (hlegal : u.Legal) :
    ∃ m', m.use u = some m' ∧ m'.Consistent := by
  cases u with
  | deserialize payload =>
    obtain ⟨r, hr, hcons, -⟩ := deserialize_spec h payload
    exact ⟨r.2, by rw [use, hr]; rfl, hcons⟩
  | setRetryTimeout retryTimeout =>
    exact ⟨_, rfl, h.1, fun he => absurd he (show errorRetry ≠ errorNone by decide)⟩
  | fail error => exact ⟨_, rfl, h.1, fun he => absurd he hlegal⟩
  | store buf =>
    exact ⟨_, rfl, MessageKind.store_sound h.1 hlegal, fun he =>
      MessageKind.store_valid (h.2 he) hlegal⟩

/-- Whatever is done with an object, and in whatever order, no access leaves a payload or an
    allocation, not in its destructor either; a payload it accepts begins with the wire form
    of what it then holds, and what it holds is written as that where there is room. -/
theorem uses_consistent {m₀ : GateKeeperMessage k} (h₀ : m₀.Consistent) {uses : List Use}
    (hlegal : ∀ u ∈ uses, u.Legal) :
    ∃ m, uses.foldlM use m₀ = some m ∧ (k.destroy m.body).isSome ∧
      (∀ payload, ∃ r, m.deserialize payload = some r ∧
        (r.1 = errorNone → r.2.error = errorNone ∧ ∃ rest, payload = r.2.wire ++ rest)) ∧
      (m.Fits → ∀ capacity, m.serialize capacity =
        if m.wire.length ≤ capacity then some (m.wire.length.toUInt32, m.wire)
        else some (0, [])) := by
  have hstep : ∀ {m : GateKeeperMessage k} {u : Use}, m.Consistent → u.Legal →
      ∃ m', m.use u = some m' ∧ m'.Consistent := fun h hu => use_consistent h hu
  obtain ⟨m, hm, hcons⟩ := System.foldlM_invariant hstep hlegal h₀
  refine ⟨m, hm, MessageKind.destroy_isSome hcons.1, fun payload => ?_,
    fun hfits => serialize_eq hcons hfits⟩
  obtain ⟨r, hr, -, hwire⟩ := deserialize_spec hcons payload
  exact ⟨r, hr, hwire⟩

/-- A response that holds a stored buffer, reads the payload of another one over it, fails, and
    is given a buffer again. -/
def sampleUses : List Use :=
  [.store ⟨some [1, 2], 2⟩, .deserialize ([0, 0, 0, 0, 10, 0, 0, 0] ++ [3, 0, 0, 0, 7, 8, 9, 1]),
    .fail errorUnknown, .deserialize ([0, 0, 0, 0, 11, 0, 0, 0] ++ [1, 0, 0, 0, 6, 0]),
    .store ⟨some [4], 1⟩]

/-- An object as `VerifyResponse()` leaves it. -/
def emptyResponse : GateKeeperMessage .verifyResponse := ⟨errorNone, 0, 0, ⟨SizedBuffer.empty, 0⟩⟩

theorem uses_consistent_sample :
    ∃ m, sampleUses.foldlM use emptyResponse = some m ∧
      (MessageKind.verifyResponse.destroy m.body).isSome ∧
      (∀ payload, ∃ r, m.deserialize payload = some r ∧
        (r.1 = errorNone → r.2.error = errorNone ∧ ∃ rest, payload = r.2.wire ++ rest)) ∧
      (m.Fits → ∀ capacity, m.serialize capacity =
        if m.wire.length ≤ capacity then some (m.wire.length.toUInt32, m.wire)
        else some (0, [])) := by
  have hvalid {bytes : Bytes} {length : UInt32} (h : bytes.length = length.toNat) :
      SizedBuffer.Valid ⟨some bytes, length⟩ :=
    ⟨fun _ hbytes => Option.some.inj hbytes ▸ h, fun _ hnone => nomatch hnone⟩
  refine uses_consistent (consistent_of_valid ?_) ?_
  · simp [emptyResponse, MessageKind.Valid, MessageKind.buffers, SizedBuffer.Valid,
      SizedBuffer.Sound, SizedBuffer.empty]
  · simp only [sampleUses, List.forall_mem_cons, Use.Legal, true_and]
    exact ⟨hvalid rfl, by decide, hvalid rfl, fun _ h => absurd h List.not_mem_nil⟩

end GateKeeperMessage

end Pro5Android.Gatekeeper
