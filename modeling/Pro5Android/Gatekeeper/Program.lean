import Pro5Android.Gatekeeper.Serialization
import Pro5Android.Lib.Dialogue

/-!
# `Enroll` and `Verify`

The functions of `gatekeeper.cpp`. What a platform implements (the virtual
functions of `gatekeeper.h`: keys, signatures, random numbers, the clock and the
failure records) are the calls of a `Dialogue`; an access outside a buffer is its
`fault`. The response object of the caller is passed in and returned.

Results:
* `computeRetryTimeout_le`: no timeout is longer than a day.
* `memcmpS_eq_zero_iff`: the comparison of signatures.
-/

namespace Pro5Android.Gatekeeper

open Lib Dialogue

/-! ## Handles, records and tokens -/

/-- Lists of `n` bytes. -/
abbrev Field (n : ℕ) := { bs : Bytes // bs.length = n }

theorem length_take_of_not_lt {bs : Bytes} {n : ℕ} (h : ¬ bs.length < n) :
    (bs.take n).length = n := by
  rw [List.length_take]
  omega

/-- `n` bytes as they are. -/
def fieldFormat (n : ℕ) : Codec (Field n) where
  put f := f.1
  get bs := if h : bs.length < n then none
    else some (⟨bs.take n, length_take_of_not_lt h⟩, bs.drop n)
  get_put f rest := by
    rw [dif_neg (by rw [List.length_append, f.2]; omega)]
    simp only [List.take_left' f.2, List.drop_left' f.2]
  put_of_get {bs f rest} h := by
    split_ifs at h
    obtain ⟨rfl, rfl⟩ := Prod.mk.inj (Option.some.inj h)
    exact (List.take_append_drop n bs).symm

theorem width_fieldFormat (n : ℕ) : (fieldFormat n).Width n :=
  fun _ h => ⟨_, dif_neg (not_lt.mpr h)⟩

/-- `password_handle_t`. -/
structure PasswordHandle where
  version : UInt8
  userId : UInt64
  flags : UInt64
  salt : UInt64
  signature : Field 32
  hardwareBacked : UInt8

namespace PasswordHandle

/-- The fields that are signed. -/
def metadataFormat : Codec (UInt8 × UInt64 × UInt64) := .prod .u8 (.prod .u64 .u64)

/-- The packed structure. -/
def format : Codec ((UInt8 × UInt64 × UInt64) × UInt64 × Field 32 × UInt8) :=
  .prod metadataFormat (.prod .u64 (.prod (fieldFormat 32) .u8))

def metadata (h : PasswordHandle) : UInt8 × UInt64 × UInt64 := (h.version, h.userId, h.flags)

/-- The bytes of a handle. -/
def bytes (h : PasswordHandle) : Bytes :=
  format.put (h.metadata, h.salt, h.signature, h.hardwareBacked)

/-- The handle at the front of a region, after a `reinterpret_cast`. -/
def cast? (region : Bytes) : Option PasswordHandle :=
  (format.get region).map fun r =>
    { version := r.1.1.1, userId := r.1.1.2.1, flags := r.1.1.2.2, salt := r.1.2.1,
      signature := r.1.2.2.1, hardwareBacked := r.1.2.2.2 }

theorem cast?_bytes (h : PasswordHandle) (rest : Bytes) : cast? (h.bytes ++ rest) = some h := by
  rw [cast?, bytes, format.get_put]
  rfl

theorem length_bytes (h : PasswordHandle) : h.bytes.length = 58 := by
  show ((leBytes 1 h.version.toNat ++ (leBytes 8 h.userId.toNat ++ leBytes 8 h.flags.toNat)) ++
    (leBytes 8 h.salt.toNat ++ (h.signature.1 ++ leBytes 1 h.hardwareBacked.toNat))).length = 58
  simp [h.signature.2]

theorem width_metadataFormat : metadataFormat.Width 17 :=
  Codec.width_u8.prod (Codec.width_u64.prod Codec.width_u64)

theorem width_format : format.Width 58 :=
  width_metadataFormat.prod
    (Codec.width_u64.prod ((width_fieldFormat 32).prod Codec.width_u8))

/-- A region of at least the size of a handle can be cast to one. -/
theorem cast?_isSome {region : Bytes} (h : 58 ≤ region.length) : ∃ p, cast? region = some p := by
  obtain ⟨r, hr⟩ := width_format region h
  exact ⟨_, congrArg (Option.map _) hr⟩

end PasswordHandle

/-- `sizeof(password_handle_t)`. -/
def sizeofPasswordHandle : UInt32 := 58

def handleVersion : UInt8 := 2
def handleVersionThrottle : UInt8 := 2
def handleFlagThrottleSecure : UInt64 := 1

/-- `flags & HANDLE_FLAG_THROTTLE_SECURE`. -/
def throttleSecure (flags : UInt64) : Bool := flags &&& handleFlagThrottleSecure ≠ 0

/-- `failure_record_t`. -/
structure FailureRecord where
  secureUserId : UInt64
  lastCheckedTimestamp : UInt64
  failureCounter : UInt32
  deriving DecidableEq, Repr

/-- `hw_auth_token_t`, whose header is not part of the repository: the bytes of its fields
    before `hmac`, from the challenge, the secure id, the authenticator and the time, and the
    size of `hmac`, which is its last field. Its version and authenticator type are
    constants. -/
structure TokenLayout where
  payload : UInt64 → UInt64 → UInt64 → UInt64 → Bytes
  sizeofHmac : ℕ

/-! ## The platform -/

/-- The calls of the virtual functions. -/
inductive Query
  | getRandom
  | getMillisecondsSinceBoot
  | getFailureRecord (uid : UInt32) (userId : UInt64) (secure : Bool)
  | clearFailureRecord (uid : UInt32) (userId : UInt64) (secure : Bool)
  | writeFailureRecord (uid : UInt32) (record : FailureRecord) (secure : Bool)
  | getPasswordKey
  | computePasswordSignature (key password : Bytes) (salt : UInt64)
  | getAuthTokenKey
  | computeSignature (key message : Bytes) (size : ℕ)
  | isHardwareBacked

/-- What they return; random numbers are of 64 bits, signatures of passwords of 32 bytes. -/
abbrev Answer : Query → Type
  | .getRandom => UInt64
  | .getMillisecondsSinceBoot => UInt64
  | .getFailureRecord _ _ _ => Option FailureRecord
  | .clearFailureRecord _ _ _ => Bool
  | .writeFailureRecord _ _ _ => Bool
  | .getPasswordKey => Option Bytes
  | .computePasswordSignature _ _ _ => Field 32
  | .getAuthTokenKey => Option Bytes
  | .computeSignature _ _ size => Field size
  | .isHardwareBacked => Bool

abbrev Program (α : Type) := Dialogue Query Answer α

def getRandom : Program UInt64 := call Query.getRandom

def getMillisecondsSinceBoot : Program UInt64 := call Query.getMillisecondsSinceBoot

def getFailureRecord (uid : UInt32) (userId : UInt64) (secure : Bool) :
    Program (Option FailureRecord) :=
  call (Query.getFailureRecord uid userId secure)

def clearFailureRecord (uid : UInt32) (userId : UInt64) (secure : Bool) : Program Bool :=
  call (Query.clearFailureRecord uid userId secure)

def writeFailureRecord (uid : UInt32) (record : FailureRecord) (secure : Bool) : Program Bool :=
  call (Query.writeFailureRecord uid record secure)

def getPasswordKey : Program (Option Bytes) := call Query.getPasswordKey

def computePasswordSignature (key password : Bytes) (salt : UInt64) : Program (Field 32) :=
  call (Query.computePasswordSignature key password salt)

def getAuthTokenKey : Program (Option Bytes) := call Query.getAuthTokenKey

def computeSignature (key message : Bytes) (size : ℕ) : Program (Field size) :=
  call (Query.computeSignature key message size)

def isHardwareBacked : Program Bool := call Query.isHardwareBacked

/-! ## Throttling -/

/-- `DAY_IN_MS`. -/
def dayInMs : UInt32 := 1000 * 60 * 60 * 24

/-- `ComputeRetryTimeout` (lines 273–290), of the failure counter. -/
def computeRetryTimeout (failureCounter : UInt32) : UInt32 :=
  if failureCounter = 0 then 0
  else if failureCounter > 0 && failureCounter ≤ 10 then
    if failureCounter % 5 = 0 then 30000 else 0
  else if failureCounter < 30 then 30000
  else if failureCounter < 140 then 30000 <<< ((failureCounter - 30) / 10)
  else dayInMs

variable {k : MessageKind}

/-- `ThrottleRequest` (lines 292–318): the value returned, the record and the response. -/
def throttleRequest (uid : UInt32) (timestamp : UInt64) (record : FailureRecord) (secure : Bool)
    (response : GateKeeperMessage k) : Program (Bool × FailureRecord × GateKeeperMessage k) :=
  let lastChecked := record.lastCheckedTimestamp
  let timeout := computeRetryTimeout record.failureCounter
  if timeout > 0 then
    if timestamp < lastChecked + timeout.toUInt64 && timestamp > lastChecked then
      pure (true, record,
        response.setRetryTimeout (timeout.toUInt64 - (timestamp - lastChecked)).toUInt32)
    else if timestamp ≤ lastChecked then do
      let record := { record with lastCheckedTimestamp := timestamp }
      let written ← writeFailureRecord uid record secure
      if written = false then pure (true, record, { response with error := errorUnknown })
      else pure (true, record, response.setRetryTimeout timeout)
    else pure (false, record, response)
  else pure (false, record, response)

/-- `IncrementFailureRecord` (lines 320–327). -/
def incrementFailureRecord (uid : UInt32) (userId timestamp : UInt64) (record : FailureRecord)
    (secure : Bool) : Program (Bool × FailureRecord) := do
  let record : FailureRecord :=
    { secureUserId := userId, failureCounter := record.failureCounter + 1,
      lastCheckedTimestamp := timestamp }
  let written ← writeFailureRecord uid record secure
  pure (written, record)

/-- What `Enroll` (lines 59–73) and `Verify` (lines 139–152) do before they check a
    password against a handle that is throttled: a response, or the timeout if it is wrong. -/
def chargeAttempt (uid : UInt32) (handle : PasswordHandle) (timestamp : UInt64)
    (response : GateKeeperMessage k) : Program (GateKeeperMessage k ⊕ UInt32) := do
  let secure := throttleSecure handle.flags
  let record ← getFailureRecord uid handle.userId secure
  match record with
  | none => pure (.inl { response with error := errorUnknown })
  | some record => do
    let (throttled, record, response) ← throttleRequest uid timestamp record secure response
    if throttled then pure (.inl response)
    else do
      let (written, record) ← incrementFailureRecord uid handle.userId timestamp record secure
      if written = false then pure (.inl { response with error := errorUnknown })
      else pure (.inr (computeRetryTimeout record.failureCounter))

/-! ## Handles -/

/-- `memcmp_s` of `gatekeeper_utils.h` (lines 46–53), of regions of one length. -/
def memcmpS (p1 p2 : Bytes) : ℕ :=
  if (p1.zip p2).foldl (fun result p => result ||| (p.1 ^^^ p.2)) (0 : UInt8) = 0 then 0 else 1

/-- `CreatePasswordHandle` (lines 178–214); `none` where it returns false. The size of the
    buffer that is signed is computed in 32 bits. -/
def createPasswordHandle (salt userId flags : UInt64) (version : UInt8) (password : Bytes)
    (passwordLength : UInt32) : Program (Option PasswordHandle) := do
  let hardwareBacked ← isHardwareBacked
  let metadataLength : UInt32 := 8 + 8 + 1
  let toSignSize := (passwordLength + metadataLength).toNat
  if toSignSize < metadataLength.toNat + passwordLength.toNat then fault
  else do
    let password ← access (memcpy? password passwordLength.toNat)
    let toSign := PasswordHandle.metadataFormat.put (version, userId, flags) ++ password
    let passwordKey ← getPasswordKey
    match passwordKey with
    | none => pure none
    | some key =>
      if key.length = 0 then pure none
      else do
        let signature ← computePasswordSignature key toSign salt
        let hardwareBacked := if hardwareBacked then 1 else 0
        pure (some { version, userId, flags, salt, signature, hardwareBacked })

/-- `DoVerify` (lines 216–230). -/
def doVerify (expectedHandle : PasswordHandle) (password : SizedBuffer) : Program Bool :=
  match password.buffer with
  | none => pure false
  | some bytes => do
    let providedHandle ← createPasswordHandle expectedHandle.salt expectedHandle.userId
      expectedHandle.flags expectedHandle.version bytes password.length
    match providedHandle with
    | none => pure false
    | some generatedHandle =>
      pure (memcmpS generatedHandle.signature.1 expectedHandle.signature.1 = 0)

/-- What `Enroll` (lines 56–76) and `Verify` (lines 135–157) do between reading the clock
    and acting on the comparison: a response, or the timeout and the result. -/
def checkPassword (uid : UInt32) (handle : PasswordHandle) (timestamp : UInt64)
    (password : SizedBuffer) (response : GateKeeperMessage k) :
    Program (GateKeeperMessage k ⊕ (UInt32 × Bool)) :=
  if handle.version ≥ handleVersionThrottle then do
    let charged ← chargeAttempt uid handle timestamp response
    match charged with
    | .inl response => pure (.inl response)
    | .inr timeout => do
      let verified ← doVerify handle password
      pure (.inr (timeout, verified))
  else do
    let verified ← doVerify handle password
    pure (.inr (0, verified))

/-- `MintAuthToken` (lines 232–259). -/
def mintAuthToken (layout : TokenLayout) (timestamp userId authenticatorId challenge : UInt64) :
    Program Bytes := do
  let payload := layout.payload challenge userId authenticatorId timestamp
  let authTokenKey ← getAuthTokenKey
  match authTokenKey with
  | some key => do
    let hmac ← computeSignature key payload layout.sizeofHmac
    pure (payload ++ hmac.1)
  | none => pure (payload ++ List.replicate layout.sizeofHmac 0)

/-! ## `Enroll` and `Verify` -/

/-- What `Enroll` does where the request has a handle (lines 40–84): a response, or the
    secure id of a password that was confirmed. -/
def confirmEnrolled (request : GateKeeperMessage .enrollRequest) (region : Bytes)
    (response : GateKeeperMessage .enrollResponse) :
    Program (GateKeeperMessage .enrollResponse ⊕ UInt64) :=
  let body : EnrollRequest := request.body
  if body.passwordHandle.length < sizeofPasswordHandle then
    pure (.inl { response with error := errorInvalid })
  else do
    let handle ← access (PasswordHandle.cast? region)
    if handle.version > handleVersion then pure (.inl { response with error := errorInvalid })
    else do
      let timestamp ← getMillisecondsSinceBoot
      let throttle := handle.version ≥ handleVersionThrottle
      let checked ← checkPassword request.userId handle timestamp body.enrolledPassword response
      match checked with
      | .inl response => pure (.inl response)
      | .inr (timeout, verified) =>
        if verified then pure (.inr handle.userId)
        else if throttle ∧ timeout > 0 then pure (.inl (response.setRetryTimeout timeout))
        else pure (.inl { response with error := errorInvalid })

/-- The new handle of `Enroll` (lines 97–105). -/
def enrollHandle (request : GateKeeperMessage .enrollRequest) (userId : UInt64) (flags : UInt64)
    (password : Bytes) (response : GateKeeperMessage .enrollResponse) :
    Program (GateKeeperMessage .enrollResponse) := do
  let body : EnrollRequest := request.body
  let salt ← getRandom
  let passwordHandle ← createPasswordHandle salt userId flags handleVersion password
    body.providedPassword.length
  match passwordHandle with
  | none => pure { response with error := errorInvalid }
  | some handle =>
    pure { response with
      body := EnrollResponse.setEnrolledPasswordHandle response.body
        ⟨some handle.bytes, sizeofPasswordHandle⟩ }

/-- What `Enroll` does once the secure id is known (lines 87–105). -/
def enrollPassword (request : GateKeeperMessage .enrollRequest) (userId : UInt64) (password : Bytes)
    (response : GateKeeperMessage .enrollResponse) :
    Program (GateKeeperMessage .enrollResponse) := do
  let cleared ← clearFailureRecord request.userId userId true
  let flags ← if cleared then pure handleFlagThrottleSecure
    else do
      let _ ← clearFailureRecord request.userId userId false
      pure 0
  enrollHandle request userId flags password response

/-- `Enroll` (lines 25–106). -/
def enroll (request : GateKeeperMessage .enrollRequest)
    (response : GateKeeperMessage .enrollResponse) : Program (GateKeeperMessage .enrollResponse) :=
  let body : EnrollRequest := request.body
  match body.providedPassword.buffer with
  | none => pure { response with error := errorInvalid }
  | some password =>
    match body.passwordHandle.buffer with
    | none => do
      let userId ← getRandom
      enrollPassword request userId password response
    | some region => do
      let confirmed ← confirmEnrolled request region response
      match confirmed with
      | .inl response => pure response
      | .inr userId => enrollPassword request userId password response

/-- What `Verify` does with the result of the comparison (lines 157–175). -/
def answerVerified (layout : TokenLayout) (request : GateKeeperMessage .verifyRequest)
    (handle : PasswordHandle) (timestamp : UInt64) (timeout : UInt32) (verified : Bool)
    (response : GateKeeperMessage .verifyResponse) : Program (GateKeeperMessage .verifyResponse) :=
  let body : VerifyRequest := request.body
  let throttle := handle.version ≥ handleVersionThrottle
  if verified then do
    let authenticatorId := 0
    let authToken ← mintAuthToken layout timestamp handle.userId authenticatorId body.challenge
    let response := { response with
      body := VerifyResponse.setVerificationToken response.body
        ⟨some authToken, authToken.length.toUInt32⟩ }
    if throttle then do
      let _ ← clearFailureRecord request.userId handle.userId (throttleSecure handle.flags)
      pure response
    else pure response
  else if throttle ∧ timeout > 0 then pure (response.setRetryTimeout timeout)
  else pure { response with error := errorInvalid }

/-- `Verify` (lines 108–176). -/
def verify (layout : TokenLayout) (request : GateKeeperMessage .verifyRequest)
    (response : GateKeeperMessage .verifyResponse) : Program (GateKeeperMessage .verifyResponse) :=
  let body : VerifyRequest := request.body
  match body.providedPassword.buffer, body.passwordHandle.buffer with
  | some _, some region =>
    if body.passwordHandle.length < sizeofPasswordHandle then
      pure { response with error := errorInvalid }
    else do
      let handle ← access (PasswordHandle.cast? region)
      if handle.version > handleVersion then pure { response with error := errorInvalid }
      else do
        let timestamp ← getMillisecondsSinceBoot
        let throttle := handle.version ≥ handleVersionThrottle
        let checked ← checkPassword request.userId handle timestamp body.providedPassword response
        match checked with
        | .inl response => pure response
        | .inr (timeout, verified) =>
          let response := if throttle then response
            else { response with body := { response.body with requestReenroll := 1 } }
          answerVerified layout request handle timestamp timeout verified response
  | _, _ => pure { response with error := errorInvalid }

/-! ## What the helpers return -/

theorem computeRetryTimeout_le (failureCounter : UInt32) :
    (computeRetryTimeout failureCounter).toNat ≤ dayInMs.toNat := by
  have hday : dayInMs.toNat = 86400000 := by decide
  rw [hday, computeRetryTimeout]
  split_ifs with h0 h10 h5 h30 h140
  · decide
  · decide
  · decide
  · decide
  · rw [UInt32.lt_iff_toNat_lt] at h30 h140
    have h30' : (30 : UInt32).toNat = 30 := rfl
    have h140' : (140 : UInt32).toNat = 140 := rfl
    have hsub : (failureCounter - 30).toNat = failureCounter.toNat - 30 :=
      UInt32.toNat_sub_of_le _ _ (by rw [UInt32.le_iff_toNat_le]; omega)
    have hshift : ((failureCounter - 30) / 10).toNat ≤ 10 := by
      rw [UInt32.toNat_div, hsub, show (10 : UInt32).toNat = 10 from rfl]
      omega
    rw [UInt32.toNat_shiftLeft, Nat.mod_eq_of_lt (show _ < 32 by omega), Nat.shiftLeft_eq]
    have hpow : 2 ^ ((failureCounter - 30) / 10).toNat ≤ 2 ^ 10 :=
      Nat.pow_le_pow_right (by decide) hshift
    have h30000 : (30000 : UInt32).toNat = 30000 := rfl
    exact (Nat.mod_le _ _).trans (by rw [h30000]; omega)
  · decide

theorem foldl_or_eq_zero_iff (l : List (UInt8 × UInt8)) (result : UInt8) :
    l.foldl (fun result p => result ||| (p.1 ^^^ p.2)) result = 0 ↔
      result = 0 ∧ ∀ p ∈ l, p.1 = p.2 := by
  induction l generalizing result with
  | nil => simp
  | cons p l ih =>
    rw [List.foldl_cons, ih, UInt8.or_eq_zero_iff, UInt8.xor_eq_zero_iff, List.forall_mem_cons,
      and_assoc]

/-- Regions of one length compare as equal exactly if they are. -/
theorem memcmpS_eq_zero_iff {p1 p2 : Bytes} (h : p1.length = p2.length) :
    memcmpS p1 p2 = 0 ↔ p1 = p2 := by
  have hzip : (∀ p ∈ p1.zip p2, p.1 = p.2) ↔ p1 = p2 := by
    induction p1 generalizing p2 with
    | nil =>
      rw [List.length_nil] at h
      simp [List.length_eq_zero_iff.mp h.symm]
    | cons b p1 ih =>
      cases p2 with
      | nil => cases h
      | cons b' p2 =>
        rw [List.zip_cons_cons, List.forall_mem_cons, ih (Nat.succ.inj h), List.cons.injEq]
  have hfold := foldl_or_eq_zero_iff (p1.zip p2) 0
  rw [memcmpS]
  split_ifs with hzero
  · exact ⟨fun _ => hzip.mp (hfold.mp hzero).2, fun _ => rfl⟩
  · exact ⟨fun h1 => h1.elim,
      fun heq => absurd (hfold.mpr ⟨rfl, hzip.mpr heq⟩) hzero⟩

end Pro5Android.Gatekeeper
