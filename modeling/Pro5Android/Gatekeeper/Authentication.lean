import Pro5Android.Gatekeeper.Throttle

/-!
# What a token and a handle are evidence of

What `Enroll` and `Verify` ask of the platform, in order, before they return a
handle or a token, whatever the platform answers and whatever bytes are in the
request.

Results:
* `verify_sound`: a token is returned only after the failure has been counted and
  the password's signature was that of the handle.
* `enroll_sound`: a handle carries the secure id of an old handle only after the old
  password's signature was that of the old handle, and otherwise a random one; no
  failure record is cleared before.
* `enroll_verify`: on a platform with one key and one signature function the handle
  of a password accepts that password, and another one only where the signatures are
  the same.
-/

namespace Pro5Android.Gatekeeper

open Lib Dialogue

/-- Calls with their answers. -/
abbrev Conversation := List ((q : Query) × Answer q)

/-- The call clears a failure record. -/
def Clears (c : (q : Query) × Answer q) : Prop :=
  ∃ uid userId secure, c.1 = .clearFailureRecord uid userId secure

def NoClear (calls : Conversation) : Prop := ∀ c ∈ calls, ¬ Clears c

theorem noClear_nil : NoClear [] := by simp [NoClear]

theorem noClear_append {calls calls' : Conversation} :
    NoClear (calls ++ calls') ↔ NoClear calls ∧ NoClear calls' := by
  simp only [NoClear, List.mem_append, or_imp, forall_and]

/-- The conversation in which the signature of a password is computed. -/
def signing (handle : PasswordHandle) (password : SizedBuffer) (key : Bytes) (hardwareBacked : Bool)
    (signature : Field 32) : Conversation :=
  [⟨.isHardwareBacked, hardwareBacked⟩, ⟨.getPasswordKey, some key⟩,
    ⟨.computePasswordSignature key
      (toSign handle.version handle.userId handle.flags password) handle.salt, signature⟩]

/-- The conversation in which a failure is counted. -/
def charging (uid : UInt32) (handle : PasswordHandle) (timestamp : UInt64)
    (record : FailureRecord) : Conversation :=
  let secure := throttleSecure handle.flags
  [⟨.getFailureRecord uid handle.userId secure, some record⟩,
    ⟨.writeFailureRecord uid ⟨handle.userId, timestamp, record.failureCounter + 1⟩ secure, true⟩]

/-- Checking a password against a handle that it matches, with the failure counted before
    where the handle is throttled. -/
inductive Matched (uid : UInt32) (handle : PasswordHandle) (password : SizedBuffer)
    (timestamp : UInt64) : Conversation → Prop
  | throttled {record : FailureRecord} {key : Bytes} {hardwareBacked : Bool}
      (h : handle.version ≥ handleVersionThrottle) :
      Matched uid handle password timestamp (⟨.getMillisecondsSinceBoot, timestamp⟩ ::
        (charging uid handle timestamp record ++
          signing handle password key hardwareBacked handle.signature))
  | free {key : Bytes} {hardwareBacked : Bool} (h : ¬ handle.version ≥ handleVersionThrottle) :
      Matched uid handle password timestamp (⟨.getMillisecondsSinceBoot, timestamp⟩ ::
        signing handle password key hardwareBacked handle.signature)

/-! ## The helpers -/

variable {law : (q : Query) → Answer q → Prop} {uid : UInt32} {timestamp : UInt64}

/-- What `CreatePasswordHandle` returns is what it has signed. -/
theorem createPasswordHandle_yields {salt userId flags : UInt64} {version : UInt8}
    {password : SizedBuffer} (hvalid : Signable password) {bytes : Bytes}
    (hbytes : password.buffer = some bytes) :
    (createPasswordHandle salt userId flags version bytes password.length).Yields law
      fun r calls => NoClear calls ∧
        (r = none → law .getPasswordKey none ∨ law .getPasswordKey (some [])) ∧
        ∀ handle, r = some handle → ∃ key hardwareBacked,
          handle.version = version ∧ handle.userId = userId ∧ handle.flags = flags ∧
          handle.salt = salt ∧ law .getPasswordKey (some key) ∧
          law (.computePasswordSignature key (toSign version userId flags password) salt)
            handle.signature ∧
          calls = signing handle password key hardwareBacked handle.signature := by
  have hsize : (password.length + (8 + 8 + 1)).toNat = password.length.toNat + 17 := by
    have h17 : (8 + 8 + 1 : UInt32).toNat = 17 := rfl
    have := hvalid.2
    rw [UInt32.toNat_add, h17]
    omega
  rw [createPasswordHandle]
  refine Yields.call_bind fun hardwareBacked _ => ?_
  dsimp only
  rw [hsize, if_neg (by rw [show (8 + 8 + 1 : UInt32).toNat = 17 from rfl]; omega)]
  refine Yields.access_bind (memcpy?_content hvalid.1 hbytes) ?_
  refine Yields.call_bind fun passwordKey hkey => ?_
  cases passwordKey with
  | none => exact ⟨by simp [NoClear, Clears], fun _ => .inl hkey, fun _ h => by cases h⟩
  | some key =>
    refine Yields.ite (fun hempty => ?_) fun _ => ?_
    · obtain rfl := List.length_eq_zero_iff.mp hempty
      exact ⟨by simp [NoClear, Clears], fun _ => .inr hkey, fun _ h => by cases h⟩
    · refine Yields.call_bind fun signature hsign => ?_
      refine ⟨by simp [NoClear, Clears], fun h => (by cases h), ?_⟩
      rintro handle ⟨⟩
      exact ⟨key, hardwareBacked, rfl, rfl, rfl, rfl, hkey, hsign, rfl⟩

/-- `DoVerify` returns true only if the signature it asked for is that of the handle. -/
theorem doVerify_yields {handle : PasswordHandle} {password : SizedBuffer}
    (hvalid : Signable password) :
    (doVerify handle password).Yields law fun r calls => NoClear calls ∧
      (r = true → ∃ key hardwareBacked,
        law (.computePasswordSignature key
          (toSign handle.version handle.userId handle.flags password) handle.salt)
          handle.signature ∧
        calls = signing handle password key hardwareBacked handle.signature) := by
  rw [doVerify]
  cases hbytes : password.buffer with
  | none => exact ⟨noClear_nil, fun h => by cases h⟩
  | some bytes =>
    refine Yields.bind (createPasswordHandle_yields hvalid hbytes) ?_
    rintro provided calls ⟨hclear, -, hprovided⟩
    cases provided with
    | none => exact ⟨by simpa using hclear, fun h => by cases h⟩
    | some generated =>
      refine ⟨by simpa using hclear, fun hr => ?_⟩
      obtain ⟨key, hardwareBacked, hversion, huserId, hflags, hsalt, -, hsign, hcalls⟩ :=
        hprovided generated rfl
      have hsame : generated.signature = handle.signature := by
        apply Subtype.ext
        rw [decide_eq_true_eq] at hr
        exact (memcmpS_eq_zero_iff (by rw [generated.signature.2, handle.signature.2])).mp hr
      rw [hsame] at hsign hcalls
      refine ⟨key, hardwareBacked, hsign, ?_⟩
      rw [List.append_nil, hcalls, signing, signing, hversion, huserId, hflags, hsalt]

variable {k : MessageKind}

/-- A request that is not let through gets an error and nothing else. -/
def Refused (response r : GateKeeperMessage k) : Prop :=
  (r.error = errorRetry ∨ r.error = errorUnknown) ∧ r.body = response.body

theorem throttleRequest_yields {record : FailureRecord} {secure : Bool}
    {response : GateKeeperMessage k} :
    (throttleRequest uid timestamp record secure response).Yields law fun r calls =>
      NoClear calls ∧ (r.1 = true → Refused response r.2.2) ∧
        (r.1 = false → calls = [] ∧ r.2.1 = record ∧ r.2.2 = response) := by
  rw [throttleRequest]
  dsimp only
  refine Yields.ite (fun _ => Yields.ite (fun _ => ?_) fun _ => Yields.ite (fun _ => ?_)
    fun _ => ?_) fun _ => ?_
  · exact ⟨noClear_nil, fun _ => ⟨.inl rfl, rfl⟩, fun h => by cases h⟩
  · refine Yields.call_bind fun written _ => Yields.ite (fun _ => ?_) fun _ => ?_
    · exact ⟨by simp [NoClear, Clears], fun _ => ⟨.inr rfl, rfl⟩, fun h => by cases h⟩
    · exact ⟨by simp [NoClear, Clears], fun _ => ⟨.inl rfl, rfl⟩, fun h => by cases h⟩
  · exact ⟨noClear_nil, fun h => (by cases h), fun _ => ⟨rfl, rfl, rfl⟩⟩
  · exact ⟨noClear_nil, fun h => (by cases h), fun _ => ⟨rfl, rfl, rfl⟩⟩

theorem chargeAttempt_yields {handle : PasswordHandle} {response : GateKeeperMessage k} :
    (chargeAttempt uid handle timestamp response).Yields law fun r calls => NoClear calls ∧
      (∀ response', r = .inl response' → Refused response response') ∧
      (∀ timeout, r = .inr timeout → ∃ record, calls = charging uid handle timestamp record) := by
  rw [chargeAttempt]
  refine Yields.call_bind fun answer _ => ?_
  cases answer with
  | none => exact ⟨by simp [NoClear, Clears], fun _ h => (by cases h; exact ⟨.inr rfl, rfl⟩),
      fun _ h => by cases h⟩
  | some record =>
    refine Yields.bind throttleRequest_yields ?_
    rintro ⟨throttled, record', response'⟩ calls ⟨hclear, hrefused, hpass⟩
    refine Yields.ite (fun ht => ?_) fun ht => ?_
    · refine ⟨?_, fun _ h => (by cases h; exact hrefused ht), fun _ h => by cases h⟩
      simpa [NoClear, Clears] using hclear
    · obtain ⟨rfl, rfl, rfl⟩ := hpass (Bool.eq_false_of_not_eq_true ht)
      rw [incrementFailureRecord]
      refine Yields.call_bind fun written _ => ?_
      cases written with
      | false => exact ⟨by simp [NoClear, Clears], fun _ h => (by cases h; exact ⟨.inr rfl, rfl⟩),
          fun _ h => by cases h⟩
      | true => exact ⟨by simp [NoClear, Clears], fun _ h => (by cases h), fun _ _ => ⟨_, rfl⟩⟩

/-- Where a password was checked after the clock was read, and matched, the failure had been
    counted. -/
theorem checkPassword_yields {handle : PasswordHandle} {password : SizedBuffer}
    {response : GateKeeperMessage k} (hvalid : Signable password) :
    (checkPassword uid handle timestamp password response).Yields law fun r calls =>
      NoClear calls ∧ (∀ response', r = .inl response' → Refused response response') ∧
        ∀ timeout, r = .inr (timeout, true) →
          Matched uid handle password timestamp
            (⟨.getMillisecondsSinceBoot, timestamp⟩ :: calls) := by
  rw [checkPassword]
  refine Yields.ite (fun hthrottle => ?_) fun hthrottle => ?_
  · refine Yields.bind chargeAttempt_yields ?_
    rintro charged calls ⟨hclear, hinl, hinr⟩
    cases charged with
    | inl response' =>
      refine ⟨by rwa [List.append_nil], fun _ h => ?_, fun _ h => by cases h⟩
      cases h
      exact hinl response' rfl
    | inr timeout =>
      obtain ⟨record, rfl⟩ := hinr timeout rfl
      refine Yields.bind (doVerify_yields hvalid) ?_
      rintro verified calls' ⟨hclear', hverified⟩
      refine ⟨?_, fun _ h => (by cases h), fun _ h => ?_⟩
      · rw [List.append_nil]
        exact noClear_append.mpr ⟨hclear, hclear'⟩
      · cases h
        obtain ⟨key, hardwareBacked, -, rfl⟩ := hverified rfl
        rw [List.append_nil]
        exact .throttled hthrottle
  · refine Yields.bind (doVerify_yields hvalid) ?_
    rintro verified calls ⟨hclear, hverified⟩
    refine ⟨by rwa [List.append_nil], fun _ h => (by cases h), fun _ h => ?_⟩
    cases h
    obtain ⟨key, hardwareBacked, -, rfl⟩ := hverified rfl
    rw [List.append_nil]
    exact .free hthrottle

/-! ## `Verify` -/

theorem mintAuthToken_yields {layout : TokenLayout} {userId authenticatorId challenge : UInt64} :
    (mintAuthToken layout timestamp userId authenticatorId challenge).Yields law fun r _ =>
      ∃ hmac : Field layout.sizeofHmac,
        r = layout.payload challenge userId authenticatorId timestamp ++ hmac.1 := by
  rw [mintAuthToken]
  refine Yields.call_bind fun authTokenKey _ => ?_
  cases authTokenKey with
  | none => exact ⟨⟨List.replicate layout.sizeofHmac 0, List.length_replicate⟩, rfl⟩
  | some key => exact Yields.call_bind fun hmac _ => ⟨hmac, rfl⟩

/-- The token of a password that was confirmed at this time, with some signature. -/
def TokenFor (layout : TokenLayout) (request : GateKeeperMessage .verifyRequest)
    (handle : PasswordHandle) (timestamp : UInt64) (authToken : SizedBuffer) : Prop :=
  ∃ hmac : Field layout.sizeofHmac,
    let token := layout.payload request.body.challenge handle.userId 0 timestamp ++ hmac.1
    authToken = ⟨some token, token.length.toUInt32⟩

theorem answerVerified_yields {layout : TokenLayout} {request : GateKeeperMessage .verifyRequest}
    {handle : PasswordHandle} {timeout : UInt32} {verified : Bool}
    {response : GateKeeperMessage .verifyResponse} :
    (answerVerified layout request handle timestamp timeout verified response).Yields law fun r calls =>
      (verified = true → r.error = response.error ∧
        TokenFor layout request handle timestamp r.body.authToken) ∧
      (verified = false → (r.error = errorRetry ∨ r.error = errorInvalid) ∧
        r.body = response.body ∧ calls = []) := by
  rw [answerVerified]
  dsimp only
  refine Yields.ite (fun hv => ?_) fun hv => Yields.ite (fun _ => ?_) fun _ => ?_
  · refine Yields.bind mintAuthToken_yields ?_
    rintro _ calls ⟨hmac, rfl⟩
    refine Yields.ite (fun _ => ?_) fun _ => ?_
    · exact Yields.call_bind fun _ _ =>
        ⟨fun _ => ⟨rfl, hmac, rfl⟩, fun h => by rw [hv] at h; cases h⟩
    · exact ⟨fun _ => ⟨rfl, hmac, rfl⟩, fun h => by rw [hv] at h; cases h⟩
  · exact ⟨fun h => absurd h hv, fun _ => ⟨.inl rfl, rfl, rfl⟩⟩
  · exact ⟨fun h => absurd h hv, fun _ => ⟨.inr rfl, rfl, rfl⟩⟩

/-- The response to a request is a token for a password that matched, or an error. -/
def Answered (layout : TokenLayout) (request : GateKeeperMessage .verifyRequest)
    (response r : GateKeeperMessage .verifyResponse) (calls : Conversation) : Prop :=
  let body : VerifyRequest := request.body
  (r.error = errorNone → ∃ region handle timestamp start,
    body.passwordHandle.buffer = some region ∧ PasswordHandle.cast? region = some handle ∧
    Matched request.userId handle body.providedPassword timestamp start ∧ start <+: calls ∧
    TokenFor layout request handle timestamp r.body.authToken) ∧
  (r.error ≠ errorNone → r.body.authToken = response.body.authToken ∧ NoClear calls)

theorem answered_error {layout : TokenLayout} {request : GateKeeperMessage .verifyRequest}
    {response r : GateKeeperMessage .verifyResponse} {calls : Conversation}
    (herror : r.error ≠ errorNone) (htoken : r.body.authToken = response.body.authToken)
    (hclear : NoClear calls) : Answered layout request response r calls :=
  ⟨fun h => absurd h herror, fun _ => ⟨htoken, hclear⟩⟩

theorem Refused.error_ne {response r : GateKeeperMessage k} (h : Refused response r) :
    r.error ≠ errorNone := by
  intro hnone
  rcases h.1 with herror | herror
  · exact absurd (herror.symm.trans hnone) (by decide)
  · exact absurd (herror.symm.trans hnone) (by decide)

/-- Whatever bytes are in a valid request and whatever the platform answers: a token is
    returned only after the failure has been counted, where the handle is throttled, and then
    the signature of the password was that of the handle; it names the handle's secure id, the
    request's challenge and the time the clock showed before. Without one no failure record
    is cleared. -/
theorem verify_sound {layout : TokenLayout} {request : GateKeeperMessage .verifyRequest}
    {response : GateKeeperMessage .verifyResponse}
    (hvalid : (Request.verify request response).Valid) (hfresh : response.error = errorNone) :
    (verify layout request response).Yields law (Answered layout request response) := by
  have hinvalid : ∀ calls, NoClear calls →
      Answered layout request response { response with error := errorInvalid } calls :=
    fun calls hclear => answered_error MessageKind.errorInvalid_ne rfl hclear
  rw [verify]
  dsimp only
  split
  · next password region hpassword hregion =>
    refine Yields.ite (fun _ => hinvalid [] noClear_nil) fun hlen => ?_
    have hlong : 58 ≤ region.length := by
      rw [hvalid.1.1 region hregion]
      rw [UInt32.lt_iff_toNat_lt, not_lt] at hlen
      exact hlen
    obtain ⟨handle, hhandle⟩ := PasswordHandle.cast?_isSome hlong
    refine Yields.access_bind hhandle (Yields.ite (fun _ => hinvalid [] noClear_nil) fun _ => ?_)
    have hclock : ∀ timestamp calls, NoClear calls →
        NoClear (⟨.getMillisecondsSinceBoot, timestamp⟩ :: calls) := fun timestamp calls h => by
      simpa [NoClear, Clears] using h
    refine Yields.call_bind fun timestamp _ => Yields.bind (checkPassword_yields hvalid.2) ?_
    rintro checked calls ⟨hclear, hinl, hinr⟩
    cases checked with
    | inl response' =>
      have hrefused := hinl response' rfl
      refine answered_error hrefused.error_ne (by rw [hrefused.2]) (hclock _ _ ?_)
      rwa [List.append_nil]
    | inr checked =>
      obtain ⟨timeout, verified⟩ := checked
      refine answerVerified_yields.mono fun r calls' hr => ?_
      cases verified with
      | true =>
        obtain ⟨herror, htoken⟩ := hr.1 rfl
        refine ⟨fun _ => ⟨region, handle, timestamp, _, hregion, hhandle, hinr timeout rfl,
          List.prefix_append _ calls', htoken⟩, fun hne => absurd ?_ hne⟩
        rw [herror]
        split_ifs
        · exact hfresh
        · exact hfresh
      | false =>
        obtain ⟨herror, hbody, rfl⟩ := hr.2 rfl
        refine answered_error ?_ ?_ (hclock _ _ ?_)
        · intro hnone
          rw [hnone] at herror
          exact absurd herror (by decide)
        · rw [hbody]
          split_ifs
          · rfl
          · rfl
        · rwa [List.append_nil]
  · exact hinvalid [] noClear_nil

theorem verify_sound_sample :
    (verify packedToken sampleVerify sampleResponse).Yields (fun _ _ => True)
      (Answered packedToken sampleVerify sampleResponse) :=
  verify_sound sampleGuess_valid rfl

/-! ## `Enroll` -/

/-- A password may be enrolled under this secure id: it was drawn, or the old password
    matched the handle it is from. -/
inductive Authorized (request : GateKeeperMessage .enrollRequest) : UInt64 → Conversation → Prop
  | drawn (userId : UInt64) (h : request.body.passwordHandle.buffer = none) :
      Authorized request userId [⟨.getRandom, userId⟩]
  | confirmed {region : Bytes} {handle : PasswordHandle} {timestamp : UInt64} {start : Conversation}
      (hregion : request.body.passwordHandle.buffer = some region)
      (hhandle : PasswordHandle.cast? region = some handle)
      (h : Matched request.userId handle request.body.enrolledPassword timestamp start) :
      Authorized request handle.userId start

theorem confirmEnrolled_yields {request : GateKeeperMessage .enrollRequest}
    {response : GateKeeperMessage .enrollResponse}
    (hvalid : (Request.enroll request response).Valid) {region : Bytes}
    (hregion : request.body.passwordHandle.buffer = some region) :
    (confirmEnrolled request region response).Yields law fun r calls =>
      (∀ response', r = .inl response' →
        response'.error ≠ errorNone ∧ response'.body = response.body ∧ NoClear calls) ∧
      ∀ userId, r = .inr userId → Authorized request userId calls := by
  have hinvalid : ∀ calls, NoClear calls → ∀ response',
      (Sum.inl { response with error := errorInvalid } :
        GateKeeperMessage .enrollResponse ⊕ UInt64) = .inl response' →
      response'.error ≠ errorNone ∧ response'.body = response.body ∧ NoClear calls := by
    rintro calls hclear _ ⟨⟩
    exact ⟨MessageKind.errorInvalid_ne, rfl, hclear⟩
  rw [confirmEnrolled]
  refine Yields.ite (fun _ => ⟨hinvalid [] noClear_nil, fun _ h => by cases h⟩) fun hlen => ?_
  have hlong : 58 ≤ region.length := by
    rw [hvalid.1.1 region hregion]
    rw [UInt32.lt_iff_toNat_lt, not_lt] at hlen
    exact hlen
  obtain ⟨handle, hhandle⟩ := PasswordHandle.cast?_isSome hlong
  refine Yields.access_bind hhandle (Yields.ite
    (fun _ => ⟨hinvalid [] noClear_nil, fun _ h => by cases h⟩) fun _ => ?_)
  refine Yields.call_bind fun timestamp _ => Yields.bind (checkPassword_yields hvalid.2.2) ?_
  rintro checked calls ⟨hclear, hinl, hinr⟩
  have hclock : NoClear (⟨.getMillisecondsSinceBoot, timestamp⟩ :: (calls ++ [])) := by
    simpa [NoClear, Clears] using hclear
  cases checked with
  | inl response' =>
    have hrefused := hinl response' rfl
    refine ⟨fun _ h => ?_, fun _ h => by cases h⟩
    cases h
    exact ⟨hrefused.error_ne, hrefused.2, hclock⟩
  | inr checked =>
    obtain ⟨timeout, verified⟩ := checked
    cases verified with
    | true =>
      refine ⟨fun _ h => (by cases h), fun _ h => ?_⟩
      cases h
      rw [List.append_nil]
      exact .confirmed hregion hhandle (hinr timeout rfl)
    | false =>
      refine Yields.ite (fun h => absurd h (by decide)) fun _ =>
        Yields.ite (fun _ => ?_) fun _ => ?_
      · refine ⟨fun _ h => ?_, fun _ h => by cases h⟩
        cases h
        exact ⟨show errorRetry ≠ errorNone by decide, rfl, hclock⟩
      · exact ⟨hinvalid _ hclock, fun _ h => by cases h⟩

/-- What `Enroll` does at the end: a handle for the password that it has just signed, or an
    error. -/
def Created (law : (q : Query) → Answer q → Prop) (request : GateKeeperMessage .enrollRequest)
    (userId : UInt64) (response r : GateKeeperMessage .enrollResponse) (calls : Conversation) :
    Prop :=
  (∃ handle key hardwareBacked,
    r.error = response.error ∧
    r.body.enrolledPasswordHandle = ⟨some handle.bytes, sizeofPasswordHandle⟩ ∧
    handle.version = handleVersion ∧ handle.userId = userId ∧
    law .getPasswordKey (some key) ∧
    law (.computePasswordSignature key (toSign handle.version handle.userId handle.flags
      request.body.providedPassword) handle.salt) handle.signature ∧
    signing handle request.body.providedPassword key hardwareBacked handle.signature <:+ calls) ∨
  r.error = errorInvalid ∧ r.body = response.body

theorem Created.after {request : GateKeeperMessage .enrollRequest} {userId : UInt64}
    {response r : GateKeeperMessage .enrollResponse} {calls : Conversation}
    (h : Created law request userId response r calls) (before : Conversation) :
    Created law request userId response r (before ++ calls) := by
  rcases h with
    ⟨handle, key, hardwareBacked, herror, hbody, hversion, huserId, hkey, hsign, hlast⟩ | hinvalid
  · exact .inl ⟨handle, key, hardwareBacked, herror, hbody, hversion, huserId, hkey, hsign,
      hlast.trans (List.suffix_append before calls)⟩
  · exact .inr hinvalid

theorem enrollHandle_yields {request : GateKeeperMessage .enrollRequest}
    {response : GateKeeperMessage .enrollResponse} (hvalid : Signable request.body.providedPassword)
    {password : Bytes} (hpassword : request.body.providedPassword.buffer = some password)
    (userId flags : UInt64) (before : Conversation) :
    (enrollHandle request userId flags password response).Yields law fun r calls =>
      Created law request userId response r (before ++ calls) := by
  refine Yields.call_bind fun salt _ =>
    Yields.bind (createPasswordHandle_yields hvalid hpassword) ?_
  rintro created calls ⟨-, -, hcreated⟩
  cases created with
  | none => exact .inr ⟨rfl, rfl⟩
  | some handle =>
    obtain ⟨key, hardwareBacked, hversion, huserId, hflags, hsalt, hkey, hsign, hcalls⟩ :=
      hcreated handle rfl
    refine .inl ⟨handle, key, hardwareBacked, rfl, rfl, hversion, huserId, hkey, ?_, ?_⟩
    · rw [hversion, huserId, hflags, hsalt]
      exact hsign
    · rw [hcalls, List.append_nil]
      exact (List.suffix_cons _ _).trans (List.suffix_append before _)

theorem enrollPassword_yields {request : GateKeeperMessage .enrollRequest}
    {response : GateKeeperMessage .enrollResponse} (hvalid : Signable request.body.providedPassword)
    {password : Bytes} (hpassword : request.body.providedPassword.buffer = some password)
    (userId : UInt64) :
    (enrollPassword request userId password response).Yields law
      (Created law request userId response) := by
  rw [enrollPassword]
  refine Yields.call_bind fun cleared _ => ?_
  cases cleared with
  | true => exact enrollHandle_yields hvalid hpassword userId _ [_]
  | false =>
    exact Yields.call_bind fun _ _ => enrollHandle_yields hvalid hpassword userId _ [_, _]

/-- Whatever bytes are in a valid request and whatever the platform answers: a handle is
    returned, and a failure record cleared, only after its secure id was drawn, or the old
    password had matched the old handle under the secure id, with the failure counted before.
    The handle is that of the new password. -/
theorem enroll_sound {request : GateKeeperMessage .enrollRequest}
    {response : GateKeeperMessage .enrollResponse}
    (hvalid : (Request.enroll request response).Valid) :
    (enroll request response).Yields law fun r calls =>
      (r.error ≠ errorNone ∧ r.body = response.body ∧ NoClear calls) ∨
      ∃ userId start, Authorized request userId start ∧ start <+: calls ∧
        Created law request userId response r calls := by
  rw [enroll]
  cases hpassword : request.body.providedPassword.buffer with
  | none => exact .inl ⟨MessageKind.errorInvalid_ne, rfl, noClear_nil⟩
  | some password =>
    dsimp only
    cases hregion : request.body.passwordHandle.buffer with
    | none =>
      refine Yields.call_bind fun userId _ => ?_
      refine (enrollPassword_yields hvalid.2.1 hpassword userId).mono fun r calls hr => ?_
      exact .inr ⟨userId, _, .drawn userId hregion, List.prefix_append _ calls,
        hr.after [⟨.getRandom, userId⟩]⟩
    | some region =>
      refine Yields.bind (confirmEnrolled_yields hvalid hregion) ?_
      rintro confirmed calls ⟨hinl, hinr⟩
      cases confirmed with
      | inl response' =>
        obtain ⟨herror, hbody, hclear⟩ := hinl response' rfl
        exact .inl ⟨herror, hbody, by rwa [List.append_nil]⟩
      | inr userId =>
        refine (enrollPassword_yields hvalid.2.1 hpassword userId).mono fun r calls' hr => ?_
        exact .inr ⟨userId, calls, hinr userId rfl, List.prefix_append calls calls', hr.after calls⟩

/-- A change of password that confirms the old one. -/
def sampleEnroll : GateKeeperMessage .enrollRequest :=
  ⟨errorNone, 10, 0, ⟨sampleHandle, samplePassword, samplePassword⟩⟩

def sampleEnrollResponse : GateKeeperMessage .enrollResponse :=
  ⟨errorNone, 0, 0, ⟨SizedBuffer.empty⟩⟩

theorem sampleEnroll_valid : (Request.enroll sampleEnroll sampleEnrollResponse).Valid :=
  ⟨sampleHandle_valid, samplePassword_signable, samplePassword_signable⟩

theorem enroll_sound_sample :
    (enroll sampleEnroll sampleEnrollResponse).Yields (fun _ _ => True) fun r calls =>
      (r.error ≠ errorNone ∧ r.body = sampleEnrollResponse.body ∧ NoClear calls) ∨
      ∃ userId start, Authorized sampleEnroll userId start ∧ start <+: calls ∧
        Created (fun _ _ => True) sampleEnroll userId sampleEnrollResponse r calls :=
  enroll_sound sampleEnroll_valid

/-! ## Enrolled passwords -/

/-- A platform with one password key, and signatures that depend on nothing but what is
    signed and the salt. -/
structure Signs (law : (q : Query) → Answer q → Prop) (key : Bytes)
    (signature : Bytes → UInt64 → Field 32) : Prop where
  key_ne : key ≠ []
  getPasswordKey : ∀ a, law .getPasswordKey a → a = some key
  computePasswordSignature : ∀ signed salt s,
    law (.computePasswordSignature key signed salt) s → s = signature signed salt

section Signs

variable {key : Bytes} {signature : Bytes → UInt64 → Field 32}

/-- The signature of the password is that of the handle. -/
def Fits (signature : Bytes → UInt64 → Field 32) (handle : PasswordHandle)
    (password : SizedBuffer) : Prop :=
  signature (toSign handle.version handle.userId handle.flags password) handle.salt =
    handle.signature

theorem doVerify_signs (hsigns : Signs law key signature) {handle : PasswordHandle}
    {password : SizedBuffer} (hvalid : Signable password) :
    (doVerify handle password).Yields law fun r _ =>
      (r = true → Fits signature handle password) ∧
      (password.buffer ≠ none → Fits signature handle password → r = true) := by
  rw [doVerify]
  cases hbytes : password.buffer with
  | none => exact ⟨fun h => (by cases h), fun h => absurd rfl h⟩
  | some bytes =>
    refine Yields.bind (createPasswordHandle_yields hvalid hbytes) ?_
    rintro provided calls ⟨-, hnone, hprovided⟩
    cases provided with
    | none =>
      rcases hnone rfl with hkey | hkey
      · cases hsigns.getPasswordKey _ hkey
      · exact absurd (Option.some.inj (hsigns.getPasswordKey _ hkey)).symm hsigns.key_ne
    | some generated =>
      obtain ⟨key', -, hversion, huserId, hflags, hsalt, hkey, hsign, -⟩ := hprovided generated rfl
      obtain rfl := Option.some.inj (hsigns.getPasswordKey _ hkey)
      have hgenerated := hsigns.computePasswordSignature _ _ _ hsign
      have hcompare : memcmpS generated.signature.1 handle.signature.1 = 0 ↔
          Fits signature handle password := by
        rw [memcmpS_eq_zero_iff (by rw [generated.signature.2, handle.signature.2]), Fits,
          ← hgenerated, Subtype.ext_iff]
      exact ⟨fun hr => hcompare.mp (of_decide_eq_true hr), fun _ hfits =>
        decide_eq_true (hcompare.mpr hfits)⟩

theorem checkPassword_signs (hsigns : Signs law key signature) {handle : PasswordHandle}
    {password : SizedBuffer} {response : GateKeeperMessage k} (hvalid : Signable password) :
    (checkPassword uid handle timestamp password response).Yields law fun r _ =>
      (∀ response', r = .inl response' → Refused response response') ∧
      ∀ timeout verified, r = .inr (timeout, verified) →
        (verified = true → Fits signature handle password) ∧
        (password.buffer ≠ none → Fits signature handle password → verified = true) := by
  rw [checkPassword]
  refine Yields.ite (fun _ => ?_) fun _ => ?_
  · refine Yields.bind chargeAttempt_yields ?_
    rintro charged calls ⟨-, hinl, -⟩
    cases charged with
    | inl response' =>
      refine ⟨fun _ h => ?_, fun _ _ h => by cases h⟩
      cases h
      exact hinl response' rfl
    | inr timeout =>
      refine Yields.bind (doVerify_signs hsigns hvalid) fun verified calls' hverified => ?_
      refine ⟨fun _ h => (by cases h), fun _ _ h => ?_⟩
      cases h
      exact hverified
  · refine Yields.bind (doVerify_signs hsigns hvalid) fun verified calls' hverified => ?_
    refine ⟨fun _ h => (by cases h), fun _ _ h => ?_⟩
    cases h
    exact hverified

theorem verify_signs {layout : TokenLayout} (hsigns : Signs law key signature)
    {request : GateKeeperMessage .verifyRequest}
    {response : GateKeeperMessage .verifyResponse}
    (hvalid : (Request.verify request response).Valid) (hfresh : response.error = errorNone)
    {handle : PasswordHandle} (hregion : request.body.passwordHandle.buffer = some handle.bytes)
    (hversion : handle.version = handleVersion) :
    (verify layout request response).Yields law fun r _ =>
      (r.error = errorNone → Fits signature handle request.body.providedPassword) ∧
      (request.body.providedPassword.buffer ≠ none →
        Fits signature handle request.body.providedPassword → r.error ≠ errorInvalid) := by
  have hlen : ¬ request.body.passwordHandle.length < sizeofPasswordHandle := by
    rw [UInt32.lt_iff_toNat_lt, not_lt, ← hvalid.1.1 _ hregion, PasswordHandle.length_bytes]
    exact le_rfl
  have hcast : PasswordHandle.cast? handle.bytes = some handle := by
    have := PasswordHandle.cast?_bytes handle []
    rwa [List.append_nil] at this
  rw [verify]
  dsimp only
  split
  · next password region hpassword hregion' =>
    obtain rfl := Option.some.inj (hregion.symm.trans hregion')
    rw [if_neg hlen]
    refine Yields.access_bind hcast ?_
    rw [if_neg (by rw [hversion]; decide)]
    refine Yields.call_bind fun timestamp _ => Yields.bind (checkPassword_signs hsigns hvalid.2) ?_
    rintro checked calls ⟨hinl, hinr⟩
    cases checked with
    | inl response' =>
      have hrefused := hinl response' rfl
      refine ⟨fun h => absurd h hrefused.error_ne, fun _ _ hinvalid => ?_⟩
      rcases hrefused.1 with herror | herror
      · exact absurd (herror.symm.trans hinvalid) (by decide)
      · exact absurd (herror.symm.trans hinvalid) (by decide)
    | inr checked =>
      obtain ⟨timeout, verified⟩ := checked
      obtain ⟨hsound, hcomplete⟩ := hinr timeout verified rfl
      refine answerVerified_yields.mono fun r _ hr => ?_
      cases verified with
      | true =>
        refine ⟨fun _ => hsound rfl, fun _ _ hinvalid => ?_⟩
        have herror := (hr.1 rfl).1
        rw [hinvalid] at herror
        split_ifs at herror
        · exact absurd (herror.trans hfresh) (by decide)
        · exact absurd (herror.trans hfresh) (by decide)
      | false =>
        obtain ⟨herror, -, -⟩ := hr.2 rfl
        refine ⟨fun hnone => ?_, fun hbuffer hfits => by cases hcomplete hbuffer hfits⟩
        rw [hnone] at herror
        exact absurd herror (by decide)
  · next hnot =>
    refine ⟨fun h => absurd h MessageKind.errorInvalid_ne, fun hbuffer => ?_⟩
    cases hpassword : request.body.providedPassword.buffer with
    | none => exact absurd hpassword hbuffer
    | some password => exact absurd hregion (hnot password handle.bytes hpassword)

/-- A handle that `Enroll` returns for a password accepts that password from any user at any
    time unless the attempt is refused, and any other one only where its signature, under
    the handle's version, secure id, flags and salt, is that of the enrolled one. -/
theorem enroll_verify {layout : TokenLayout} (hsigns : Signs law key signature)
    {request : GateKeeperMessage .enrollRequest} {response : GateKeeperMessage .enrollResponse}
    (hvalid : (Request.enroll request response).Valid) :
    (enroll request response).Yields law fun r _ => r.error = errorNone →
      ∃ handle : PasswordHandle,
        r.body.enrolledPasswordHandle = ⟨some handle.bytes, sizeofPasswordHandle⟩ ∧
        Fits signature handle request.body.providedPassword ∧
        ∀ vrequest vresponse, (Request.verify vrequest vresponse).Valid →
          vresponse.error = errorNone →
          vrequest.body.passwordHandle = r.body.enrolledPasswordHandle →
          (verify layout vrequest vresponse).Yields law fun v _ =>
            (v.error = errorNone → Fits signature handle vrequest.body.providedPassword) ∧
            (vrequest.body.providedPassword = request.body.providedPassword →
              v.error ≠ errorInvalid) := by
  cases hpassword : request.body.providedPassword.buffer with
  | none =>
    rw [enroll, hpassword]
    exact fun h => absurd h MessageKind.errorInvalid_ne
  | some password =>
    refine (enroll_sound hvalid).mono fun r calls hr hnone => ?_
    obtain ⟨herror, -⟩ | ⟨userId, start, -, -, hcreated⟩ := hr
    · exact absurd hnone herror
    obtain ⟨handle, key', -, -, hbody, hversion, -, hkey, hsign, -⟩ | ⟨hinvalid, -⟩ := hcreated
    · obtain rfl := Option.some.inj (hsigns.getPasswordKey _ hkey)
      have hfits : Fits signature handle request.body.providedPassword :=
        (hsigns.computePasswordSignature _ _ _ hsign).symm
      refine ⟨handle, hbody, hfits, fun vrequest vresponse hv hvfresh hhandle => ?_⟩
      have hregion : vrequest.body.passwordHandle.buffer = some handle.bytes := by
        rw [hhandle, hbody]
      refine (verify_signs hsigns hv hvfresh hregion hversion).mono fun v _ hsaid => ?_
      refine ⟨hsaid.1, fun hsame => ?_⟩
      rw [hsame, hpassword] at hsaid
      exact hsaid.2 (Option.some_ne_none _) hfits
    · exact absurd (hinvalid.symm.trans hnone) (by decide)

end Signs

/-- The sum of what is signed and the salt, as a signature. -/
def sampleSignature (signed : Bytes) (salt : UInt64) : Field 32 :=
  ⟨leBytes 32 (leValue signed + salt.toNat), length_leBytes _ _⟩

/-- A platform with this signature and the key `[1]`. -/
def sampleLaw : (q : Query) → Answer q → Prop
  | .getPasswordKey, a => a = some [1]
  | .computePasswordSignature _ signed salt, s => s = sampleSignature signed salt
  | _, _ => True

theorem sampleLaw_signs : Signs sampleLaw [1] sampleSignature where
  key_ne := by decide
  getPasswordKey _ h := h
  computePasswordSignature _ _ _ h := h

/-- A first password, without an old handle. -/
def sampleFirst : GateKeeperMessage .enrollRequest :=
  ⟨errorNone, 10, 0, ⟨SizedBuffer.empty, SizedBuffer.empty, samplePassword⟩⟩

theorem sampleFirst_valid : (Request.enroll sampleFirst sampleEnrollResponse).Valid := by
  have hempty : SizedBuffer.empty.Valid := ⟨SizedBuffer.sound_of_none rfl, fun h => absurd rfl h⟩
  exact ⟨hempty, samplePassword_signable, hempty, by decide⟩

/-- On this platform the first password is always enrolled. -/
theorem enroll_sampleFirst : (enroll sampleFirst sampleEnrollResponse).Yields sampleLaw
    fun r _ => r.error = errorNone := by
  have hhandle (userId flags : UInt64) : (enrollHandle sampleFirst userId flags [1, 2, 3, 4]
      sampleEnrollResponse).Yields sampleLaw fun r _ => r.error = errorNone := by
    intro salt _ hardwareBacked _ key hkey
    obtain rfl : key = some [1] := hkey
    exact fun signature _ => rfl
  intro userId _ cleared _
  cases cleared with
  | true => exact (hhandle userId _).mono fun _ _ h => h
  | false => exact fun _ _ => (hhandle userId _).mono fun _ _ h => h

theorem enroll_verify_sample :
    (enroll sampleFirst sampleEnrollResponse).Yields sampleLaw fun r _ => r.error = errorNone ∧
      ∃ handle : PasswordHandle,
        r.body.enrolledPasswordHandle = ⟨some handle.bytes, sizeofPasswordHandle⟩ ∧
        Fits sampleSignature handle sampleFirst.body.providedPassword ∧
        ∀ vrequest vresponse, (Request.verify vrequest vresponse).Valid →
          vresponse.error = errorNone →
          vrequest.body.passwordHandle = r.body.enrolledPasswordHandle →
          (verify packedToken vrequest vresponse).Yields sampleLaw fun v _ =>
            (v.error = errorNone → Fits sampleSignature handle vrequest.body.providedPassword) ∧
            (vrequest.body.providedPassword = sampleFirst.body.providedPassword →
              v.error ≠ errorInvalid) :=
  (enroll_sampleFirst.and (enroll_verify sampleLaw_signs sampleFirst_valid)).mono
    fun _ _ h => ⟨h.1, h.2 h.1⟩

end Pro5Android.Gatekeeper
