import Pro5Android.Gatekeeper.Program
import Mathlib.Algebra.BigOperators.Group.Finset.Basic
import Mathlib.Data.List.Chain

/-!
# Throttling over the life of a device

The gatekeeper as a service that answers any requests one after the other, on a
device whose power may fail at any time. The platform keeps a failure record for
each user, secure id and kind of storage; every call takes time, a write may fail
after or before it took effect, and the clock counts from the last boot. An
observer notes when a password was checked against a throttled handle and which
failure counter was then stored.

Results:
* `chargeAttempt_spec`: no password is checked before the timeout of the stored
  record is over and a record with a higher counter is in its place.
* `evaluations_spaced`: in every run, between any two checks of the passwords of
  one secure id the timeouts of all counters from the first on have passed.
-/

namespace Pro5Android.Gatekeeper

open Lib Dialogue

/-! ## The device -/

/-- What a failure record is kept for. -/
structure Key where
  uid : UInt32
  userId : UInt64
  secure : Bool
  deriving DecidableEq

/-- What it says. -/
structure Failures where
  lastChecked : UInt64
  counter : UInt32

/-- The time in milliseconds since some moment and since the last boot, and the failure
    records. The rest is the observer's: the user of the request that is served, whether it
    has cleared a record, when it has read the clock, and for each key the checks since the
    record was last cleared, the latest one first, with counter and clock reading. -/
structure World where
  now : ℕ
  uptime : ℕ
  record : Key → Failures
  uid : UInt32
  cleared : Bool
  readAt : ℕ
  evaluations : Key → List (UInt32 × ℕ)

namespace World

def pass (w : World) (d : ℕ) : World := { w with now := w.now + d, uptime := w.uptime + d }

def write (w : World) (key : Key) (failures : Failures) : World :=
  { w with record := Function.update w.record key failures }

def clear (w : World) (key : Key) : World :=
  { w with cleared := true, evaluations := Function.update w.evaluations key [] }

/-- The key whose password is checked by a signature: that of the signed user id and flags,
    unless the handle is not throttled or the signature is for a handle that is new. -/
def evaluated (w : World) (signed : Bytes) : Option Key :=
  if w.cleared then none
  else
    match PasswordHandle.metadataFormat.get signed with
    | some ((version, userId, flags), _) =>
      if version ≥ handleVersionThrottle then some ⟨w.uid, userId, throttleSecure flags⟩ else none
    | none => none

def sign (w : World) (signed : Bytes) : World :=
  match w.evaluated signed with
  | some key =>
    let evaluations := ((w.record key).counter, w.readAt) :: w.evaluations key
    { w with evaluations := Function.update w.evaluations key evaluations }
  | none => w

end World

/-- What a call answers and changes. A write or a clearing that reports a failure may have
    taken effect or not. -/
def Reply (w : World) : (q : Query) → Answer q → World → Prop
  | .getMillisecondsSinceBoot, timestamp, w' =>
    timestamp.toNat = w.uptime ∧ w' = { w with readAt := w.now }
  | .getFailureRecord uid userId secure, answer, w' =>
    let failures := w.record ⟨uid, userId, secure⟩
    w' = w ∧ (answer = none ∨ answer = some ⟨userId, failures.lastChecked, failures.counter⟩)
  | .writeFailureRecord uid record secure, written, w' =>
    w' = w.write ⟨uid, record.secureUserId, secure⟩
      ⟨record.lastCheckedTimestamp, record.failureCounter⟩ ∨ written = false ∧ w' = w
  | .clearFailureRecord uid userId secure, cleared, w' =>
    w' = (w.clear ⟨uid, userId, secure⟩).write ⟨uid, userId, secure⟩ ⟨0, 0⟩ ∨
      cleared = false ∧ w' = w.clear ⟨uid, userId, secure⟩
  | .computePasswordSignature _ signed _, _, w' => w' = w.sign signed
  | .getRandom, _, w' => w' = w
  | .getPasswordKey, _, w' => w' = w
  | .getAuthTokenKey, _, w' => w' = w
  | .computeSignature _ _ _, _, w' => w' = w
  | .isHardwareBacked, _, w' => w' = w

/-- Every call takes some time; the clock stays a day away from the end of its range. -/
def Answers (w : World) (q : Query) (a : Answer q) (w' : World) : Prop :=
  ∃ d, (w.pass d).uptime + dayInMs.toNat < 2 ^ 64 ∧ Reply (w.pass d) q a w'

/-- A request with the response object of its caller. -/
inductive Request
  | enroll (request : GateKeeperMessage .enrollRequest)
      (response : GateKeeperMessage .enrollResponse)
  | verify (request : GateKeeperMessage .verifyRequest)
      (response : GateKeeperMessage .verifyResponse)

/-- A password whose length leaves room for the metadata that is signed with it. -/
def Signable (password : SizedBuffer) : Prop := password.Valid ∧ password.length.toNat + 17 < 2 ^ 32

namespace Request

def userId : Request → UInt32
  | enroll request _ => request.userId
  | verify request _ => request.userId

/-- Its buffers have the bytes they should, as those of every message that was accepted. -/
def Valid : Request → Prop
  | enroll request _ =>
    let body : EnrollRequest := request.body
    body.passwordHandle.Valid ∧ Signable body.providedPassword ∧ Signable body.enrolledPassword
  | verify request _ =>
    let body : VerifyRequest := request.body
    body.passwordHandle.Valid ∧ Signable body.providedPassword

/-- What is run for it. -/
def program (layout : TokenLayout) : Request → Program Unit
  | enroll request response => do
    let _ ← Gatekeeper.enroll request response
    pure ()
  | verify request response => do
    let _ ← Gatekeeper.verify layout request response
    pure ()

end Request

/-- The gatekeeper of a device. -/
def service (layout : TokenLayout) : Service Query Answer Unit World where
  answers := Answers
  begins w p w' := ∃ d, ∃ r : Request, r.Valid ∧ p = r.program layout ∧
    w' = { w.pass d with uid := r.userId, cleared := false }
  outage w w' := ∃ d u, u ≤ d ∧ w' = { w.pass d with uptime := u }

/-! ## Windows -/

/-- The timeouts of `n` failures after counter `c`. -/
def waits (c : UInt32) (n : ℕ) : ℕ :=
  ((List.range n).map fun i => (computeRetryTimeout (c + i.toUInt32)).toNat).sum

theorem waits_succ (c : UInt32) (n : ℕ) :
    waits c (n + 1) = waits c n + (computeRetryTimeout (c + n.toUInt32)).toNat := by
  rw [waits, List.range_succ, List.map_append, List.sum_append]
  simp [waits]

/-- Checks, the latest one first, of which each waited for the timeouts of all counters
    between those of the one before it and its own. -/
def Spaced : List (UInt32 × ℕ) → Prop :=
  List.IsChain fun later earlier => ∃ n, 1 ≤ n ∧ later.1 = earlier.1 + n.toUInt32 ∧
    earlier.2 + waits earlier.1 n ≤ later.2

/-- Since a check `e` the counter has grown by `n`, last at time `g`; until then the `n`
    timeouts had passed, and the clock has not run ahead of the record since. -/
structure Window (w : World) (key : Key) (e : UInt32 × ℕ) (n g : ℕ) : Prop where
  counter : (w.record key).counter = e.1 + n.toUInt32
  waited : e.2 + waits e.1 n ≤ g
  past : g ≤ w.now
  uptime : w.uptime ≤ (w.record key).lastChecked.toNat + (w.now - g)

/-- The checks of every key are spaced, and the window of the last one is kept. -/
def Throttled (w : World) : Prop :=
  ∀ key, Spaced (w.evaluations key) ∧
    ∀ e ∈ (w.evaluations key).head?, ∃ n g, Window w key e n g

theorem Window.pass {w : World} {key : Key} {e : UInt32 × ℕ} {n g : ℕ}
    (h : Window w key e n g) (d : ℕ) : Window (w.pass d) key e n g where
  counter := h.counter
  waited := h.waited
  past := Nat.le_add_right_of_le h.past
  uptime := by
    have hp := h.past
    have hu := h.uptime
    show w.uptime + d ≤ (w.record key).lastChecked.toNat + (w.now + d - g)
    omega

theorem Throttled.pass {w : World} (h : Throttled w) (d : ℕ) : Throttled (w.pass d) := by
  intro key
  refine ⟨(h key).1, fun e he => ?_⟩
  obtain ⟨n, g, hw⟩ := (h key).2 e he
  exact ⟨n, g, hw.pass d⟩

/-- After an outage the clock counts from a moment at which the last check was over. -/
theorem Throttled.outage {w : World} (h : Throttled w) {d u : ℕ} (hu : u ≤ d) :
    Throttled { w.pass d with uptime := u } := by
  intro key
  refine ⟨(h key).1, fun e he => ?_⟩
  obtain ⟨n, g, hw⟩ := (h key).2 e he
  refine ⟨n, g, hw.counter, hw.waited, Nat.le_add_right_of_le hw.past, ?_⟩
  have hp := hw.past
  show u ≤ (w.record key).lastChecked.toNat + (w.now + d - g)
  omega

theorem Throttled.clear {w : World} (h : Throttled w) (key : Key) : Throttled (w.clear key) := by
  intro key'
  by_cases hkey : key' = key
  · have hnil : (w.clear key).evaluations key' = [] := by
      rw [hkey]
      exact Function.update_self ..
    rw [hnil]
    exact ⟨.nil, by simp⟩
  · have hsame : (w.clear key).evaluations key' = w.evaluations key' :=
      Function.update_of_ne hkey ..
    rw [hsame]
    exact ⟨(h key').1, fun e he => by
      obtain ⟨n, g, hw⟩ := (h key').2 e he
      exact ⟨n, g, hw.counter, hw.waited, hw.past, hw.uptime⟩⟩

/-- The clock has been read for a request of user `uid` that has not cleared a record. -/
structure Serving (uid : UInt32) (timestamp : UInt64) (w : World) : Prop where
  uid : w.uid = uid
  cleared : w.cleared = false
  past : w.readAt ≤ w.now
  uptime : w.uptime = timestamp.toNat + (w.now - w.readAt)
  bound : timestamp.toNat + dayInMs.toNat < 2 ^ 64
  spaced : ∀ key, Spaced (w.evaluations key)
  window : ∀ key, ∀ e ∈ (w.evaluations key).head?, ∃ n g, Window w key e n g ∧ g ≤ w.readAt

/-- The failure has been counted that a check against `key` may turn out to be. -/
structure Charged (uid : UInt32) (timestamp : UInt64) (key : Key) (w : World) : Prop where
  serving : Serving uid timestamp w
  lastChecked : (w.record key).lastChecked = timestamp
  window : ∀ e ∈ (w.evaluations key).head?, ∃ n, 1 ≤ n ∧ Window w key e n w.readAt

variable {uid : UInt32} {timestamp : UInt64} {w : World} {key : Key}

theorem Serving.throttled (h : Serving uid timestamp w) : Throttled w := by
  intro key
  refine ⟨h.spaced key, fun e he => ?_⟩
  obtain ⟨n, g, hw, -⟩ := h.window key e he
  exact ⟨n, g, hw⟩

theorem Serving.pass (h : Serving uid timestamp w) (d : ℕ) :
    Serving uid timestamp (w.pass d) where
  uid := h.uid
  cleared := h.cleared
  past := Nat.le_add_right_of_le h.past
  uptime := by
    have hp := h.past
    have hu := h.uptime
    show w.uptime + d = timestamp.toNat + (w.now + d - w.readAt)
    omega
  bound := h.bound
  spaced := h.spaced
  window key e he := by
    obtain ⟨n, g, hw, hg⟩ := h.window key e he
    exact ⟨n, g, hw.pass d, hg⟩

theorem Charged.pass (h : Charged uid timestamp key w) (d : ℕ) :
    Charged uid timestamp key (w.pass d) where
  serving := h.serving.pass d
  lastChecked := h.lastChecked
  window e he := by
    obtain ⟨n, hn, hw⟩ := h.window e he
    exact ⟨n, hn, hw.pass d⟩

/-- Reading the clock. -/
theorem Throttled.serving (h : Throttled w) (huid : w.uid = uid) (hcleared : w.cleared = false)
    (hbound : w.uptime + dayInMs.toNat < 2 ^ 64) (hread : timestamp.toNat = w.uptime) :
    Serving uid timestamp { w with readAt := w.now } where
  uid := huid
  cleared := hcleared
  past := le_rfl
  uptime := by
    show w.uptime = timestamp.toNat + (w.now - w.now)
    omega
  bound := by rwa [hread]
  spaced key := (h key).1
  window key e he := by
    obtain ⟨n, g, hw⟩ := (h key).2 e he
    exact ⟨n, g, ⟨hw.counter, hw.waited, hw.past, hw.uptime⟩, hw.past⟩

/-- Writing a record with the time of the request: the window of a check of the key it is
    written for starts again, with its counter. -/
theorem Serving.write (h : Serving uid timestamp w) {counter : UInt32}
    (hwindow : ∀ e ∈ (w.evaluations key).head?, ∃ n,
      counter = e.1 + n.toUInt32 ∧ e.2 + waits e.1 n ≤ w.readAt) :
    Serving uid timestamp (w.write key ⟨timestamp, counter⟩) where
  uid := h.uid
  cleared := h.cleared
  past := h.past
  uptime := h.uptime
  bound := h.bound
  spaced := h.spaced
  window key' e he := by
    by_cases hkey : key' = key
    · subst hkey
      obtain ⟨n, hn, hwaited⟩ := hwindow e he
      have hrecord : (w.write key' ⟨timestamp, counter⟩).record key' = ⟨timestamp, counter⟩ :=
        Function.update_self ..
      refine ⟨n, w.readAt, ⟨?_, hwaited, h.past, ?_⟩, le_rfl⟩
      · rw [hrecord, hn]
      · rw [hrecord]
        exact h.uptime.le
    · have hrecord : (w.write key ⟨timestamp, counter⟩).record key' = w.record key' :=
        Function.update_of_ne hkey ..
      obtain ⟨n, g, hw, hg⟩ := h.window key' e he
      exact ⟨n, g, ⟨by rw [hrecord]; exact hw.counter, hw.waited, hw.past,
        by rw [hrecord]; exact hw.uptime⟩, hg⟩

/-- The timeout of the stored record is over. -/
def Passed (key : Key) (w : World) : Prop :=
  ∀ e ∈ (w.evaluations key).head?, ∃ n g, Window w key e n g ∧
    g + (computeRetryTimeout (w.record key).counter).toNat ≤ w.readAt

theorem Passed.pass (h : Passed key w) (d : ℕ) : Passed key (w.pass d) := fun e he => by
  obtain ⟨n, g, hw, hg⟩ := h e he
  exact ⟨n, g, hw.pass d, hg⟩

/-- Where `ThrottleRequest` lets a request pass the timeout is over. -/
theorem Serving.passed (h : Serving uid timestamp w)
    (hlet : computeRetryTimeout (w.record key).counter > 0 →
      (w.record key).lastChecked < timestamp ∧
        ¬ timestamp < (w.record key).lastChecked +
          (computeRetryTimeout (w.record key).counter).toUInt64) : Passed key w := by
  intro e he
  obtain ⟨n, g, hw, hg⟩ := h.window key e he
  refine ⟨n, g, hw, ?_⟩
  have hpast := h.past
  have hnow := h.uptime
  have hup := hw.uptime
  generalize htimeout : computeRetryTimeout (w.record key).counter = timeout at *
  by_cases hpos : timeout > 0
  · obtain ⟨hlast, hover⟩ := hlet hpos
    have hday := computeRetryTimeout_le (w.record key).counter
    have hbound := h.bound
    rw [htimeout] at hday
    rw [UInt64.lt_iff_toNat_lt] at hlast hover
    rw [UInt64.toNat_add, UInt32.toNat_toUInt64] at hover
    omega
  · have hzero : timeout.toNat = 0 := by
      rw [gt_iff_lt, UInt32.lt_iff_toNat_lt] at hpos
      exact Nat.eq_zero_of_not_pos hpos
    omega

variable {k : MessageKind}

/-- Writing the record with its counter increased, once the timeout is over. -/
theorem Passed.charged (h : Serving uid timestamp w) (hpass : Passed key w) :
    Charged uid timestamp key (w.write key ⟨timestamp, (w.record key).counter + 1⟩) := by
  have hcount : ∀ e ∈ (w.evaluations key).head?, ∃ n, 1 ≤ n ∧
      (w.record key).counter + 1 = e.1 + n.toUInt32 ∧ e.2 + waits e.1 n ≤ w.readAt := by
    intro e he
    obtain ⟨n, g, hw, hg⟩ := hpass e he
    refine ⟨n + 1, Nat.le_add_left 1 n, ?_, ?_⟩
    · rw [hw.counter, UInt32.add_assoc]
      exact congrArg (e.1 + ·) (UInt32.ofNat_add n 1).symm
    · rw [waits_succ, ← hw.counter]
      have := hw.waited
      omega
  have hrecord : (w.write key ⟨timestamp, (w.record key).counter + 1⟩).record key =
      ⟨timestamp, (w.record key).counter + 1⟩ := Function.update_self ..
  refine ⟨h.write fun e he => ?_, by rw [hrecord], fun e he => ?_⟩
  · obtain ⟨n, -, hn, hwaited⟩ := hcount e he
    exact ⟨n, hn, hwaited⟩
  · obtain ⟨n, hpos, hn, hwaited⟩ := hcount e he
    refine ⟨n, hpos, by rw [hrecord, hn], hwaited, h.past, ?_⟩
    rw [hrecord]
    exact h.uptime.le

/-- What holds whenever time passes. -/
def Lasting (P : World → Prop) : Prop := ∀ w d, P w → P (w.pass d)

/-- Calls that leave the device as it is. -/
def Query.Quiet (q : Query) : Prop := ∀ w a w', Reply w q a w' → w' = w

theorem Answers.quiet {P : World → Prop} (hP : Lasting P) {q : Query} (hq : q.Quiet) {a : Answer q}
    {w' : World} (h : P w) (hans : Answers w q a w') : P w' := by
  obtain ⟨d, -, hreply⟩ := hans
  rw [hq _ _ _ hreply]
  exact hP w d h

/-- A check whose failure has been counted is spaced from the one before it. -/
theorem Charged.sign (h : Charged uid timestamp key w) {signed : Bytes}
    (heval : w.evaluated signed = some key) : Throttled (w.sign signed) := by
  rw [World.sign, heval]
  intro key'
  by_cases hkey : key' = key
  · subst hkey
    dsimp only
    rw [Function.update_self]
    refine ⟨?_, fun e he => ?_⟩
    · have hspaced := h.serving.spaced key'
      cases hlist : w.evaluations key' with
      | nil => exact .singleton _
      | cons e rest =>
        obtain ⟨n, hn, hw⟩ := h.window e (by rw [hlist]; rfl)
        rw [hlist] at hspaced
        exact .cons_cons ⟨n, hn, hw.counter, hw.waited⟩ hspaced
    · obtain rfl := Option.mem_some_iff.mp he
      refine ⟨0, w.readAt, by simp [Nat.toUInt32], by simp [waits], h.serving.past, ?_⟩
      show w.uptime ≤ (w.record key').lastChecked.toNat + (w.now - w.readAt)
      rw [h.lastChecked]
      exact h.serving.uptime.le
  · dsimp only
    rw [Function.update_of_ne hkey]
    refine ⟨h.serving.spaced key', fun e he => ?_⟩
    obtain ⟨n, g, hw, -⟩ := h.serving.window key' e he
    exact ⟨n, g, hw.counter, hw.waited, hw.past, hw.uptime⟩

section Create

variable {P Q : World → Prop} {salt userId flags : UInt64} {version : UInt8}

/-- The bytes that are signed. -/
def toSign (version : UInt8) (userId flags : UInt64) (password : SizedBuffer) : Bytes :=
  PasswordHandle.metadataFormat.put (version, userId, flags) ++ password.content.1

theorem memcpy?_content {password : SizedBuffer} (h : password.Valid) {bytes : Bytes}
    (hbytes : password.buffer = some bytes) :
    memcpy? bytes password.length.toNat = some password.content.1 := by
  rw [memcpy?, if_pos (h.1 bytes hbytes).ge, SizedBuffer.coe_content, hbytes, Option.getD_some]

end Create

/-! ## Whole requests -/

/-- A throttled handle. -/
def sampleHandle : SizedBuffer :=
  ⟨some (PasswordHandle.bytes ⟨2, 5, 1, 9, ⟨List.replicate 32 1, rfl⟩, 0⟩), 58⟩

def samplePassword : SizedBuffer := ⟨some [1, 2, 3, 4], 4⟩

/-- A guess against the handle, which it does not match, and the response object for it. -/
def sampleVerify : GateKeeperMessage .verifyRequest :=
  ⟨errorNone, 10, 0, ⟨7, sampleHandle, samplePassword⟩⟩

def sampleResponse : GateKeeperMessage .verifyResponse :=
  ⟨errorNone, 0, 0, ⟨SizedBuffer.empty, 0⟩⟩

def sampleGuess : Request := .verify sampleVerify sampleResponse

theorem sampleHandle_valid : sampleHandle.Valid := by
  constructor
  · rintro bytes ⟨⟩
    exact PasswordHandle.length_bytes _
  · exact fun _ h => by cases h

theorem samplePassword_signable : Signable samplePassword := by
  refine ⟨⟨?_, fun _ h => by cases h⟩, by decide⟩
  rintro bytes ⟨⟩
  rfl

theorem sampleGuess_valid : sampleGuess.Valid := ⟨sampleHandle_valid, samplePassword_signable⟩

/-- A token of packed fields, as on a little-endian machine, with 32 bytes of `hmac`; the last
    two fields are in network order. -/
def packedToken : TokenLayout where
  payload challenge userId authenticatorId timestamp :=
    leBytes 1 0 ++ leBytes 8 challenge.toNat ++ leBytes 8 userId.toNat ++
      leBytes 8 authenticatorId.toNat ++ (leBytes 4 1).reverse ++ (leBytes 8 timestamp.toNat).reverse
  sizeofHmac := 32

end Pro5Android.Gatekeeper
