import Mathlib.Data.Int.Notation
import Mathlib.Data.Nat.Notation
import Mathlib.Tactic.SplitIfs

/-!
# The HiFi re-evaluation of the mixer thread

What `0001-m86-checkpoint-validated-Android-12-baseline.patch` adds to the
`MixerThread` of `Threads.cpp`: the request (patch lines 119–128, 142–146, 320–332),
the arbitration between the active tracks (lines 191–235), and the way its result
reaches the output stream (lines 242–315).

The rest of AudioFlinger is not in the repository. What an event finds (the user's
property, the devices, the active tracks) is given with the event. The answers of the
output stream are a parameter and may depend on every call before; a call that it
accepts sets its HiFi state and its rate, which `readOutputParameters_l` then reads, and
a call that it refuses or `standby` leaves both. A parameter string is the record of its
values. For these parameters `checkForNewParameter_l` has a status of `NO_ERROR` and
`reconfig` set where the patch goes on.

Results:
* `requestM86HifiRecompute_cases`: what a request does.
* `called_applyDesired`: what applying the desired parameters leaves.
* `checkForNewParameter_cases`: the three ways of an event.
-/

namespace Pro5Android.Flinger

/-! ## Data -/

/-- `status_t`. -/
abbrev Status := ℤ

def noError : Status := 0

/-- `-ENOSYS`. -/
def invalidOperation : Status := -38

/-- `type_t`. -/
inductive ThreadType
  | mixer
  | other
  deriving DecidableEq

/-- `audio_stream_type_t`. -/
inductive StreamType
  | system
  | music
  | other
  deriving DecidableEq

/-- `audio_usage_t`. -/
inductive Usage
  | media
  | other
  deriving DecidableEq

/-- What the arbitration reads of a track: `linearPcm` is `audio_is_linear_pcm` of its
    format, `channelCount` that of its channel mask. -/
structure Track where
  streamType : StreamType
  usage : Usage
  linearPcm : Bool
  channelCount : ℕ
  sampleRate : ℕ

/-- What an event finds: `persist.vendor.m86.hifi.enabled`, a wired device among
    `outDeviceTypes()`, and `mActiveTracks`. -/
structure Surroundings where
  userEnabled : Bool
  wired : Bool
  activeTracks : List Track

/-- `"hifi_state=%s;sampling_rate=%u"`. -/
structure OutputParameters where
  hifiState : Bool
  samplingRate : ℕ
  deriving DecidableEq

/-- A call of the output stream, with the status it returned. -/
inductive StreamCall
  | standby
  | setParameters (parameters : OutputParameters) (status : Status)
  deriving DecidableEq

/-- The answers of the output stream; the calls before are given newest first. -/
abbrev StreamOut := List StreamCall → OutputParameters → Status

/-- A configuration event: `"m86_hifi_recompute=%d"` or another one. -/
inductive ConfigEvent
  | m86HifiRecompute (value : ℤ)
  | other
  deriving DecidableEq

/-- A `m86_hifi_recompute` event. -/
def ConfigEvent.isRecompute : ConfigEvent → Bool
  | m86HifiRecompute _ => true
  | other => false

/-- The members of `MixerThread`, and the calls of its output stream. -/
structure MixerThread where
  type : ThreadType
  sampleRate : ℕ
  standby : Bool
  m86NormalSampleRate : ℕ
  m86HifiRouteRate : ℕ
  m86HifiRouteActive : Bool
  m86HifiRecomputeQueued : Bool
  m86HifiForceReopenQueued : Bool
  configEvents : List ConfigEvent
  calls : List StreamCall

/-! ## Arbitration -/

/-- `supportedRate` (lines 209–211). -/
def supportedRate (rate : ℕ) : Bool :=
  rate == 44100 || rate == 48000 || rate == 88200 || rate == 96000 || rate == 176400 ||
    rate == 192000

/-- `media` (lines 212–213). -/
def Track.media (track : Track) : Bool := track.usage == .media || track.streamType == .music

/-- The loop over the active tracks (lines 204–221), on `compatible` and
    `commonRate`. -/
def tracksLoop : List Track → Bool → ℕ → Bool × ℕ
  | [], compatible, commonRate => (compatible, commonRate)
  | track :: tracks, compatible, commonRate =>
    if track.streamType = .system then tracksLoop tracks compatible commonRate
    else if !track.media || !track.linearPcm || track.channelCount != 2 ||
        !supportedRate track.sampleRate ||
        (commonRate != 0 && commonRate != track.sampleRate) then
      (false, commonRate)
    else tracksLoop tracks compatible track.sampleRate

namespace MixerThread

/-- `m86DesiredActive` and `m86DesiredRate` (lines 197–223). -/
def desired (t : MixerThread) (e : Surroundings) : OutputParameters :=
  let (compatible, commonRate) := tracksLoop e.activeTracks (e.userEnabled && e.wired) 0
  let desiredActive := compatible && commonRate != 0
  ⟨desiredActive, if desiredActive then commonRate else t.m86NormalSampleRate⟩

/-! ## Requests -/

/-- The constructor (lines 173–177). -/
def start (type : ThreadType) (sampleRate : ℕ) : MixerThread where
  type := type
  sampleRate := sampleRate
  standby := true
  m86NormalSampleRate := sampleRate
  m86HifiRouteRate := 0
  m86HifiRouteActive := false
  m86HifiRecomputeQueued := false
  m86HifiForceReopenQueued := false
  configEvents := []
  calls := []

/-- `sendSetParameterConfigEventAsync_l` (lines 121–128), and the other ways to queue
    an event. -/
def sendConfigEvent (event : ConfigEvent) (t : MixerThread) : MixerThread :=
  { t with configEvents := t.configEvents ++ [event] }

/-- `requestM86HifiRecompute_l` (lines 320–332). -/
def requestM86HifiRecompute (forceReopen : Bool) (t : MixerThread) : MixerThread :=
  if t.type ≠ .mixer then t
  else
    let t := { t with m86HifiForceReopenQueued := t.m86HifiForceReopenQueued || forceReopen }
    if t.m86HifiRecomputeQueued then t
    else
      sendConfigEvent (.m86HifiRecompute (if forceReopen then 2 else 1))
        { t with m86HifiRecomputeQueued := true }

/-- `m86ForceReopen` (line 193). -/
def forceReopen (value : ℤ) (t : MixerThread) : Bool :=
  decide (value > 1) || t.m86HifiForceReopenQueued

/-- Both flags go down (lines 194–195). -/
def clearQueued (t : MixerThread) : MixerThread :=
  { t with m86HifiRecomputeQueued := false, m86HifiForceReopenQueued := false }

/-! ## The output stream -/

/-- The parameters that the output stream accepted last. -/
def lastAccepted : List StreamCall → Option OutputParameters
  | [] => none
  | .setParameters parameters status :: calls =>
    if status = noError then some parameters else lastAccepted calls
  | .standby :: calls => lastAccepted calls

/-- What the output stream is set to: what it accepted last; at first HiFi is off, and
    the rate is the one that the constructor read. -/
def setting (t : MixerThread) : OutputParameters :=
  (lastAccepted t.calls).getD ⟨false, t.m86NormalSampleRate⟩

/-- `mOutput->standby()`, with `mStandby` (lines 246–250, 255–259). -/
def standbyOutput (t : MixerThread) : MixerThread :=
  { t with standby := true, calls := .standby :: t.calls }

/-- `mOutput->stream->setParameters`. -/
def setParameters (stream : StreamOut) (p : OutputParameters) (t : MixerThread) :
    Status × MixerThread :=
  let status := stream t.calls p
  (status, { t with calls := .setParameters p status :: t.calls })

/-- The same, once more from standby if the stream asks for it (lines 253–263,
    268–277). -/
def setParametersRetrying (stream : StreamOut) (p : OutputParameters) (t : MixerThread) :
    Status × MixerThread :=
  let (status, t) := t.setParameters stream p
  if !t.standby && status = invalidOperation then t.standbyOutput.setParameters stream p
  else (status, t)

/-- `readOutputParameters_l`, and the event that tells of the change (lines 291, 309). -/
def readOutputParameters (t : MixerThread) : MixerThread :=
  { t with
    sampleRate := t.setting.samplingRate
    configEvents := t.configEvents ++ [.other] }

/-- The route is what was accepted (lines 311–314). -/
def commitRoute (p : OutputParameters) (t : MixerThread) : MixerThread :=
  { t with
    m86HifiRouteActive := p.hifiState
    m86HifiRouteRate := if p.hifiState then p.samplingRate else 0 }

/-- The test for nothing to do (lines 231–232). -/
def upToDate (p : OutputParameters) (t : MixerThread) : Bool :=
  p.hifiState == t.m86HifiRouteActive && t.sampleRate == p.samplingRate

/-- The output that plays is closed before a forced apply (lines 244–252). -/
def closeForReopen (force : Bool) (t : MixerThread) : MixerThread :=
  if force && !t.standby then t.standbyOutput else t

/-- `rollback` (lines 266–267). -/
def rollback (t : MixerThread) : OutputParameters := ⟨false, t.m86NormalSampleRate⟩

/-- Applying what is desired, and going back where an activation fails (lines
    253–285): the status, what the route is to be, and the thread. -/
def applyDesired (stream : StreamOut) (p : OutputParameters) (t : MixerThread) :
    Status × OutputParameters × MixerThread :=
  let (status, t) := t.setParametersRetrying stream p
  if p.hifiState ∧ status ≠ noError then
    let (rollbackStatus, t') := t.setParametersRetrying stream t.rollback
    if rollbackStatus = noError then (noError, t.rollback, t') else (status, p, t')
  else (status, p, t)

/-- `checkForNewParameter_l` on a `m86_hifi_recompute` event (lines 191–317): the
    status, `reconfig` and the thread. -/
def checkForNewParameter (stream : StreamOut) (value : ℤ) (e : Surroundings) (t : MixerThread) :
    Status × Bool × MixerThread :=
  let force := t.forceReopen value
  let t := t.clearQueued
  let p := t.desired e
  if !force && t.upToDate p then (noError, false, t)
  else
    let (status, p, t) := (t.closeForReopen force).applyDesired stream p
    if status = noError then (status, true, t.readOutputParameters.commitRoute p)
    else (status, true, t)

/-! ## What they do -/

section

variable {stream : StreamOut} {t : MixerThread}

/-- A request is dropped, joins the event that is queued, or queues one. -/
theorem requestM86HifiRecompute_cases (force : Bool) (t : MixerThread) :
    (t.type ≠ .mixer ∧ t.requestM86HifiRecompute force = t) ∨
    (t.type = .mixer ∧ t.m86HifiRecomputeQueued = true ∧ t.requestM86HifiRecompute force =
      { t with m86HifiForceReopenQueued := t.m86HifiForceReopenQueued || force }) ∨
    (t.type = .mixer ∧ t.m86HifiRecomputeQueued = false ∧ t.requestM86HifiRecompute force =
      { t with
        m86HifiRecomputeQueued := true
        m86HifiForceReopenQueued := t.m86HifiForceReopenQueued || force
        configEvents := t.configEvents ++ [.m86HifiRecompute (if force then 2 else 1)] }) := by
  unfold requestM86HifiRecompute
  by_cases htype : t.type = .mixer
  · rw [if_neg (not_not_intro htype)]
    cases hqueued : t.m86HifiRecomputeQueued with
    | false =>
      refine .inr (.inr ⟨htype, rfl, ?_⟩)
      dsimp only
      rw [if_neg Bool.false_ne_true]
      rfl
    | true => exact .inr (.inl ⟨htype, rfl, if_pos rfl⟩)
  · exact .inl ⟨htype, if_pos htype⟩

/-- Only the output stream has been used. -/
def OnlyOutput (t t' : MixerThread) : Prop :=
  ∃ standby calls, t' = { t with standby := standby, calls := calls }

theorem OnlyOutput.trans {t' t'' : MixerThread} (h : OnlyOutput t t') (h' : OnlyOutput t' t'') :
    OnlyOutput t t'' := by
  obtain ⟨_, _, rfl⟩ := h
  obtain ⟨standby, calls, rfl⟩ := h'
  exact ⟨standby, calls, rfl⟩

theorem lastAccepted_setParameters (p : OutputParameters) (status : Status)
    (calls : List StreamCall) :
    lastAccepted (.setParameters p status :: calls) =
      if status = noError then some p else lastAccepted calls := rfl

theorem lastAccepted_standby (calls : List StreamCall) :
    lastAccepted (.standby :: calls) = lastAccepted calls := rfl

/-- What a call leaves: the stream is set if it accepts, and as before otherwise. -/
structure Called (p : OutputParameters) (t : MixerThread) (result : Status × MixerThread) :
    Prop where
  onlyOutput : OnlyOutput t result.2
  accepted : result.1 = noError → lastAccepted result.2.calls = some p
  refused : result.1 ≠ noError → lastAccepted result.2.calls = lastAccepted t.calls

theorem called_setParameters (stream : StreamOut) (p : OutputParameters) (t : MixerThread) :
    Called p t (t.setParameters stream p) := by
  refine ⟨⟨_, _, rfl⟩, fun hstatus => ?_, fun hstatus => ?_⟩
  · exact (lastAccepted_setParameters _ _ _).trans (if_pos hstatus)
  · exact (lastAccepted_setParameters _ _ _).trans (if_neg hstatus)

theorem called_setParametersRetrying (stream : StreamOut) (p : OutputParameters)
    (t : MixerThread) : Called p t (t.setParametersRetrying stream p) := by
  have hfirst := called_setParameters stream p t
  unfold setParametersRetrying
  dsimp only
  split_ifs with hretry
  · -- the first answer is `INVALID_OPERATION`, so the first call changed nothing
    have hstatus : (t.setParameters stream p).1 = invalidOperation := by
      rw [Bool.and_eq_true, decide_eq_true_iff] at hretry
      exact hretry.2
    have hsame : lastAccepted (t.setParameters stream p).2.calls = lastAccepted t.calls := by
      apply hfirst.refused
      rw [hstatus]
      decide
    have hsecond := called_setParameters stream p (t.setParameters stream p).2.standbyOutput
    refine ⟨?_, hsecond.accepted, fun h => ?_⟩
    · exact (hfirst.onlyOutput.trans ⟨_, _, rfl⟩).trans hsecond.onlyOutput
    · rw [hsecond.refused h, ← hsame]
      exact lastAccepted_standby _
  · exact hfirst

theorem onlyOutput_closeForReopen (force : Bool) (t : MixerThread) :
    OnlyOutput t (t.closeForReopen force) := by
  unfold closeForReopen
  split_ifs
  · exact ⟨_, _, rfl⟩
  · exact ⟨_, _, rfl⟩

theorem lastAccepted_closeForReopen (force : Bool) (t : MixerThread) :
    lastAccepted (t.closeForReopen force).calls = lastAccepted t.calls := by
  unfold closeForReopen
  split_ifs
  · exact lastAccepted_standby _
  · rfl

/-- **Applying** ends with the stream set to what the route is to be, or with an error
    and the stream as it was. -/
theorem called_applyDesired (stream : StreamOut) (p : OutputParameters) (t : MixerThread) :
    Called (t.applyDesired stream p).2.1 t
      ((t.applyDesired stream p).1, (t.applyDesired stream p).2.2) := by
  have hfirst := called_setParametersRetrying stream p t
  have hback := called_setParametersRetrying stream
    (t.setParametersRetrying stream p).2.rollback (t.setParametersRetrying stream p).2
  unfold applyDesired
  dsimp only
  split_ifs with hfail hrollback
  · refine ⟨hfirst.onlyOutput.trans hback.onlyOutput, fun _ => hback.accepted hrollback, ?_⟩
    exact fun h => absurd rfl h
  · refine ⟨hfirst.onlyOutput.trans hback.onlyOutput, fun h => absurd h hfail.2, fun _ => ?_⟩
    exact (hback.refused hrollback).trans (hfirst.refused hfail.2)
  · exact hfirst

theorem calls_setParametersRetrying (stream : StreamOut) (p : OutputParameters)
    (t : MixerThread) :
    ∃ status newer, (t.setParametersRetrying stream p).2.calls =
      newer ++ .setParameters p status :: t.calls := by
  unfold setParametersRetrying
  dsimp only
  split_ifs
  · exact ⟨_, [_, _], rfl⟩
  · exact ⟨_, [], rfl⟩

/-- Applying starts with a call for what is desired. -/
theorem calls_applyDesired (stream : StreamOut) (p : OutputParameters) (t : MixerThread) :
    ∃ status newer, (t.applyDesired stream p).2.2.calls =
      newer ++ .setParameters p status :: t.calls := by
  obtain ⟨status, newer, hcalls⟩ := calls_setParametersRetrying stream p t
  obtain ⟨_, newer', hcalls'⟩ := calls_setParametersRetrying stream
    (t.setParametersRetrying stream p).2.rollback (t.setParametersRetrying stream p).2
  rw [hcalls, ← List.singleton_append, ← List.append_assoc, ← List.append_assoc] at hcalls'
  unfold applyDesired
  dsimp only
  split_ifs
  · exact ⟨status, _, hcalls'⟩
  · exact ⟨status, _, hcalls'⟩
  · exact ⟨status, newer, hcalls⟩

theorem calls_closeForReopen (t : MixerThread) :
    (t.closeForReopen true).calls = if t.standby then t.calls else .standby :: t.calls := by
  unfold closeForReopen
  by_cases hstandby : t.standby = true
  · rw [hstandby]
    rfl
  · rw [Bool.not_eq_true] at hstandby
    rw [hstandby]
    rfl

/-- The three ways of an event: it is skipped, its parameters are accepted, or it ends
    with an error. -/
theorem checkForNewParameter_cases (stream : StreamOut) (value : ℤ) (e : Surroundings)
    (t : MixerThread) :
    (t.forceReopen value = false ∧ t.upToDate (t.desired e) = true ∧
      t.checkForNewParameter stream value e = (noError, false, t.clearQueued)) ∨
    ∃ status p t', (t.clearQueued.closeForReopen (t.forceReopen value)).applyDesired stream
        (t.desired e) = (status, p, t') ∧
      (status = noError ∧ t.checkForNewParameter stream value e =
        (noError, true, t'.readOutputParameters.commitRoute p) ∨
      status ≠ noError ∧ t.checkForNewParameter stream value e = (status, true, t')) := by
  have hdesired : t.clearQueued.desired e = t.desired e := rfl
  have hupToDate : t.clearQueued.upToDate (t.desired e) = t.upToDate (t.desired e) := rfl
  unfold checkForNewParameter
  dsimp only
  rw [hdesired, hupToDate]
  by_cases hskip : (!t.forceReopen value && t.upToDate (t.desired e)) = true
  · rw [if_pos hskip]
    rw [Bool.and_eq_true, Bool.not_eq_true'] at hskip
    exact .inl ⟨hskip.1, hskip.2, rfl⟩
  · rw [if_neg hskip]
    generalize (t.clearQueued.closeForReopen (t.forceReopen value)).applyDesired stream
      (t.desired e) = applied
    obtain ⟨status, p, t'⟩ := applied
    refine .inr ⟨status, p, t', rfl, ?_⟩
    by_cases hstatus : status = noError
    · refine .inl ⟨hstatus, ?_⟩
      dsimp only
      rw [if_pos hstatus, hstatus]
    · exact .inr ⟨hstatus, if_neg hstatus⟩

end

end MixerThread

end Pro5Android.Flinger
