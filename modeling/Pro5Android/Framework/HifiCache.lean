import Pro5Android.Lib.Runs
import Mathlib.Data.BitVec
import Mathlib.Order.Lattice

/-!
# The HiFi cache of the audio service

`0003-audio-restore-meizu-hifi-routing.patch` of `frameworks-base` (lines 28–116) gives
`AudioService` two fields with what it last told the audioserver of HiFi, which keep it from
telling it again. A run of `onApplyMeizuHifiState` may fail at either of its two calls. The
messages that start the runs are left out: a run may come at any time.

Results:
* `truthful_apply`, `truthful_next`: what the fields say stays true.
* `settled_apply`: what a run without a failed call leaves.
* `hifiCache_truthful`: both, in every run of a service.
* `unsupported_stays_off`: a device without HiFi.
-/

namespace Pro5Android.Framework

open Lib

/-! ## The audioserver -/

/-- What `AudioSystem.setParameters` is given: `hifi_state=on` or `hifi_state=off`, or
    `hifi_gain=` and a number. -/
inductive Parameters
  | hifiState (on : Bool)
  | hifiGain (gain : ℤ)
  deriving DecidableEq

/-- The last `hifi_state` of the parameters that were accepted, the last of them first. -/
def lastState : List Parameters → Option Bool
  | [] => none
  | .hifiState on :: _ => some on
  | .hifiGain _ :: accepted => lastState accepted

/-- The last `hifi_gain` since then. -/
def lastGain : List Parameters → Option ℤ
  | [] => none
  | .hifiState _ :: _ => none
  | .hifiGain gain :: _ => some gain

/-- `AudioSystem.AUDIO_STATUS_OK`. -/
def audioStatusOk : ℤ := 0

/-- A call of `AudioSystem.setParameters` with its result. -/
structure Call where
  parameters : Parameters
  status : ℤ

/-! ## The service -/

/-- `AudioService`: the device's property, the settings `hifi_music_enabled` and
    `hifi_music_param` where they are numbers, the devices of the music stream, the two fields,
    and what the running audioserver has accepted. -/
structure AudioService where
  supportsMeizuHifi : Bool
  hifiMusicEnabled : Option ℤ
  hifiMusicParam : Option ℤ
  devices : BitVec 32
  meizuHifiAppliedState : ℤ
  meizuHifiAppliedGain : ℤ
  accepted : List Parameters

/-- `MEIZU_HIFI_GAIN_AUTO`. -/
def meizuHifiGainAuto : ℤ := 0

/-- `MEIZU_HIFI_GAIN_LINE_OUT`. -/
def meizuHifiGainLineOut : ℤ := 3

/-- `wiredDevices`: `DEVICE_OUT_WIRED_HEADSET | DEVICE_OUT_WIRED_HEADPHONE`. -/
def wiredDevices : BitVec 32 := 0x4 ||| 0x8

namespace AudioService

variable (s : AudioService)

/-- `wired` (line 83). -/
def Wired : Prop := s.devices &&& wiredDevices ≠ 0

/-- `enabled` (lines 84–85). -/
def Enabled : Prop := s.hifiMusicEnabled.getD 1 ≠ 0

instance : Decidable s.Wired := inferInstanceAs (Decidable (_ ≠ _))

instance : Decidable s.Enabled := inferInstanceAs (Decidable (_ ≠ _))

/-- `requestedGain` (lines 86–87). -/
def requestedGain : ℤ := s.hifiMusicParam.getD meizuHifiGainAuto

/-- `gain` (lines 88–89). -/
def gain : ℤ := max meizuHifiGainAuto (min meizuHifiGainLineOut s.requestedGain)

/-- `state` (line 90). -/
def state : ℤ := if s.Enabled ∧ s.Wired then 1 else 0

/-- `AudioSystem.setParameters`: a call that fails leaves the audioserver as it is. -/
def setParameters (parameters : Parameters) (status : ℤ) : AudioService :=
  if status = audioStatusOk then { s with accepted := parameters :: s.accepted } else s

/-- The second half of `onApplyMeizuHifiState` (lines 106–115). -/
def applyGain (state gain status : ℤ) : List Call × AudioService :=
  if state = 1 ∧ gain ≠ s.meizuHifiAppliedGain then
    let s' := s.setParameters (.hifiGain gain) status
    if status = audioStatusOk then
      ([⟨.hifiGain gain, status⟩], { s' with meizuHifiAppliedGain := gain })
    else ([⟨.hifiGain gain, status⟩], s')
  else ([], s)

/-- `onApplyMeizuHifiState` (lines 75–116), with the results of its calls if it makes them. -/
def onApplyMeizuHifiState (stateStatus gainStatus : ℤ) : List Call × AudioService :=
  if s.supportsMeizuHifi = false then ([], s)
  else
    let state := s.state
    let gain := s.gain
    if state ≠ s.meizuHifiAppliedState then
      let s' := s.setParameters (.hifiState (state = 1)) stateStatus
      if stateStatus ≠ audioStatusOk then ([⟨.hifiState (state = 1), stateStatus⟩], s')
      else
        let s' := { s' with meizuHifiAppliedState := state, meizuHifiAppliedGain := -1 }
        let (calls, s') := s'.applyGain state gain gainStatus
        (⟨.hifiState (state = 1), stateStatus⟩ :: calls, s')
    else s.applyGain state gain gainStatus

/-- What `onAudioServerDied` does to the fields (lines 53–54). -/
def onAudioServerDied : AudioService :=
  { s with meizuHifiAppliedState := -1, meizuHifiAppliedGain := -1 }

end AudioService

/-! ## Runs -/

/-- What may happen. -/
inductive Input
  | setEnabled (value : Option ℤ)
  | setGain (value : Option ℤ)
  | route (devices : BitVec 32)
  | restart
  | apply (stateStatus gainStatus : ℤ)

/-- The service with its audioserver; one that restarts has accepted nothing. -/
def service : System AudioService Input where
  legal _ _ := True
  next s
    | .setEnabled value => { s with hifiMusicEnabled := value }
    | .setGain value => { s with hifiMusicParam := value }
    | .route devices => { s with devices := devices }
    | .restart => AudioService.onAudioServerDied { s with accepted := [] }
    | .apply stateStatus gainStatus => (s.onApplyMeizuHifiState stateStatus gainStatus).2

/-- A service that has just started, whatever its audioserver has accepted before. -/
def Started (s : AudioService) : Prop :=
  s.meizuHifiAppliedState = -1 ∧ s.meizuHifiAppliedGain = -1

/-- The number of a `hifi_state`. -/
def stateNumber (on : Bool) : ℤ := if on then 1 else 0

/-- What the two fields say is true. -/
structure Truthful (s : AudioService) : Prop where
  state : s.meizuHifiAppliedState ≠ -1 →
    ∃ on, lastState s.accepted = some on ∧ s.meizuHifiAppliedState = stateNumber on
  gain : s.meizuHifiAppliedGain ≠ -1 → lastGain s.accepted = some s.meizuHifiAppliedGain

/-- The audioserver has HiFi on if the user wants it and a wired device is routed, and then
    with the gain that is asked for. -/
def Settled (s : AudioService) : Prop :=
  (lastState s.accepted = some true ↔ s.Enabled ∧ s.Wired) ∧
  (lastState s.accepted = some true →
    lastGain s.accepted = some (max 0 (min 3 (s.hifiMusicParam.getD 0))))

/-! ## One run of `onApplyMeizuHifiState` -/

section

variable {s : AudioService} {stateStatus gainStatus : ℤ}

theorem state_cases (s : AudioService) :
    (s.state = 1 ∧ s.Enabled ∧ s.Wired) ∨ (s.state = 0 ∧ ¬ (s.Enabled ∧ s.Wired)) := by
  unfold AudioService.state
  by_cases h : s.Enabled ∧ s.Wired
  · exact .inl ⟨if_pos h, h⟩
  · exact .inr ⟨if_neg h, h⟩

theorem stateNumber_state (s : AudioService) : s.state = stateNumber (s.state = 1) := by
  obtain ⟨h, -⟩ | ⟨h, -⟩ := state_cases s
  all_goals
    rw [h]
    rfl

/-- The service after its `hifi_state` was accepted. -/
def stateApplied (s : AudioService) : AudioService :=
  { s with
    accepted := .hifiState (s.state = 1) :: s.accepted
    meizuHifiAppliedState := s.state, meizuHifiAppliedGain := -1 }

/-- The service after its `hifi_gain` was accepted. -/
def gainApplied (s : AudioService) : AudioService :=
  { s with accepted := .hifiGain s.gain :: s.accepted, meizuHifiAppliedGain := s.gain }

/-- **The second half** of a run does nothing that is needed, or makes a call. -/
theorem applyGain_cases (s : AudioService) (gainStatus : ℤ) :
    (s.applyGain s.state s.gain gainStatus = ([], s) ∧
      (s.state = 1 → s.gain = s.meizuHifiAppliedGain)) ∨
    (s.applyGain s.state s.gain gainStatus = ([⟨.hifiGain s.gain, gainStatus⟩], s) ∧
      gainStatus ≠ audioStatusOk) ∨
    (s.applyGain s.state s.gain gainStatus =
      ([⟨.hifiGain s.gain, gainStatus⟩], gainApplied s) ∧ gainStatus = audioStatusOk) := by
  by_cases hcall : s.state = 1 ∧ s.gain ≠ s.meizuHifiAppliedGain
  · by_cases hstatus : gainStatus = audioStatusOk
    · refine .inr (.inr ⟨?_, hstatus⟩)
      simp only [AudioService.applyGain, AudioService.setParameters, if_pos hcall, if_pos hstatus]
      rfl
    · refine .inr (.inl ⟨?_, hstatus⟩)
      simp only [AudioService.applyGain, AudioService.setParameters, if_pos hcall, if_neg hstatus]
  · refine .inl ⟨if_neg hcall, fun hstate => ?_⟩
    exact not_not.mp fun hgain => hcall ⟨hstate, hgain⟩

/-- **A run** is skipped, fails at its first call, or goes on to the second half. -/
theorem onApply_cases (s : AudioService) (stateStatus gainStatus : ℤ) :
    (s.onApplyMeizuHifiState stateStatus gainStatus = ([], s) ∧ s.supportsMeizuHifi = false) ∨
    (s.onApplyMeizuHifiState stateStatus gainStatus =
      ([⟨.hifiState (s.state = 1), stateStatus⟩], s) ∧ stateStatus ≠ audioStatusOk) ∨
    (s.onApplyMeizuHifiState stateStatus gainStatus =
        (⟨.hifiState (s.state = 1), stateStatus⟩ ::
            ((stateApplied s).applyGain s.state s.gain gainStatus).1,
          ((stateApplied s).applyGain s.state s.gain gainStatus).2) ∧
      stateStatus = audioStatusOk) ∨
    (s.onApplyMeizuHifiState stateStatus gainStatus = s.applyGain s.state s.gain gainStatus ∧
      s.state = s.meizuHifiAppliedState) := by
  by_cases hsupports : s.supportsMeizuHifi = false
  · exact .inl ⟨if_pos hsupports, hsupports⟩
  · by_cases hstate : s.state ≠ s.meizuHifiAppliedState
    · by_cases hstatus : stateStatus ≠ audioStatusOk
      · refine .inr (.inl ⟨?_, hstatus⟩)
        simp only [AudioService.onApplyMeizuHifiState, AudioService.setParameters,
          if_neg hsupports, if_pos hstate, if_pos hstatus, if_neg hstatus]
      · refine .inr (.inr (.inl ⟨?_, not_not.mp hstatus⟩))
        simp only [AudioService.onApplyMeizuHifiState, AudioService.setParameters,
          if_neg hsupports, if_pos hstate, if_neg hstatus, if_pos (not_not.mp hstatus)]
        rfl
    · refine .inr (.inr (.inr ⟨?_, not_not.mp hstate⟩))
      simp only [AudioService.onApplyMeizuHifiState, if_neg hsupports, if_neg hstate]

/-! ## What the fields say -/

theorem truthful_stateApplied (s : AudioService) : Truthful (stateApplied s) :=
  ⟨fun _ => ⟨_, rfl, stateNumber_state s⟩, fun hgain => absurd rfl hgain⟩

theorem truthful_applyGain (h : Truthful s) (gainStatus : ℤ) :
    Truthful (s.applyGain s.state s.gain gainStatus).2 := by
  obtain ⟨heq, -⟩ | ⟨heq, -⟩ | ⟨heq, -⟩ := applyGain_cases s gainStatus
  all_goals rw [heq]
  · exact h
  · exact h
  · exact ⟨h.state, fun _ => rfl⟩

/-- **A run** keeps the fields true, whether its calls fail or not. -/
theorem truthful_apply (h : Truthful s) (stateStatus gainStatus : ℤ) :
    Truthful (s.onApplyMeizuHifiState stateStatus gainStatus).2 := by
  obtain ⟨heq, -⟩ | ⟨heq, -⟩ | ⟨heq, -⟩ | ⟨heq, -⟩ := onApply_cases s stateStatus gainStatus
  all_goals rw [heq]
  · exact h
  · exact h
  · exact truthful_applyGain (truthful_stateApplied s) gainStatus
  · exact truthful_applyGain h gainStatus

/-- **Every input** keeps the fields true. -/
theorem truthful_next (h : Truthful s) (input : Input) : Truthful (service.next s input) := by
  cases input with
  | setEnabled | setGain | route => exact ⟨h.state, h.gain⟩
  | restart => exact ⟨fun hstate => absurd rfl hstate, fun hgain => absurd rfl hgain⟩
  | apply stateStatus gainStatus => exact truthful_apply h stateStatus gainStatus

/-! ## What a run leaves -/

theorem gain_nonneg (s : AudioService) : 0 ≤ s.gain := le_max_left _ _

/-- A field that has the state is true of it. -/
theorem lastState_of_applied (h : Truthful s) (hstate : s.meizuHifiAppliedState = s.state) :
    lastState s.accepted = some (decide (s.state = 1)) := by
  have happlied : s.meizuHifiAppliedState ≠ -1 := by
    rw [hstate]
    obtain ⟨hone, -⟩ | ⟨hzero, -⟩ := state_cases s <;> omega
  obtain ⟨on, hlast, hon⟩ := h.state happlied
  rw [hlast, ← hstate, hon]
  cases on <;> rfl

theorem settled_of (hlast : lastState s.accepted = some (decide (s.state = 1)))
    (hgain : s.state = 1 → lastGain s.accepted = some s.gain) : Settled s := by
  obtain ⟨hone, hon⟩ | ⟨hzero, hoff⟩ := state_cases s
  · rw [hone] at hlast
    exact ⟨iff_of_true hlast hon, fun _ => hgain hone⟩
  · rw [hzero] at hlast
    have hnot : lastState s.accepted ≠ some true := by
      rw [hlast]
      decide
    exact ⟨iff_of_false hnot hoff, fun hon => absurd hon hnot⟩

theorem settled_applyGain (h : Truthful s) (hstate : s.meizuHifiAppliedState = s.state)
    (hok : ∀ call ∈ (s.applyGain s.state s.gain gainStatus).1, call.status = audioStatusOk) :
    Settled (s.applyGain s.state s.gain gainStatus).2 := by
  have hlast := lastState_of_applied h hstate
  obtain ⟨heq, hcached⟩ | ⟨heq, hfailed⟩ | ⟨heq, -⟩ := applyGain_cases s gainStatus
  all_goals rw [heq] at hok ⊢
  · refine settled_of hlast fun hone => ?_
    have hgain := hcached hone
    have hnonneg := gain_nonneg s
    rw [hgain, h.gain (by omega)]
  · exact absurd (hok _ List.mem_cons_self) hfailed
  · exact @settled_of (gainApplied s) hlast fun _ => rfl

/-- **A run without a failed call** on a device with HiFi leaves the audioserver settled. -/
theorem settled_apply (h : Truthful s) (hsupports : s.supportsMeizuHifi = true)
    (hok : ∀ call ∈ (s.onApplyMeizuHifiState stateStatus gainStatus).1,
      call.status = audioStatusOk) :
    Settled (s.onApplyMeizuHifiState stateStatus gainStatus).2 := by
  obtain ⟨-, hno⟩ | ⟨heq, hfailed⟩ | ⟨heq, -⟩ | ⟨heq, hstate⟩ :=
    onApply_cases s stateStatus gainStatus
  · rw [hsupports] at hno
    cases hno
  · rw [heq] at hok
    exact absurd (hok _ List.mem_cons_self) hfailed
  · rw [heq] at hok ⊢
    exact settled_applyGain (truthful_stateApplied s) rfl
      fun call hcall => hok call (List.mem_cons_of_mem _ hcall)
  · rw [heq] at hok ⊢
    exact settled_applyGain h hstate.symm hok

end

/-- **In every run** of a service that starts, what its fields say of the running audioserver is
true, and on a device with HiFi an `onApplyMeizuHifiState` without a failed call leaves the
audioserver with the state and the gain that the settings and the devices ask for. -/
theorem hifiCache_truthful {s₀ s : AudioService} (hstarted : Started s₀)
    (h : service.Reach System.AnyInput s₀ s) :
    (s.meizuHifiAppliedState ≠ -1 →
      ∃ on, lastState s.accepted = some on ∧ s.meizuHifiAppliedState = stateNumber on) ∧
    (s.meizuHifiAppliedGain ≠ -1 → lastGain s.accepted = some s.meizuHifiAppliedGain) ∧
    (s.supportsMeizuHifi = true → ∀ stateStatus gainStatus,
      (∀ call ∈ (s.onApplyMeizuHifiState stateStatus gainStatus).1,
        call.status = audioStatusOk) →
      Settled (s.onApplyMeizuHifiState stateStatus gainStatus).2) := by
  have htruthful : Truthful s :=
    h.invariant Truthful ⟨fun hstate => absurd hstarted.1 hstate, fun hgain => absurd hstarted.2 hgain⟩
      fun _ _ htruthful => truthful_next htruthful _
  exact ⟨htruthful.state, htruthful.gain, fun hsupports _ _ => settled_apply htruthful hsupports⟩

/-- A service that has just started, with a headset plugged in. -/
def headsetService (supportsMeizuHifi : Bool) : AudioService where
  supportsMeizuHifi := supportsMeizuHifi
  hifiMusicEnabled := none
  hifiMusicParam := some 7
  devices := 0x4
  meizuHifiAppliedState := -1
  meizuHifiAppliedGain := -1
  accepted := []

theorem hifiCache_truthful_headset :
    let s := service.after (headsetService true) [.apply 0 0, .restart, .apply 0 1]
    (s.meizuHifiAppliedState ≠ -1 →
      ∃ on, lastState s.accepted = some on ∧ s.meizuHifiAppliedState = stateNumber on) ∧
    (s.meizuHifiAppliedGain ≠ -1 → lastGain s.accepted = some s.meizuHifiAppliedGain) ∧
    (s.supportsMeizuHifi = true → ∀ stateStatus gainStatus,
      (∀ call ∈ (s.onApplyMeizuHifiState stateStatus gainStatus).1,
        call.status = audioStatusOk) →
      Settled (s.onApplyMeizuHifiState stateStatus gainStatus).2) :=
  @hifiCache_truthful (headsetService true) _ ⟨rfl, rfl⟩
    (System.reach_after ⟨trivial, trivial, trivial, trivial, trivial, trivial, trivial⟩)

/-- **On a device without HiFi** a run makes no call, and the audioserver is not told of the
headset. -/
theorem unsupported_stays_off :
    Started (headsetService false) ∧
      (∀ call ∈ ((headsetService false).onApplyMeizuHifiState 0 0).1,
        call.status = audioStatusOk) ∧
      ((headsetService false).onApplyMeizuHifiState 0 0).2.Enabled ∧
      ((headsetService false).onApplyMeizuHifiState 0 0).2.Wired ∧
      lastState ((headsetService false).onApplyMeizuHifiState 0 0).2.accepted ≠ some true := by
  refine ⟨⟨rfl, rfl⟩, ?_, by decide, by decide, by decide⟩
  intro call hcall
  cases hcall

end Pro5Android.Framework
