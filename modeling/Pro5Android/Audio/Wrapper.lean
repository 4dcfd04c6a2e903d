import Pro5Android.Audio.Parameters
import Pro5Android.Lib.Runs
import Mathlib.Logic.Function.Basic

/-!
# The audio wrapper

The routing and HiFi entry points of
`hardware/meizu/m86/audio/audio_primary_m86.cpp`: output streams (lines
332–407), the helpers that apply a setting (lines 840–937), device parameters,
opening and closing outputs (lines 954–1075) and audio patches (lines 1155–1200).
The wrapper owns the public objects and forwards to the Flyme library, which is a
parameter: its answer to a call may depend on everything that happened before. The
callers run one entry point after the other. Handles, formats, addresses and the
patch handle, which nothing reads, are left out.

An address of an output may be used again after it is closed, and the owner of an
output is always the wrapper.
-/

namespace Pro5Android.Audio

open Lib

/-! ## Data -/

/-- `audio_devices_t`. -/
abbrev Devices := BitVec 32

/-- `AUDIO_DEVICE_NONE`. -/
def deviceNone : Devices := 0x0

/-- `AUDIO_DEVICE_OUT_SPEAKER`. -/
def deviceOutSpeaker : Devices := 0x2

/-- `AUDIO_DEVICE_OUT_WIRED_HEADSET`. -/
def deviceOutWiredHeadset : Devices := 0x4

/-- `AUDIO_DEVICE_OUT_WIRED_HEADPHONE`. -/
def deviceOutWiredHeadphone : Devices := 0x8

/-- `m86_is_wired_output` (lines 163–166). -/
def isWiredOutput (devices : Devices) : Bool :=
  devices &&& (deviceOutWiredHeadset ||| deviceOutWiredHeadphone) != 0

/-- The address of an `M86StreamOut`. -/
abbrev Output := ℕ

/-- The callbacks of a Flyme output stream that the wrapper tests for null. -/
structure FlymeStreamOut where
  setDevice : Bool
  setParameters : Bool
  deriving DecidableEq

/-- The callbacks of the Flyme device that the wrapper tests for null. -/
structure FlymeDevice where
  setHeadphoneVolume : Bool
  setParameters : Bool
  openOutputStream : Bool
  closeOutputStream : Bool

/-- `M86Device` (lines 111–120), without the public callbacks and the library. -/
structure M86Device where
  activeOutput : Option Output
  activeOutputDevices : Devices
  hifiUserEnabled : Bool
  hifiRouteRequested : Bool
  hifiGain : ℤ

/-- One sink of an audio patch: whether it is a device port, and its device type. -/
structure Sink where
  isDevice : Bool
  deviceType : Devices

/-- A call of an entry point. -/
inductive Entry
  | setParameters (kvPairs : Option CString)
  /-- With a place for the stream or without; `calloc` may fail. -/
  | openOutput (devices : Devices) (hasStream : Bool) (allocated : Option Output)
  | closeOutput (stream : Option Output)
  | outSetDevice (stream : Output) (device : Devices)
  | outSetParameters (stream : Output) (kvPairs : Option CString)
  /-- No sinks are also those of a null pointer. -/
  | createAudioPatch (sinks : List Sink)
  | releaseAudioPatch

/-- A call of the Flyme library. -/
inductive FlymeCall
  | openOutputStream (devices : Devices)
  | closeOutputStream (output : Option Output)
  | setDevice (output : Output) (device : Devices)
  | setStreamParameters (output : Output) (kvPairs : Option CString)
  | setHeadphoneVolume
  | setDeviceParameters (kvPairs : Option CString)

/-- What is logged: the calls of the library with the wrapper's fields at that
    moment and the entry point that makes them, the streams that open, and the
    properties that are stored. -/
inductive Event
  | called (call : FlymeCall) (wrapper : M86Device) (entry : Option Entry)
  | opened (output : Output)
  | stored (enabled : Bool) (gain : ℤ)

/-- The Flyme library: its device, its answers to the newest event of a log, and the
    streams it opens. -/
structure Flyme where
  device : FlymeDevice
  answer : List Event → ℤ
  stream : List Event → Option FlymeStreamOut

/-- The wrapper's fields, the open outputs with their `flyme_stream`, and the log,
    newest first. -/
structure Hal where
  wrapper : M86Device
  outputs : Output → Option (Option FlymeStreamOut)
  log : List Event

def enosys : ℤ := -38
def enodev : ℤ := -19
def einval : ℤ := -22
def enomem : ℤ := -12

/-! ## Parameter texts -/

/-- `"hifi_state=%s"` (lines 381–382, 894–895). -/
def hifiStateText (active : Bool) : CString :=
  if active then lit "hifi_state=on" else lit "hifi_state=off"

/-- `"routing=%u"` (lines 871–873). -/
def routingText (devices : Devices) : CString := lit "routing=" ++ Nat.toDigits 10 devices.toNat

/-- `"hifi_gain=%d"` (lines 915–916). -/
def hifiGainText (gain : ℤ) : CString :=
  lit "hifi_gain=" ++ if gain < 0 then '-' :: Nat.toDigits 10 gain.natAbs
    else Nat.toDigits 10 gain.natAbs

/-- The gain from 0 to 3 (lines 935–936, 988–989). -/
def clampGain (requested : ℤ) : ℤ := if requested < 0 then 0 else if requested > 3 then 3 else requested

/-- `on` or `1`. -/
def isOn (value : CString) : Bool := value == lit "on" || value == lit "1"

/-- The devices of a `routing` parameter that parses (lines 356–364). -/
def routingOf (kvPairs : Option CString) : Option Devices :=
  (findParameter kvPairs (lit "routing") 32).bind strtoulAll

/-- `hifi_route` (lines 366–368). -/
def hifiRouteOf (kvPairs : Option CString) : Option CString :=
  findParameter kvPairs (lit "hifi_state") 32

/-- `requested_hifi_route` (lines 369–370). -/
def requestsHifiRoute (kvPairs : Option CString) : Bool := (hifiRouteOf kvPairs).any isOn

/-- `output_devices` of a patch (lines 1164–1181); `none` where it has no device
    sink. -/
def patchDevices (sinks : List Sink) : Option Devices :=
  let devices := sinks.filter Sink.isDevice
  if devices.isEmpty then none
  else
    let outputDevices := devices.foldl (fun d sink => d ||| sink.deviceType) deviceNone
    some (if outputDevices = deviceNone then deviceOutSpeaker else outputDevices)

namespace M86Device

variable (w : M86Device)

/-- `active` of `m86_apply_hifi_state` (lines 888–890). -/
def hifiActive : Bool :=
  w.hifiUserEnabled && w.hifiRouteRequested && isWiredOutput w.activeOutputDevices

/-- `forwarded_parameters` (lines 371–389); `none` is `-EINVAL`. -/
def forwardedParameters (kvPairs : Option CString) : Option (Option CString) :=
  if (hifiRouteOf kvPairs).isSome then
    let effectiveDevices := (routingOf kvPairs).getD w.activeOutputDevices
    let effectiveHifi :=
      w.hifiUserEnabled && requestsHifiRoute kvPairs && isWiredOutput effectiveDevices
    (replaceParameter kvPairs (lit "hifi_state") (hifiStateText effectiveHifi) 512).map some
  else some kvPairs

end M86Device

/-! ## Helpers -/

namespace Hal

/-- `flyme_stream` of an output. -/
def flymeStream (h : Hal) (output : Output) : Option FlymeStreamOut := (h.outputs output).join

variable (flyme : Flyme) (entry : Option Entry)

/-- A call of the library, and its answer. -/
def call (c : FlymeCall) (h : Hal) : ℤ × Hal :=
  let log := .called c h.wrapper entry :: h.log
  (flyme.answer log, { h with log := log })

/-- `m86_apply_headphone_volume` (lines 840–850), and `m86_set_headphone_volume` at
    unity (lines 831–838). -/
def applyHeadphoneVolume (h : Hal) : ℤ × Hal :=
  if flyme.device.setHeadphoneVolume then call flyme entry .setHeadphoneVolume h else (enosys, h)

/-- `m86_apply_output_device` (lines 852–875). -/
def applyOutputDevice (outputDevices : Devices) (h : Hal) : ℤ × Hal :=
  match h.wrapper.activeOutput with
  | none => (enodev, h)
  | some output =>
    match h.flymeStream output with
    | none => (enodev, h)
    | some stream =>
      if stream.setParameters then
        call flyme entry (.setStreamParameters output (some (routingText outputDevices))) h
      else (enosys, h)

/-- `m86_apply_hifi_state` (lines 877–908). -/
def applyHifiState (h : Hal) : ℤ × Hal :=
  match h.wrapper.activeOutput with
  | none => (0, h)
  | some output =>
    match h.flymeStream output with
    | none => (0, h)
    | some stream =>
      if stream.setParameters then
        call flyme entry
          (.setStreamParameters output (some (hifiStateText h.wrapper.hifiActive))) h
      else (0, h)

/-- `m86_apply_hifi_gain` (lines 910–918). -/
def applyHifiGain (h : Hal) : ℤ × Hal :=
  if flyme.device.setParameters then
    call flyme entry (.setDeviceParameters (some (hifiGainText h.wrapper.hifiGain))) h
  else (enosys, h)

/-- `m86_apply_hifi_policy` (lines 920–924). -/
def applyHifiPolicy (h : Hal) : ℤ × Hal :=
  let (gainResult, h) := applyHifiGain flyme entry h
  let (stateResult, h) := applyHifiState flyme entry h
  (if stateResult ≠ 0 then stateResult else gainResult, h)

/-- `m86_store_hifi_properties` (lines 939–952). -/
def storeHifiProperties (h : Hal) : Hal :=
  { h with log := .stored h.wrapper.hifiUserEnabled h.wrapper.hifiGain :: h.log }

/-- `active_output_devices = devices`. -/
def setActiveDevices (devices : Devices) (h : Hal) : Hal :=
  { h with wrapper := { h.wrapper with activeOutputDevices := devices } }

/-- `active_output_devices = devices`, then headphone volume and HiFi policy. -/
def routeTo (devices : Devices) (h : Hal) : Hal :=
  let h := h.setActiveDevices devices
  let h := (applyHeadphoneVolume flyme entry h).2
  (applyHifiPolicy flyme entry h).2

/-- `hifi_route_requested = requested`, then the gain (lines 394–401). -/
def requestRoute (requested : Bool) (h : Hal) : Hal :=
  (applyHifiGain flyme entry
    { h with wrapper := { h.wrapper with hifiRouteRequested := requested } }).2

/-! ## What the helpers change -/

variable {flyme : Flyme} {entry : Option Entry}

theorem flymeStream_eq_some {h : Hal} {output : Output} {stream : FlymeStreamOut} :
    h.flymeStream output = some stream ↔ h.outputs output = some (some stream) := by
  rw [flymeStream, Option.join_eq_some_iff]

@[simp] theorem call_wrapper (c : FlymeCall) (h : Hal) :
    (h.call flyme entry c).2.wrapper = h.wrapper := rfl

@[simp] theorem call_outputs (c : FlymeCall) (h : Hal) :
    (h.call flyme entry c).2.outputs = h.outputs := rfl

@[simp] theorem applyHeadphoneVolume_wrapper (h : Hal) :
    (h.applyHeadphoneVolume flyme entry).2.wrapper = h.wrapper := by
  unfold applyHeadphoneVolume
  split_ifs <;> rfl

@[simp] theorem applyHeadphoneVolume_outputs (h : Hal) :
    (h.applyHeadphoneVolume flyme entry).2.outputs = h.outputs := by
  unfold applyHeadphoneVolume
  split_ifs <;> rfl

@[simp] theorem applyHifiGain_wrapper (h : Hal) :
    (h.applyHifiGain flyme entry).2.wrapper = h.wrapper := by
  unfold applyHifiGain
  split_ifs <;> rfl

@[simp] theorem applyHifiGain_outputs (h : Hal) :
    (h.applyHifiGain flyme entry).2.outputs = h.outputs := by
  unfold applyHifiGain
  split_ifs <;> rfl

/-- Applying the HiFi state sends it to the active output, if that takes it. -/
theorem applyHifiState_cases (flyme : Flyme) (entry : Option Entry) (h : Hal) :
    (∃ output stream, h.wrapper.activeOutput = some output ∧
      h.outputs output = some (some stream) ∧ stream.setParameters = true ∧
      h.applyHifiState flyme entry =
        h.call flyme entry
          (.setStreamParameters output (some (hifiStateText h.wrapper.hifiActive)))) ∨
    ((∀ output stream, h.wrapper.activeOutput = some output →
      h.outputs output = some (some stream) → stream.setParameters = false) ∧
      h.applyHifiState flyme entry = (0, h)) := by
  unfold applyHifiState
  cases hactive : h.wrapper.activeOutput with
  | none => exact .inr ⟨fun _ _ ho => absurd ho.symm (Option.some_ne_none _), rfl⟩
  | some output =>
    dsimp only
    cases hstream : h.flymeStream output with
    | none =>
      refine .inr ⟨fun o stream ho hs => ?_, rfl⟩
      obtain rfl := Option.some.inj ho
      exact absurd ((flymeStream_eq_some.mpr hs).symm.trans hstream) (Option.some_ne_none _)
    | some stream =>
      dsimp only
      have hs := flymeStream_eq_some.mp hstream
      by_cases hset : stream.setParameters = true
      · exact .inl ⟨output, stream, rfl, hs, hset, if_pos hset⟩
      · refine .inr ⟨fun o stream' ho hs' => ?_, if_neg hset⟩
        obtain rfl := Option.some.inj ho
        obtain rfl := Option.some.inj (Option.some.inj (hs.symm.trans hs'))
        exact Bool.not_eq_true _ ▸ hset

/-- Applying an output device sends it to the active output, or fails. -/
theorem applyOutputDevice_cases (flyme : Flyme) (entry : Option Entry) (devices : Devices)
    (h : Hal) :
    (∃ output stream, h.wrapper.activeOutput = some output ∧
      h.outputs output = some (some stream) ∧ stream.setParameters = true ∧
      h.applyOutputDevice flyme entry devices =
        h.call flyme entry (.setStreamParameters output (some (routingText devices)))) ∨
    ∃ error, error ≠ 0 ∧ h.applyOutputDevice flyme entry devices = (error, h) := by
  unfold applyOutputDevice
  cases h.wrapper.activeOutput with
  | none => exact .inr ⟨enodev, by decide, rfl⟩
  | some output =>
    dsimp only
    cases hstream : h.flymeStream output with
    | none => exact .inr ⟨enodev, by decide, rfl⟩
    | some stream =>
      dsimp only
      by_cases hset : stream.setParameters = true
      · exact .inl ⟨output, stream, rfl, flymeStream_eq_some.mp hstream, hset, if_pos hset⟩
      · exact .inr ⟨enosys, by decide, if_neg hset⟩

@[simp] theorem applyHifiState_wrapper (h : Hal) :
    (h.applyHifiState flyme entry).2.wrapper = h.wrapper := by
  obtain ⟨_, _, -, -, -, heq⟩ | ⟨-, heq⟩ := applyHifiState_cases flyme entry h
  · rw [heq, call_wrapper]
  · rw [heq]

@[simp] theorem applyHifiState_outputs (h : Hal) :
    (h.applyHifiState flyme entry).2.outputs = h.outputs := by
  obtain ⟨_, _, -, -, -, heq⟩ | ⟨-, heq⟩ := applyHifiState_cases flyme entry h
  · rw [heq, call_outputs]
  · rw [heq]

@[simp] theorem applyOutputDevice_wrapper (devices : Devices) (h : Hal) :
    (h.applyOutputDevice flyme entry devices).2.wrapper = h.wrapper := by
  obtain ⟨_, _, -, -, -, heq⟩ | ⟨_, -, heq⟩ := applyOutputDevice_cases flyme entry devices h
  · rw [heq, call_wrapper]
  · rw [heq]

@[simp] theorem applyOutputDevice_outputs (devices : Devices) (h : Hal) :
    (h.applyOutputDevice flyme entry devices).2.outputs = h.outputs := by
  obtain ⟨_, _, -, -, -, heq⟩ | ⟨_, -, heq⟩ := applyOutputDevice_cases flyme entry devices h
  · rw [heq, call_outputs]
  · rw [heq]

theorem applyHifiPolicy_snd (h : Hal) :
    (h.applyHifiPolicy flyme entry).2 =
      ((h.applyHifiGain flyme entry).2.applyHifiState flyme entry).2 := rfl

@[simp] theorem routeTo_wrapper (devices : Devices) (h : Hal) :
    (h.routeTo flyme entry devices).wrapper =
      { h.wrapper with activeOutputDevices := devices } := by
  simp [routeTo, applyHifiPolicy_snd, setActiveDevices]

@[simp] theorem routeTo_outputs (devices : Devices) (h : Hal) :
    (h.routeTo flyme entry devices).outputs = h.outputs := by
  simp [routeTo, applyHifiPolicy_snd, setActiveDevices]

@[simp] theorem requestRoute_wrapper (requested : Bool) (h : Hal) :
    (h.requestRoute flyme entry requested).wrapper =
      { h.wrapper with hifiRouteRequested := requested } := by
  simp [requestRoute]

@[simp] theorem requestRoute_outputs (requested : Bool) (h : Hal) :
    (h.requestRoute flyme entry requested).outputs = h.outputs := by
  simp [requestRoute]

end Hal

/-! ## Entry points -/

section

variable (flyme : Flyme)

/-- `m86_set_parameters` (lines 954–1000). -/
def setParameters (kvPairs : Option CString) (h : Hal) : ℤ × Hal :=
  let entry := some (.setParameters kvPairs)
  if kvPairs = some (lit "vendor.meizu.set_headphone_volume=1") then
    h.applyHeadphoneVolume flyme entry
  else
    let hifiEnabled := findParameter kvPairs (lit "m86_hifi_enabled") 32
    let hifiGain := findParameter kvPairs (lit "hifi_gain") 32
    if hifiEnabled.isSome ∨ hifiGain.isSome then
      let h :=
        match hifiEnabled with
        | some state => { h with wrapper := { h.wrapper with hifiUserEnabled := isOn state } }
        | none => h
      match hifiGain with
      | none => (0, h.storeHifiProperties)
      | some gain =>
        match strtolAll gain with
        | none => (einval, h)
        | some requested =>
          (0, Hal.storeHifiProperties
            { h with wrapper := { h.wrapper with hifiGain := clampGain requested } })
    else if flyme.device.setParameters then h.call flyme entry (.setDeviceParameters kvPairs)
    else (enosys, h)

/-- `m86_open_output` (lines 1021–1055). -/
def openOutput (devices : Devices) (hasStream : Bool) (allocated : Option Output) (h : Hal) :
    ℤ × Hal :=
  let entry := some (.openOutput devices hasStream allocated)
  if ¬ flyme.device.openOutputStream ∨ ¬ hasStream then (enosys, h)
  else
    let (result, h) := h.call flyme entry (.openOutputStream devices)
    if result ≠ 0 then (result, h)
    else
      match allocated with
      | none => (enomem, (h.call flyme entry (.closeOutputStream none)).2)
      | some output =>
        let h : Hal :=
          { wrapper := { h.wrapper with activeOutput := some output }
            outputs := Function.update h.outputs output (some (flyme.stream h.log))
            log := .opened output :: h.log }
        (0, h.routeTo flyme entry devices)

/-- `m86_close_output` (lines 1057–1075). -/
def closeOutput (stream : Option Output) (h : Hal) : Hal :=
  let entry := some (.closeOutput stream)
  match stream with
  | none => h
  | some output =>
    let h :=
      if h.wrapper.activeOutput = some output then
        { h with wrapper :=
          { h.wrapper with
            activeOutput := none
            activeOutputDevices := deviceNone
            hifiRouteRequested := false } }
      else h
    let h :=
      if flyme.device.closeOutputStream then
        (h.call flyme entry (.closeOutputStream (some output))).2
      else h
    { h with outputs := Function.update h.outputs output none }

/-- `out_set_device` (lines 332–347). -/
def outSetDevice (output : Output) (device : Devices) (h : Hal) : ℤ × Hal :=
  let entry := some (.outSetDevice output device)
  match h.flymeStream output with
  | none => (enosys, h)
  | some stream =>
    if stream.setDevice then
      let (result, h) := h.call flyme entry (.setDevice output device)
      if result = 0 then
        let h := h.setActiveDevices device
        let h := (h.applyHeadphoneVolume flyme entry).2
        let h := (h.applyHifiState flyme entry).2
        (result, (h.applyHifiGain flyme entry).2)
      else (result, h)
    else (enosys, h)

/-- `out_set_parameters` (lines 349–410). -/
def outSetParameters (output : Output) (kvPairs : Option CString) (h : Hal) : ℤ × Hal :=
  let entry := some (.outSetParameters output kvPairs)
  match h.flymeStream output with
  | none => (enosys, h)
  | some stream =>
    if stream.setParameters then
      match h.wrapper.forwardedParameters kvPairs with
      | none => (einval, h)
      | some forwarded =>
        let (result, h) := h.call flyme entry (.setStreamParameters output forwarded)
        if result = 0 then
          let h :=
            if (hifiRouteOf kvPairs).isSome then
              h.requestRoute flyme entry (requestsHifiRoute kvPairs)
            else h
          match routingOf kvPairs with
          | some requestedDevices => (result, h.routeTo flyme entry requestedDevices)
          | none => (result, h)
        else (result, h)
    else (enosys, h)

/-- `m86_create_audio_patch` (lines 1155–1195). -/
def createAudioPatch (sinks : List Sink) (h : Hal) : ℤ × Hal :=
  let entry := some (.createAudioPatch sinks)
  if sinks = [] then (einval, h)
  else
    match patchDevices sinks with
    | none => (0, h)
    | some outputDevices =>
      let (result, h) := h.applyOutputDevice flyme entry outputDevices
      if result = 0 then (result, h.routeTo flyme entry outputDevices) else (result, h)

/-- The entry points; closing returns nothing. -/
def perform : Entry → Hal → ℤ × Hal
  | .setParameters kvPairs, h => setParameters flyme kvPairs h
  | .openOutput devices hasStream allocated, h => openOutput flyme devices hasStream allocated h
  | .closeOutput stream, h => (0, closeOutput flyme stream h)
  | .outSetDevice stream device, h => outSetDevice flyme stream device h
  | .outSetParameters stream kvPairs, h => outSetParameters flyme stream kvPairs h
  | .createAudioPatch sinks, h => createAudioPatch flyme sinks h
  | .releaseAudioPatch, h => (0, h)

/-- Streams are used while they are open, and `calloc` returns memory that is not in
    use. -/
def Entry.Legal (h : Hal) : Entry → Prop
  | .openOutput _ _ (some output) => h.outputs output = none
  | .closeOutput (some output) => h.outputs output ≠ none
  | .outSetDevice output _ => h.outputs output ≠ none
  | .outSetParameters output _ => h.outputs output ≠ none
  | _ => True

/-- The wrapper under its callers. -/
def audioWrapper : System Hal Entry where
  legal h entry := entry.Legal h
  next h entry := (perform flyme entry h).2

/-- `m86_load_hifi_properties` (lines 926–937), on the properties' values. -/
def loadHifiProperties (enabled gain : CString) : M86Device where
  activeOutput := none
  activeOutputDevices := deviceNone
  hifiUserEnabled := enabled != lit "0"
  hifiRouteRequested := false
  hifiGain := ((strtolAll gain).map clampGain).getD 0

/-- The wrapper that `m86_module_open` makes (lines 1244–1253). -/
def moduleOpen (enabled gain : CString) : Hal :=
  (Hal.applyHifiGain flyme none ⟨loadHifiProperties enabled gain, fun _ => none, []⟩).2

end

/-! ## What the entry points do -/

/-- The output and the devices of a routing. -/
def Entry.routes (w : M86Device) : Entry → Option (Output × Devices)
  | .openOutput devices _ (some output) => some (output, devices)
  | .outSetDevice output device => some (output, device)
  | .outSetParameters output kvPairs => (routingOf kvPairs).map fun devices => (output, devices)
  | .createAudioPatch sinks =>
    w.activeOutput.bind fun output => (patchDevices sinks).map fun devices => (output, devices)
  | _ => none

namespace Hal

variable (flyme : Flyme) (entry : Option Entry)

/-- The route request of a parameter string, if it has one. -/
def requestBy (kvPairs : Option CString) (h : Hal) : Hal :=
  if (hifiRouteOf kvPairs).isSome then h.requestRoute flyme entry (requestsHifiRoute kvPairs)
  else h

/-- The device that a stream accepted, then headphone volume, HiFi state and gain. -/
def acceptDevice (device : Devices) (h : Hal) : Hal :=
  let h := h.setActiveDevices device
  let h := (applyHeadphoneVolume flyme entry h).2
  let h := (applyHifiState flyme entry h).2
  (applyHifiGain flyme entry h).2

/-- The stream that opened becomes the active output. -/
def opened (output : Output) (h : Hal) : Hal where
  wrapper := { h.wrapper with activeOutput := some output }
  outputs := Function.update h.outputs output (some (flyme.stream h.log))
  log := .opened output :: h.log

variable {flyme : Flyme} {entry : Option Entry}

@[simp] theorem requestBy_activeOutput (kvPairs : Option CString) (h : Hal) :
    (h.requestBy flyme entry kvPairs).wrapper.activeOutput = h.wrapper.activeOutput := by
  unfold requestBy
  split_ifs
  · rw [requestRoute_wrapper]
  · rfl

@[simp] theorem requestBy_activeOutputDevices (kvPairs : Option CString) (h : Hal) :
    (h.requestBy flyme entry kvPairs).wrapper.activeOutputDevices =
      h.wrapper.activeOutputDevices := by
  unfold requestBy
  split_ifs
  · rw [requestRoute_wrapper]
  · rfl

@[simp] theorem requestBy_outputs (kvPairs : Option CString) (h : Hal) :
    (h.requestBy flyme entry kvPairs).outputs = h.outputs := by
  unfold requestBy
  split_ifs
  · rw [requestRoute_outputs]
  · rfl

@[simp] theorem acceptDevice_wrapper (device : Devices) (h : Hal) :
    (h.acceptDevice flyme entry device).wrapper =
      { h.wrapper with activeOutputDevices := device } := by
  simp [acceptDevice, setActiveDevices]

@[simp] theorem acceptDevice_outputs (device : Devices) (h : Hal) :
    (h.acceptDevice flyme entry device).outputs = h.outputs := by
  simp [acceptDevice, setActiveDevices]

end Hal

variable (flyme : Flyme)

/-- Opening fails and leaves the wrapper's fields and outputs, or opens the stream. -/
theorem openOutput_cases (devices : Devices) (hasStream : Bool) (allocated : Option Output)
    (h : Hal) :
    let entry := some (.openOutput devices hasStream allocated)
    let called := h.call flyme entry (.openOutputStream devices)
    (∃ error, error ≠ 0 ∧
      (openOutput flyme devices hasStream allocated h = (error, h) ∨
        openOutput flyme devices hasStream allocated h = (error, called.2) ∨
        allocated = none ∧ openOutput flyme devices hasStream allocated h =
          (error, (called.2.call flyme entry (.closeOutputStream none)).2))) ∨
      ∃ output, allocated = some output ∧ openOutput flyme devices hasStream allocated h =
        (0, (called.2.opened flyme output).routeTo flyme entry devices) := by
  dsimp only
  unfold openOutput
  dsimp only
  by_cases hnull : ¬ flyme.device.openOutputStream ∨ ¬ hasStream
  · rw [if_pos hnull]
    exact .inl ⟨enosys, by decide, .inl rfl⟩
  · rw [if_neg hnull]
    by_cases hresult : (h.call flyme (some (.openOutput devices hasStream allocated))
        (.openOutputStream devices)).1 = 0
    · rw [if_neg (not_not_intro hresult)]
      cases allocated with
      | none => exact .inl ⟨enomem, by decide, .inr (.inr ⟨rfl, rfl⟩)⟩
      | some output => exact .inr ⟨output, rfl, rfl⟩
    · rw [if_pos hresult]
      exact .inl ⟨_, hresult, .inr (.inl rfl)⟩

/-- Setting the device fails, or the stream accepts the device. -/
theorem outSetDevice_cases (output : Output) (device : Devices) (h : Hal) :
    let entry := some (.outSetDevice output device)
    let called := h.call flyme entry (.setDevice output device)
    (∃ error, error ≠ 0 ∧ (outSetDevice flyme output device h = (error, h) ∨
      outSetDevice flyme output device h = (error, called.2))) ∨
    outSetDevice flyme output device h = (0, called.2.acceptDevice flyme entry device) := by
  dsimp only
  unfold outSetDevice
  dsimp only
  cases h.flymeStream output with
  | none => exact .inl ⟨enosys, by decide, .inl rfl⟩
  | some stream =>
    dsimp only
    by_cases hset : stream.setDevice = true
    · rw [if_pos hset]
      by_cases hresult : (h.call flyme (some (.outSetDevice output device))
          (.setDevice output device)).1 = 0
      · rw [if_pos hresult, hresult]
        exact .inr rfl
      · rw [if_neg hresult]
        exact .inl ⟨_, hresult, .inr rfl⟩
    · rw [if_neg hset]
      exact .inl ⟨enosys, by decide, .inl rfl⟩

/-- Setting parameters fails, or the stream accepts what is forwarded. -/
theorem outSetParameters_cases (output : Output) (kvPairs : Option CString) (h : Hal) :
    let entry := some (.outSetParameters output kvPairs)
    (∃ error, error ≠ 0 ∧ outSetParameters flyme output kvPairs h = (error, h)) ∨
    ∃ stream forwarded, h.outputs output = some (some stream) ∧ stream.setParameters = true ∧
      h.wrapper.forwardedParameters kvPairs = some forwarded ∧
      let called := h.call flyme entry (.setStreamParameters output forwarded)
      (called.1 ≠ 0 ∧ outSetParameters flyme output kvPairs h = called) ∨
      (called.1 = 0 ∧ routingOf kvPairs = none ∧
        outSetParameters flyme output kvPairs h = (0, called.2.requestBy flyme entry kvPairs)) ∨
      ∃ devices, called.1 = 0 ∧ routingOf kvPairs = some devices ∧
        outSetParameters flyme output kvPairs h =
          (0, (called.2.requestBy flyme entry kvPairs).routeTo flyme entry devices) := by
  dsimp only
  unfold outSetParameters
  dsimp only
  cases hstream : h.flymeStream output with
  | none => exact .inl ⟨enosys, by decide, rfl⟩
  | some stream =>
    dsimp only
    by_cases hset : stream.setParameters = true
    · rw [if_pos hset]
      cases hforwarded : h.wrapper.forwardedParameters kvPairs with
      | none => exact .inl ⟨einval, by decide, rfl⟩
      | some forwarded =>
        refine .inr ⟨stream, forwarded, Hal.flymeStream_eq_some.mp hstream, hset, rfl, ?_⟩
        dsimp only
        by_cases hresult : (h.call flyme (some (.outSetParameters output kvPairs))
            (.setStreamParameters output forwarded)).1 = 0
        · rw [if_pos hresult, hresult]
          cases hrouting : routingOf kvPairs with
          | none => exact .inr (.inl ⟨rfl, rfl, rfl⟩)
          | some devices => exact .inr (.inr ⟨devices, rfl, rfl, rfl⟩)
        · rw [if_neg hresult]
          exact .inl ⟨hresult, rfl⟩
    · rw [if_neg hset]
      exact .inl ⟨enosys, by decide, rfl⟩

/-- A patch fails, routes nothing, or routes the active output. -/
theorem createAudioPatch_cases (sinks : List Sink) (h : Hal) :
    let entry := some (.createAudioPatch sinks)
    createAudioPatch flyme sinks h = (einval, h) ∨
    (patchDevices sinks = none ∧ createAudioPatch flyme sinks h = (0, h)) ∨
    ∃ devices, patchDevices sinks = some devices ∧
      let applied := h.applyOutputDevice flyme entry devices
      (applied.1 ≠ 0 ∧ createAudioPatch flyme sinks h = applied) ∨
      (applied.1 = 0 ∧
        createAudioPatch flyme sinks h = (0, applied.2.routeTo flyme entry devices)) := by
  dsimp only
  unfold createAudioPatch
  dsimp only
  by_cases hsinks : sinks = []
  · rw [if_pos hsinks]
    exact .inl rfl
  · rw [if_neg hsinks]
    cases hdevices : patchDevices sinks with
    | none => exact .inr (.inl ⟨rfl, rfl⟩)
    | some devices =>
      refine .inr (.inr ⟨devices, rfl, ?_⟩)
      dsimp only
      by_cases hresult : (h.applyOutputDevice flyme (some (.createAudioPatch sinks))
          devices).1 = 0
      · rw [if_pos hresult, hresult]
        exact .inr ⟨rfl, rfl⟩
      · rw [if_neg hresult]
        exact .inl ⟨hresult, rfl⟩

end Pro5Android.Audio
