import Pro5Android.Audio.Wrapper

/-!
# HiFi is on only where it may be

The wrapper combines a user setting, a route request and the routed devices into one
parameter of the Flyme streams. It sends `hifi_state=on` only while all three allow
it, and after a routing the active output has been told what they say.

Results:
* `forwardedParameters_allowed`: what `out_set_parameters` makes of its caller's
  `hifi_state`.
* `lastHifi_routeTo`: what a routing leaves sent.
* `HifiInv.perform`: every entry point keeps the invariant.
* `hifi_safe`: both statements for every run.
* `unheard_hifi`: a stream that takes no parameters is told nothing.
-/

namespace Pro5Android.Audio

open Lib

/-! ## What is sent -/

/-- `hifi_state=on`. -/
def hifiOn : CString := lit "hifi_state=on"

/-- What a parameter string says of HiFi: its last `hifi_state`, if it has one. -/
def hifiStateOf (kvPairs : Option CString) : Option Bool :=
  kvPairs.bind fun text =>
    ((tokens text).filter (hasKey (lit "hifi_state"))).getLast?.map (· == hifiOn)

/-- The last `hifi_state` sent to an output since it was opened. -/
def lastHifi (output : Output) : List Event → Option Bool
  | [] => none
  | .called (.setStreamParameters o kvPairs) _ _ :: log =>
    if o = output then (hifiStateOf kvPairs).or (lastHifi output log) else lastHifi output log
  | .opened o :: log => if o = output then none else lastHifi output log
  | _ :: log => lastHifi output log

/-- The devices that count: the routing of the very call, or the active ones. -/
def effectiveDevices (entry : Option Entry) (w : M86Device) : Devices :=
  match entry with
  | some (.outSetParameters _ kvPairs) => (routingOf kvPairs).getD w.activeOutputDevices
  | _ => w.activeOutputDevices

/-- The very call asks for the HiFi route. -/
def requestsRoute (entry : Option Entry) : Bool :=
  match entry with
  | some (.outSetParameters _ kvPairs) => requestsHifiRoute kvPairs
  | _ => false

/-- HiFi may be switched on: the user wants it, the route is requested, and the
    devices are wired. -/
structure HifiAllowed (entry : Option Entry) (w : M86Device) : Prop where
  user : w.hifiUserEnabled = true
  route : w.hifiRouteRequested = true ∨ requestsRoute entry = true
  wired : isWiredOutput (effectiveDevices entry w) = true

/-- A call that sends `hifi_state=on` to a stream is allowed to. -/
def SafeEvent : Event → Prop
  | .called (.setStreamParameters _ (some text)) w entry =>
    hifiOn ∈ tokens text → HifiAllowed entry w
  | _ => True

/-- The stream of an output takes parameters. -/
def takesParameters (stream : Option FlymeStreamOut) : Bool := stream.any FlymeStreamOut.setParameters

/-- The invariant of the log. -/
structure HifiInv (h : Hal) : Prop where
  safe : ∀ e ∈ h.log, SafeEvent e
  unsent : ∀ output stream, h.outputs output = some stream → takesParameters stream = false →
    lastHifi output h.log = none

/-! ## Texts -/

theorem isToken_hifiStateText (active : Bool) : IsToken (hifiStateText active) := by
  cases active <;> decide

theorem hifiStateText_eq_hifiOn {active : Bool} : hifiStateText active = hifiOn ↔ active = true := by
  cases active <;> decide

theorem hifiStateOf_hifiStateText (active : Bool) :
    hifiStateOf (some (hifiStateText active)) = some active := by
  rw [hifiStateOf, Option.bind_some, (isToken_hifiStateText active).tokens]
  cases active <;> decide

theorem routingText_eq (devices : Devices) :
    routingText devices = 'r' :: (lit "outing=" ++ Nat.toDigits 10 devices.toNat) := by
  have hlit : lit "routing=" = 'r' :: lit "outing=" := by decide
  unfold routingText
  generalize Nat.toDigits 10 devices.toNat = digits
  rw [hlit, List.cons_append]

theorem isToken_routingText (devices : Devices) : IsToken (routingText devices) := by
  have hdigit : Unseparated (Nat.toDigits 10 devices.toNat) := by
    intro c hc
    have hd := Nat.isDigit_of_mem_toDigits (by decide) (by decide) hc
    rw [isSeparator, Bool.or_eq_false_iff, beq_eq_false_iff_ne, beq_eq_false_iff_ne]
    constructor <;>
      · rintro rfl
        exact absurd hd (by decide)
  have hlit : Unseparated (lit "outing=") := by decide
  rw [routingText_eq]
  refine ⟨List.cons_ne_nil _ _, ?_, ?_⟩
  · rw [List.head?_cons]
    decide
  · intro c hc
    rcases List.mem_cons.mp hc with rfl | hc
    · decide
    · exact (List.mem_append.mp hc).elim (hlit c) (hdigit c)

theorem hifiOn_not_mem_routingText (devices : Devices) : hifiOn ∉ tokens (routingText devices) := by
  have hhead : hifiOn.head? = some 'h' := by decide
  rw [(isToken_routingText devices).tokens, List.mem_singleton]
  intro h
  rw [h, routingText_eq, List.head?_cons] at hhead
  exact absurd hhead (by decide)

theorem unseparated_hifiState : Unseparated (lit "hifi_state") := by decide

/-- **What `out_set_parameters` forwards** has `hifi_state=on` only where the call
    asks for it, the user wants it and the effective devices are wired. -/
theorem forwardedParameters_allowed {w : M86Device} {kvPairs : Option CString} {output : Output}
    {text : CString} (h : w.forwardedParameters kvPairs = some (some text))
    (hon : hifiOn ∈ tokens text) : HifiAllowed (some (.outSetParameters output kvPairs)) w := by
  have hkey : hasKey (lit "hifi_state") hifiOn = true := by decide
  unfold M86Device.forwardedParameters at h
  split_ifs at h with hroute
  · obtain ⟨rewritten, hreplace, heq⟩ := Option.map_eq_some_iff.mp h
    obtain rfl := Option.some.inj heq
    cases kvPairs with
    | none => cases hroute
    | some kvPairs =>
      rw [tokens_replaceParameter unseparated_hifiState (isToken_hifiStateText _) hreplace] at hon
      obtain ⟨token, -, htoken⟩ := List.mem_map.mp hon
      unfold rewriteToken at htoken
      split_ifs at htoken with hhas
      · have heffective := hifiStateText_eq_hifiOn.mp htoken
        rw [Bool.and_eq_true, Bool.and_eq_true] at heffective
        exact ⟨heffective.1.1, .inr heffective.1.2, heffective.2⟩
      · rw [htoken] at hhas
        exact absurd hkey hhas
  · obtain rfl := Option.some.inj h
    have hnone : findLoop (lit "hifi_state") 32 text = none := Option.not_isSome_iff_eq_none.mp hroute
    rw [findLoop_eq unseparated_hifiState, Option.map_eq_none_iff, List.find?_eq_none] at hnone
    exact absurd hkey (hnone _ hon)

/-! ## Calls of the library -/

section

variable {flyme : Flyme} {entry : Option Entry} {h : Hal}

theorem lastHifi_called (output o : Output) (kvPairs : Option CString) (w : M86Device)
    (entry : Option Entry) (log : List Event) :
    lastHifi output (.called (.setStreamParameters o kvPairs) w entry :: log) =
      if o = output then (hifiStateOf kvPairs).or (lastHifi output log)
      else lastHifi output log := rfl

theorem lastHifi_opened (output o : Output) (log : List Event) :
    lastHifi output (.opened o :: log) = if o = output then none else lastHifi output log := rfl

/-- What a call of the library may be. -/
def CallOk (entry : Option Entry) (h : Hal) : FlymeCall → Prop
  | .setStreamParameters output kvPairs =>
    (∃ stream, h.outputs output = some stream ∧ takesParameters stream = true) ∧
      ∀ text, kvPairs = some text → hifiOn ∈ tokens text → HifiAllowed entry h.wrapper
  | _ => True

theorem CallOk.safeEvent {c : FlymeCall} (hok : CallOk entry h c) :
    SafeEvent (.called c h.wrapper entry) := by
  cases c with
  | setStreamParameters output kvPairs =>
    cases kvPairs with
    | none => exact trivial
    | some text => exact hok.2 text rfl
  | _ => exact trivial

/-- A call of the library keeps the invariant. -/
theorem HifiInv.call (hi : HifiInv h) {c : FlymeCall} (hok : CallOk entry h c) :
    HifiInv (h.call flyme entry c).2 := by
  refine ⟨?_, ?_⟩
  · show ∀ e ∈ Event.called c h.wrapper entry :: h.log, SafeEvent e
    exact List.forall_mem_cons.mpr ⟨hok.safeEvent, hi.safe⟩
  · intro output stream hs htakes
    have hrest := hi.unsent output stream hs htakes
    show lastHifi output (.called c h.wrapper entry :: h.log) = none
    cases c with
    | setStreamParameters o kvPairs =>
      obtain ⟨⟨stream', hs', htakes'⟩, -⟩ := hok
      rw [lastHifi_called, if_neg]
      · exact hrest
      · rintro rfl
        rw [Option.some.inj (hs.symm.trans hs'), htakes'] at htakes
        cases htakes
    | _ => exact hrest

theorem HifiInv.applyHeadphoneVolume (hi : HifiInv h) :
    HifiInv (h.applyHeadphoneVolume flyme entry).2 := by
  unfold Hal.applyHeadphoneVolume
  split_ifs
  · exact hi.call trivial
  · exact hi

theorem HifiInv.applyHifiGain (hi : HifiInv h) : HifiInv (h.applyHifiGain flyme entry).2 := by
  unfold Hal.applyHifiGain
  split_ifs
  · exact hi.call trivial
  · exact hi

theorem HifiInv.applyOutputDevice (hi : HifiInv h) (devices : Devices) :
    HifiInv (h.applyOutputDevice flyme entry devices).2 := by
  obtain ⟨output, stream, -, hs, hset, heq⟩ | ⟨_, -, heq⟩ :=
    Hal.applyOutputDevice_cases flyme entry devices h
  · rw [heq]
    apply hi.call
    refine ⟨⟨_, hs, hset⟩, ?_⟩
    intro text htext hon
    obtain rfl := Option.some.inj htext
    exact absurd hon (hifiOn_not_mem_routingText devices)
  · rw [heq]
    exact hi

/-- The retained state is sent where the effective devices are the active ones. -/
theorem HifiInv.applyHifiState (hi : HifiInv h)
    (hplain : effectiveDevices entry h.wrapper = h.wrapper.activeOutputDevices) :
    HifiInv (h.applyHifiState flyme entry).2 := by
  obtain ⟨output, stream, -, hs, hset, heq⟩ | ⟨-, heq⟩ := Hal.applyHifiState_cases flyme entry h
  · rw [heq]
    apply hi.call
    refine ⟨⟨_, hs, hset⟩, ?_⟩
    intro text htext hon
    obtain rfl := Option.some.inj htext
    rw [(isToken_hifiStateText _).tokens, List.mem_singleton] at hon
    have hactive := hifiStateText_eq_hifiOn.mp hon.symm
    rw [M86Device.hifiActive, Bool.and_eq_true, Bool.and_eq_true] at hactive
    exact ⟨hactive.1.1, .inl hactive.1.2, by rw [hplain]; exact hactive.2⟩
  · rw [heq]
    exact hi

/-- The invariant is about the log and the outputs. -/
theorem HifiInv.of_eq {h' : Hal} (hi : HifiInv h) (hlog : h'.log = h.log)
    (houtputs : h'.outputs = h.outputs) : HifiInv h' := by
  refine ⟨?_, ?_⟩
  · rw [hlog]
    exact hi.safe
  · rw [hlog, houtputs]
    exact hi.unsent

/-- The devices become active, and the volume is applied. -/
theorem HifiInv.setActiveDevices (flyme : Flyme) (entry : Option Entry) (hi : HifiInv h)
    (devices : Devices) :
    HifiInv ((h.setActiveDevices devices).applyHeadphoneVolume flyme entry).2 := by
  have hset : HifiInv (h.setActiveDevices devices) := hi.of_eq rfl rfl
  exact hset.applyHeadphoneVolume

theorem HifiInv.routeTo (hi : HifiInv h) {devices : Devices}
    (hplain : effectiveDevices entry { h.wrapper with activeOutputDevices := devices } = devices) :
    HifiInv (h.routeTo flyme entry devices) := by
  have hvolume := hi.setActiveDevices flyme entry devices
  unfold Hal.routeTo
  dsimp only
  rw [Hal.applyHifiPolicy_snd]
  apply hvolume.applyHifiGain.applyHifiState
  rw [Hal.applyHifiGain_wrapper, Hal.applyHeadphoneVolume_wrapper]
  exact hplain

theorem HifiInv.requestRoute (hi : HifiInv h) (requested : Bool) :
    HifiInv (h.requestRoute flyme entry requested) := by
  have hset : HifiInv { h with wrapper := { h.wrapper with hifiRouteRequested := requested } } :=
    hi.of_eq rfl rfl
  exact hset.applyHifiGain

/-! ## What is sent last -/

/-- What applying the state leaves sent to the active output. -/
theorem lastHifi_applyHifiState (flyme : Flyme) (entry : Option Entry) (hi : HifiInv h) {output : Output}
    {stream : Option FlymeStreamOut} (hactive : h.wrapper.activeOutput = some output)
    (hs : h.outputs output = some stream) :
    lastHifi output (h.applyHifiState flyme entry).2.log =
      if takesParameters stream then some h.wrapper.hifiActive else none := by
  obtain ⟨output', stream', ho, hs', hset, heq⟩ | ⟨hnot, heq⟩ :=
    Hal.applyHifiState_cases flyme entry h
  · obtain rfl := Option.some.inj (hactive.symm.trans ho)
    obtain rfl := Option.some.inj (hs.symm.trans hs')
    have htakes : takesParameters (some stream') = true := hset
    rw [heq, htakes, if_pos rfl]
    show lastHifi output (.called _ h.wrapper entry :: h.log) = _
    rw [lastHifi_called, if_pos rfl, hifiStateOf_hifiStateText]
    rfl
  · have htakes : takesParameters stream = false := by
      cases stream with
      | none => rfl
      | some stream => exact hnot output stream hactive hs
    rw [heq, htakes]
    exact hi.unsent output stream hs htakes

theorem lastHifi_applyHifiGain (output : Output) :
    lastHifi output (h.applyHifiGain flyme entry).2.log = lastHifi output h.log := by
  unfold Hal.applyHifiGain
  split_ifs <;> rfl

/-- **What a routing leaves sent** to the active output. -/
theorem lastHifi_routeTo {output : Output} {stream : Option FlymeStreamOut} {devices : Devices}
    (hi : HifiInv h) (hactive : h.wrapper.activeOutput = some output)
    (hs : h.outputs output = some stream) :
    lastHifi output (h.routeTo flyme entry devices).log =
      if takesParameters stream then some (h.routeTo flyme entry devices).wrapper.hifiActive
      else none := by
  have hvolume := hi.setActiveDevices flyme entry devices
  have hgain : HifiInv (((h.setActiveDevices devices).applyHeadphoneVolume flyme
      entry).2.applyHifiGain flyme entry).2 := hvolume.applyHifiGain
  have hsent := lastHifi_applyHifiState flyme entry hgain
    (by simpa [Hal.setActiveDevices] using hactive) (by simpa [Hal.setActiveDevices] using hs)
  rw [Hal.routeTo_wrapper]
  unfold Hal.routeTo
  dsimp only
  rw [Hal.applyHifiPolicy_snd, hsent]
  simp [Hal.setActiveDevices]

end

/-! ## Entry points -/

section

variable {flyme : Flyme} {h : Hal}

theorem HifiInv.storeHifiProperties (hi : HifiInv h) : HifiInv h.storeHifiProperties := by
  refine ⟨?_, hi.unsent⟩
  show ∀ e ∈ Event.stored h.wrapper.hifiUserEnabled h.wrapper.hifiGain :: h.log, SafeEvent e
  exact List.forall_mem_cons.mpr ⟨trivial, hi.safe⟩

theorem HifiInv.setParameters (hi : HifiInv h) (kvPairs : Option CString) :
    HifiInv (setParameters flyme kvPairs h).2 := by
  unfold Audio.setParameters
  dsimp only
  split_ifs
  · exact hi.applyHeadphoneVolume
  · cases findParameter kvPairs (lit "m86_hifi_enabled") 32 with
    | none =>
      split
      · exact hi.storeHifiProperties
      · split
        · exact hi
        · exact HifiInv.storeHifiProperties (hi.of_eq rfl rfl)
    | some state =>
      have hi' : HifiInv { h with wrapper := { h.wrapper with hifiUserEnabled := isOn state } } :=
        hi.of_eq rfl rfl
      split
      · exact hi'.storeHifiProperties
      · split
        · exact hi'
        · exact HifiInv.storeHifiProperties (hi'.of_eq rfl rfl)
  · exact hi.call trivial
  · exact hi

/-- Opening resets what was sent to the address. -/
theorem HifiInv.opened (hi : HifiInv h) (output : Output) : HifiInv (h.opened flyme output) := by
  refine ⟨?_, ?_⟩
  · exact List.forall_mem_cons.mpr ⟨trivial, hi.safe⟩
  · intro o stream hs htakes
    show lastHifi o (.opened output :: h.log) = none
    rw [lastHifi_opened]
    by_cases ho : output = o
    · rw [if_pos ho]
    · rw [if_neg ho]
      have hs : Function.update h.outputs output _ o = some stream := hs
      rw [Function.update_of_ne (Ne.symm ho)] at hs
      exact hi.unsent o stream hs htakes

theorem HifiInv.openOutput (hi : HifiInv h) (devices : Devices) (hasStream : Bool)
    (allocated : Option Output) : HifiInv (openOutput flyme devices hasStream allocated h).2 := by
  have hcalled : HifiInv (h.call flyme (some (.openOutput devices hasStream allocated))
      (.openOutputStream devices)).2 := hi.call trivial
  obtain ⟨_, -, heq | heq | ⟨-, heq⟩⟩ | ⟨output, -, heq⟩ :=
    openOutput_cases flyme devices hasStream allocated h
  · rw [heq]
    exact hi
  · rw [heq]
    exact hcalled
  · rw [heq]
    dsimp only
    apply hcalled.call
    exact trivial
  · rw [heq]
    apply (hcalled.opened output).routeTo
    rfl

theorem HifiInv.closed (hi : HifiInv h) (output : Output) :
    HifiInv { h with outputs := Function.update h.outputs output none } := by
  refine ⟨hi.safe, ?_⟩
  intro o stream hs htakes
  dsimp only at hs
  by_cases ho : o = output
  · rw [ho, Function.update_self] at hs
    cases hs
  · rw [Function.update_of_ne ho] at hs
    exact hi.unsent o stream hs htakes

theorem HifiInv.closeOutput (hi : HifiInv h) (stream : Option Output) :
    HifiInv (closeOutput flyme stream h) := by
  cases stream with
  | none => exact hi
  | some output =>
    have hcleared : ∀ w, HifiInv { h with wrapper := w } := fun _ => hi.of_eq rfl rfl
    unfold Audio.closeOutput
    dsimp only
    apply HifiInv.closed
    split_ifs
    · apply (hcleared _).call
      exact trivial
    · apply hi.call
      exact trivial
    · exact hcleared _
    · exact hi

theorem HifiInv.acceptDevice {entry : Option Entry} (hi : HifiInv h) {device : Devices}
    (hplain : effectiveDevices entry { h.wrapper with activeOutputDevices := device } = device) :
    HifiInv (h.acceptDevice flyme entry device) := by
  have hvolume := hi.setActiveDevices flyme entry device
  have hstate : HifiInv (((h.setActiveDevices device).applyHeadphoneVolume flyme
      entry).2.applyHifiState flyme entry).2 := by
    apply hvolume.applyHifiState
    rw [Hal.applyHeadphoneVolume_wrapper]
    exact hplain
  exact hstate.applyHifiGain

theorem HifiInv.outSetDevice (hi : HifiInv h) (output : Output) (device : Devices) :
    HifiInv (outSetDevice flyme output device h).2 := by
  have hcalled : HifiInv (h.call flyme (some (.outSetDevice output device))
      (.setDevice output device)).2 := hi.call trivial
  obtain ⟨_, -, heq | heq⟩ | heq := outSetDevice_cases flyme output device h
  · rw [heq]
    exact hi
  · rw [heq]
    exact hcalled
  · rw [heq]
    apply hcalled.acceptDevice
    rfl

/-- What is forwarded is allowed where it is sent. -/
theorem HifiInv.forwarded (flyme : Flyme) (hi : HifiInv h) {output : Output} {kvPairs forwarded : Option CString}
    {stream : FlymeStreamOut} (hs : h.outputs output = some (some stream))
    (hset : stream.setParameters = true)
    (hforwarded : h.wrapper.forwardedParameters kvPairs = some forwarded) :
    HifiInv (h.call flyme (some (.outSetParameters output kvPairs))
      (.setStreamParameters output forwarded)).2 := by
  apply hi.call
  refine ⟨⟨_, hs, hset⟩, ?_⟩
  rintro text rfl hon
  exact forwardedParameters_allowed hforwarded hon

theorem HifiInv.requestBy {entry : Option Entry} (hi : HifiInv h) (kvPairs : Option CString) :
    HifiInv (h.requestBy flyme entry kvPairs) := by
  unfold Hal.requestBy
  split_ifs
  · exact hi.requestRoute _
  · exact hi

/-- The routing of the very call is the one that becomes active. -/
theorem HifiInv.outSetParameters (hi : HifiInv h) (output : Output) (kvPairs : Option CString) :
    HifiInv (outSetParameters flyme output kvPairs h).2 := by
  obtain ⟨_, -, heq⟩ | ⟨stream, forwarded, hs, hset, hforwarded, hresult⟩ :=
    outSetParameters_cases flyme output kvPairs h
  · rw [heq]
    exact hi
  · have hcalled := hi.forwarded flyme hs hset hforwarded
    obtain ⟨-, heq⟩ | ⟨-, -, heq⟩ | ⟨devices, -, hrouting, heq⟩ := hresult
    · rw [heq]
      exact hcalled
    · rw [heq]
      exact hcalled.requestBy kvPairs
    · rw [heq]
      apply (hcalled.requestBy kvPairs).routeTo
      rw [effectiveDevices, hrouting, Option.getD_some]

theorem HifiInv.createAudioPatch (hi : HifiInv h) (sinks : List Sink) :
    HifiInv (createAudioPatch flyme sinks h).2 := by
  obtain heq | ⟨-, heq⟩ | ⟨devices, -, ⟨-, heq⟩ | ⟨-, heq⟩⟩ :=
    createAudioPatch_cases flyme sinks h
  · rw [heq]
    exact hi
  · rw [heq]
    exact hi
  · rw [heq]
    exact hi.applyOutputDevice devices
  · rw [heq]
    apply (hi.applyOutputDevice devices).routeTo
    rfl

/-- **Every entry point keeps the invariant.** -/
theorem HifiInv.perform (hi : HifiInv h) (entry : Entry) : HifiInv (perform flyme entry h).2 := by
  cases entry with
  | setParameters kvPairs => exact hi.setParameters kvPairs
  | openOutput devices hasStream allocated => exact hi.openOutput devices hasStream allocated
  | closeOutput stream => exact hi.closeOutput stream
  | outSetDevice stream device => exact hi.outSetDevice stream device
  | outSetParameters stream kvPairs => exact hi.outSetParameters stream kvPairs
  | createAudioPatch sinks => exact hi.createAudioPatch sinks
  | releaseAudioPatch => exact hi

theorem HifiInv.moduleOpen (flyme : Flyme) (enabled gain : CString) :
    HifiInv (moduleOpen flyme enabled gain) := by
  have hempty : HifiInv ⟨loadHifiProperties enabled gain, fun _ => none, []⟩ :=
    ⟨fun e he => absurd he List.not_mem_nil, fun _ _ _ _ => rfl⟩
  exact hempty.applyHifiGain

theorem lastHifi_acceptDevice {entry : Option Entry} {output : Output}
    {stream : Option FlymeStreamOut} {device : Devices} (hi : HifiInv h)
    (hactive : h.wrapper.activeOutput = some output) (hs : h.outputs output = some stream) :
    lastHifi output (h.acceptDevice flyme entry device).log =
      if takesParameters stream then
        some (h.acceptDevice flyme entry device).wrapper.hifiActive
      else none := by
  have hvolume := hi.setActiveDevices flyme entry device
  have hsent := lastHifi_applyHifiState flyme entry hvolume
    (by simpa [Hal.setActiveDevices] using hactive) (by simpa [Hal.setActiveDevices] using hs)
  rw [Hal.acceptDevice_wrapper]
  unfold Hal.acceptDevice
  dsimp only
  rw [lastHifi_applyHifiGain, hsent]
  simp [Hal.setActiveDevices]

/-- What was last sent to an output is what the wrapper's fields say, if the output
    takes parameters; otherwise nothing was. -/
def SentLast (output : Output) (h : Hal) : Prop :=
  ∃ stream, h.outputs output = some stream ∧ lastHifi output h.log =
    if takesParameters stream then some h.wrapper.hifiActive else none

theorem sentLast_routeTo {entry : Option Entry} {output : Output} {devices : Devices}
    (hi : HifiInv h) (hopen : h.outputs output ≠ none)
    (hactive : (h.routeTo flyme entry devices).wrapper.activeOutput = some output) :
    SentLast output (h.routeTo flyme entry devices) := by
  obtain ⟨stream, hs⟩ := Option.ne_none_iff_exists'.mp hopen
  rw [Hal.routeTo_wrapper] at hactive
  exact ⟨stream, by rw [Hal.routeTo_outputs, hs], lastHifi_routeTo hi hactive hs⟩

theorem sentLast_acceptDevice {entry : Option Entry} {output : Output} {device : Devices}
    (hi : HifiInv h) (hopen : h.outputs output ≠ none)
    (hactive : (h.acceptDevice flyme entry device).wrapper.activeOutput = some output) :
    SentLast output (h.acceptDevice flyme entry device) := by
  obtain ⟨stream, hs⟩ := Option.ne_none_iff_exists'.mp hopen
  rw [Hal.acceptDevice_wrapper] at hactive
  exact ⟨stream, by rw [Hal.acceptDevice_outputs, hs], lastHifi_acceptDevice hi hactive hs⟩

/-- **A routing of the active output** that succeeds tells it what the fields say. -/
theorem HifiInv.routed (hi : HifiInv h) {entry : Entry} (hlegal : entry.Legal h)
    {output : Output} {devices : Devices} (hroutes : entry.routes h.wrapper = some (output, devices))
    (hresult : (Audio.perform flyme entry h).1 = 0)
    (hactive : (Audio.perform flyme entry h).2.wrapper.activeOutput = some output) :
    SentLast output (Audio.perform flyme entry h).2 := by
  cases entry with
  | openOutput d hasStream allocated =>
    have hcalled : HifiInv (h.call flyme (some (.openOutput d hasStream allocated))
        (.openOutputStream d)).2 := hi.call trivial
    obtain ⟨_, herror, heq | heq | ⟨-, heq⟩⟩ | ⟨o, rfl, heq⟩ :=
      openOutput_cases flyme d hasStream allocated h
    · exact absurd ((congrArg Prod.fst heq).symm.trans hresult) herror
    · exact absurd ((congrArg Prod.fst heq).symm.trans hresult) herror
    · exact absurd ((congrArg Prod.fst heq).symm.trans hresult) herror
    · obtain ⟨rfl, rfl⟩ := Prod.mk.inj (Option.some.inj hroutes)
      rw [Audio.perform, heq] at hactive ⊢
      apply sentLast_routeTo (hcalled.opened o) _ hactive
      simp [Hal.opened]
  | outSetDevice o d =>
    have hcalled : HifiInv (h.call flyme (some (.outSetDevice o d)) (.setDevice o d)).2 :=
      hi.call trivial
    obtain ⟨rfl, rfl⟩ := Prod.mk.inj (Option.some.inj hroutes)
    obtain ⟨_, herror, heq | heq⟩ | heq := outSetDevice_cases flyme o d h
    · exact absurd ((congrArg Prod.fst heq).symm.trans hresult) herror
    · exact absurd ((congrArg Prod.fst heq).symm.trans hresult) herror
    · rw [Audio.perform, heq] at hactive ⊢
      exact sentLast_acceptDevice hcalled hlegal hactive
  | outSetParameters o kvPairs =>
    obtain ⟨d, hrouting, ho⟩ := Option.map_eq_some_iff.mp hroutes
    obtain ⟨rfl, rfl⟩ := Prod.mk.inj ho
    obtain ⟨_, herror, heq⟩ | ⟨stream, forwarded, hs, hset, hforwarded, hcases⟩ :=
      outSetParameters_cases flyme o kvPairs h
    · exact absurd ((congrArg Prod.fst heq).symm.trans hresult) herror
    · have hcalled := hi.forwarded flyme hs hset hforwarded
      obtain ⟨herror, heq⟩ | ⟨-, hnone, -⟩ | ⟨d', -, hrouting', heq⟩ := hcases
      · exact absurd ((congrArg Prod.fst heq).symm.trans hresult) herror
      · exact absurd (hrouting.symm.trans hnone) (Option.some_ne_none _)
      · rw [Audio.perform, heq] at hactive ⊢
        apply sentLast_routeTo (hcalled.requestBy kvPairs) _ hactive
        rw [Hal.requestBy_outputs]
        exact hlegal
  | createAudioPatch sinks =>
    obtain ⟨o, ho, hmap⟩ := Option.bind_eq_some_iff.mp hroutes
    obtain ⟨d, hdevices, hod⟩ := Option.map_eq_some_iff.mp hmap
    obtain ⟨rfl, rfl⟩ := Prod.mk.inj hod
    obtain heq | ⟨hnone, -⟩ | ⟨d', hdevices', ⟨herror, heq⟩ | ⟨happlied, heq⟩⟩ :=
      createAudioPatch_cases flyme sinks h
    · exact absurd ((congrArg Prod.fst heq).symm.trans hresult) (show einval ≠ 0 by decide)
    · exact absurd (hdevices.symm.trans hnone) (Option.some_ne_none _)
    · exact absurd ((congrArg Prod.fst heq).symm.trans hresult) herror
    · rw [Audio.perform, heq] at hactive ⊢
      apply sentLast_routeTo (hi.applyOutputDevice d') _ hactive
      rw [Hal.applyOutputDevice_outputs]
      obtain ⟨o', stream, ho', hs, -, -⟩ | ⟨error, herror, heq'⟩ :=
        Hal.applyOutputDevice_cases flyme (some (.createAudioPatch sinks)) d' h
      · obtain rfl := Option.some.inj (ho.symm.trans ho')
        rw [hs]
        exact Option.some_ne_none _
      · exact absurd ((congrArg Prod.fst heq').symm.trans happlied) herror
  | setParameters _ => cases hroutes
  | closeOutput _ => cases hroutes
  | releaseAudioPatch => cases hroutes

end

/-! ## Every run -/

open Lib.System

/-- **HiFi is safe in every run** of the wrapper: `hifi_state=on` is sent only while it
    is allowed, and a routing of the active output that succeeds sends the stream what
    the fields say, if the stream takes parameters at all. -/
theorem hifi_safe {flyme : Flyme} {enabled gain : CString} {h : Hal}
    (hrun : (audioWrapper flyme).Reach AnyInput (moduleOpen flyme enabled gain) h) :
    (∀ e ∈ h.log, SafeEvent e) ∧
      ∀ (entry : Entry) (output : Output) (devices : Devices), entry.Legal h →
        entry.routes h.wrapper = some (output, devices) → (perform flyme entry h).1 = 0 →
        (perform flyme entry h).2.wrapper.activeOutput = some output →
        SentLast output (perform flyme entry h).2 := by
  have hi : HifiInv h :=
    hrun.invariant HifiInv (.moduleOpen flyme enabled gain) fun _ _ hi => hi.perform _
  refine ⟨hi.safe, ?_⟩
  intro entry output devices hlegal hroutes hresult hactive
  exact hi.routed hlegal hroutes hresult hactive

/-- A library whose second stream does not take parameters. -/
def deafFlyme : Flyme where
  device := ⟨true, true, true, true⟩
  answer _ := 0
  stream log := some ⟨true, log.all fun e => match e with | .opened _ => false | _ => true⟩

/-- The route is requested on the first of two outputs. -/
def deafRun : List Entry :=
  [.openOutput deviceOutSpeaker true (some 1), .outSetParameters 1 (some hifiOn),
    .openOutput deviceOutWiredHeadset true (some 2)]

theorem hifiRouteOf_hifiOn : hifiRouteOf (some hifiOn) = some (lit "on") := by
  rw [hifiRouteOf, findParameter, Option.bind_some, findLoop_eq unseparated_hifiState]
  decide

theorem replaceParameter_hifiOn {replacement : CString} (hlen : replacement.length < 512) :
    replaceParameter (some hifiOn) (lit "hifi_state") replacement 512 = some replacement := by
  have hskip : hifiOn.dropWhile isSkipped = hifiOn := by decide
  have hbehind : behindToken hifiOn = [] := by decide
  have hkey : hasKey (lit "hifi_state") hifiOn = true := by decide
  have hne : hifiOn ≠ [] := by decide
  have hloop : replaceLoop (lit "hifi_state") replacement 512 hifiOn [] false =
      some (replacement, true) := by
    rw [replaceLoop, dif_neg hne]
    dsimp only
    rw [hskip, if_neg hne, hbehind, hkey, replacedToken, if_pos hkey, appendToken, if_pos rfl,
      List.append_nil, List.nil_append, if_neg (by omega), replaceLoop, dif_pos rfl]
    rfl
  rw [replaceParameter, Option.bind_eq_bind, Option.bind_some, hloop]
  rfl

theorem forwardedParameters_hifiOn (w : M86Device) :
    ∃ forwarded, w.forwardedParameters (some hifiOn) = some forwarded := by
  have hlen : ∀ active, (hifiStateText active).length < 512 := by decide
  unfold M86Device.forwardedParameters
  rw [hifiRouteOf_hifiOn, Option.isSome_some, if_pos rfl]
  dsimp only
  rw [replaceParameter_hifiOn (hlen _)]
  exact ⟨_, rfl⟩

/-- The first output accepts the request. -/
theorem outSetParameters_hifiOn {h : Hal} (hs : h.outputs 1 = some (some ⟨true, true⟩)) :
    let h' := (outSetParameters deafFlyme 1 (some hifiOn) h).2
    h'.wrapper = { h.wrapper with hifiRouteRequested := true } ∧ h'.outputs = h.outputs ∧
      ∃ forwarded w entry w' entry' gain,
        h'.log = .called (.setDeviceParameters gain) w' entry' ::
          .called (.setStreamParameters 1 forwarded) w entry :: h.log := by
  obtain ⟨forwarded, hforwarded⟩ := forwardedParameters_hifiOn h.wrapper
  have hrouting : routingOf (some hifiOn) = none := by
    have hkey : Unseparated (lit "routing") := by decide
    rw [routingOf, findParameter, Option.bind_some, findLoop_eq hkey]
    decide
  have hon : requestsHifiRoute (some hifiOn) = true := by
    rw [requestsHifiRoute, hifiRouteOf_hifiOn]
    decide
  have hresult : outSetParameters deafFlyme 1 (some hifiOn) h = (0,
      (h.call deafFlyme (some (.outSetParameters 1 (some hifiOn)))
        (.setStreamParameters 1 forwarded)).2.requestRoute deafFlyme
          (some (.outSetParameters 1 (some hifiOn))) true) := by
    unfold outSetParameters
    rw [Hal.flymeStream_eq_some.mpr hs, hforwarded, hrouting, hifiRouteOf_hifiOn, hon]
    rfl
  rw [hresult]
  exact ⟨rfl, rfl, forwarded, _, _, _, _, _, rfl⟩

/-- **Nothing is sent to a stream that takes no parameters**, whatever is routed. -/
theorem unheard_hifi :
    let h := (audioWrapper deafFlyme).after (moduleOpen deafFlyme (lit "1") (lit "0")) deafRun
    let entry : Entry := .outSetDevice 2 deviceOutWiredHeadset
    let h' := (perform deafFlyme entry h).2
    (audioWrapper deafFlyme).Reach AnyInput (moduleOpen deafFlyme (lit "1") (lit "0")) h ∧
      entry.Legal h ∧ entry.routes h.wrapper = some (2, deviceOutWiredHeadset) ∧
      (perform deafFlyme entry h).1 = 0 ∧ h'.wrapper.activeOutput = some 2 ∧
      h'.wrapper.hifiActive = true ∧ lastHifi 2 h'.log = none := by
  have hopen : (perform deafFlyme (.openOutput deviceOutSpeaker true (some 1))
      (moduleOpen deafFlyme (lit "1") (lit "0"))).2.outputs 1 = some (some ⟨true, true⟩) := rfl
  obtain ⟨hwrapper, houtputs, forwarded, w, entry, w', entry', gain, hlog⟩ :=
    outSetParameters_hifiOn hopen
  have hallowed : (audioWrapper deafFlyme).Allowed AnyInput
      (moduleOpen deafFlyme (lit "1") (lit "0")) deafRun := by
    refine ⟨rfl, trivial, ?_, trivial, ?_, trivial, trivial⟩
    · exact Option.some_ne_none _
    · exact congrFun houtputs 2
  have hafter : (audioWrapper deafFlyme).after (moduleOpen deafFlyme (lit "1") (lit "0")) deafRun =
      (openOutput deafFlyme deviceOutWiredHeadset true (some 2)
        (outSetParameters deafFlyme 1 (some hifiOn) (perform deafFlyme
          (.openOutput deviceOutSpeaker true (some 1))
          (moduleOpen deafFlyme (lit "1") (lit "0"))).2).2).2 := rfl
  refine ⟨reach_after hallowed, ?_⟩
  rw [hafter]
  generalize (outSetParameters deafFlyme 1 (some hifiOn) _).2 = h2 at hwrapper houtputs hlog
  obtain ⟨w2, o2, l2⟩ := h2
  dsimp only at hwrapper houtputs hlog
  subst hwrapper houtputs hlog
  refine ⟨Option.some_ne_none _, rfl, rfl, rfl, ?_, rfl⟩
  have huser : (loadHifiProperties (lit "1") (lit "0")).hifiUserEnabled = true := by decide
  show ((loadHifiProperties (lit "1") (lit "0")).hifiUserEnabled && true &&
    isWiredOutput deviceOutWiredHeadset) = true
  rw [huser]
  decide

/-- The route is requested on the only output. -/
def wiredRun : List Entry :=
  [.openOutput deviceOutSpeaker true (some 1), .outSetParameters 1 (some hifiOn)]

def wiredHal : Hal :=
  (audioWrapper deafFlyme).after (moduleOpen deafFlyme (lit "1") (lit "0")) wiredRun

/-- Headphones are routed. -/
abbrev routeHeadphone : Entry := .outSetDevice 1 deviceOutWiredHeadphone

theorem perform_routeHeadphone :
    routeHeadphone.Legal wiredHal ∧
      routeHeadphone.routes wiredHal.wrapper = some (1, deviceOutWiredHeadphone) ∧
      (perform deafFlyme routeHeadphone wiredHal).1 = 0 ∧
      (perform deafFlyme routeHeadphone wiredHal).2.wrapper.activeOutput = some 1 ∧
      (perform deafFlyme routeHeadphone wiredHal).2.wrapper.hifiActive = true ∧
      (perform deafFlyme routeHeadphone wiredHal).2.outputs 1 = some (some ⟨true, true⟩) := by
  have hopen : (perform deafFlyme (.openOutput deviceOutSpeaker true (some 1))
      (moduleOpen deafFlyme (lit "1") (lit "0"))).2.outputs 1 = some (some ⟨true, true⟩) := rfl
  obtain ⟨hwrapper, houtputs, forwarded, w, entry, w', entry', gain, hlog⟩ :=
    outSetParameters_hifiOn hopen
  have hafter : wiredHal = (outSetParameters deafFlyme 1 (some hifiOn) (perform deafFlyme
      (.openOutput deviceOutSpeaker true (some 1))
      (moduleOpen deafFlyme (lit "1") (lit "0"))).2).2 := rfl
  rw [← hafter] at hwrapper houtputs hlog
  generalize wiredHal = h at hwrapper houtputs hlog ⊢
  obtain ⟨w, outputs, log⟩ := h
  dsimp only at hwrapper houtputs hlog
  subst hwrapper houtputs hlog
  refine ⟨Option.some_ne_none _, rfl, rfl, rfl, ?_, rfl⟩
  have huser : (loadHifiProperties (lit "1") (lit "0")).hifiUserEnabled = true := by decide
  show ((loadHifiProperties (lit "1") (lit "0")).hifiUserEnabled && true &&
    isWiredOutput deviceOutWiredHeadphone) = true
  rw [huser]
  decide

/-- The output has been told that HiFi is on. -/
theorem hifi_safe_headphone :
    (∀ e ∈ wiredHal.log, SafeEvent e) ∧
      SentLast 1 (perform deafFlyme routeHeadphone wiredHal).2 ∧
      lastHifi 1 (perform deafFlyme routeHeadphone wiredHal).2.log = some true := by
  have hallowed : (audioWrapper deafFlyme).Allowed AnyInput
      (moduleOpen deafFlyme (lit "1") (lit "0")) wiredRun :=
    ⟨rfl, trivial, Option.some_ne_none _, trivial, trivial⟩
  obtain ⟨hsafe, hrouted⟩ := hifi_safe (reach_after hallowed)
  obtain ⟨hlegal, hroutes, hresult, hactive, hon, houtput⟩ := perform_routeHeadphone
  have hsent : SentLast 1 (perform deafFlyme routeHeadphone wiredHal).2 :=
    hrouted _ 1 deviceOutWiredHeadphone hlegal hroutes hresult hactive
  obtain ⟨stream, hstream, hlast⟩ := hsent
  obtain rfl := Option.some.inj (houtput.symm.trans hstream)
  refine ⟨hsafe, ⟨_, houtput, hlast⟩, ?_⟩
  rw [hlast, hon]
  rfl

end Pro5Android.Audio
