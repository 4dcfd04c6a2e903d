import Pro5Android.Audio.Wrapper

/-!
# Which output is active

The wrapper keeps one output and one device set for all its open outputs. An observer
that keeps the devices of every output says what the two fields are for: the active
output is open, there is one while any output is open, and the active devices are its
devices.

Two kinds of step lose this. `m86_close_output` of the active output (lines
1064–1068) makes no other open output active; and `out_set_device` and
`out_set_parameters` (lines 339–341, 402–403) overwrite the active devices, whatever
output they are called on, where `m86_close_output` compares it with the active one.

Results:
* `effect_perform`: what every entry point does to the two fields and the outputs.
* `tracked_next_iff`: the steps that keep the fields right.
* `tracking`: runs of such steps.
* `tracking_lost`: runs that end with a step of the other kinds.
-/

namespace Pro5Android.Audio

open Lib Lib.System

/-! ## The observer -/

/-- The devices that every output was last opened with or successfully routed to. -/
def recordDevices (flyme : Flyme) (h : Hal) (entry : Entry) (devicesOf : Output → Devices) :
    Output → Devices :=
  match entry.routes h.wrapper with
  | some (output, devices) =>
    if (perform flyme entry h).1 = 0 then Function.update devicesOf output devices else devicesOf
  | none => devicesOf

/-- The wrapper beside the devices of its outputs. -/
abbrev trackedWrapper (flyme : Flyme) : System (Hal × (Output → Devices)) Entry :=
  (audioWrapper flyme).observed (recordDevices flyme)

/-- The two fields are what they are for. -/
structure Tracked (s : Hal × (Output → Devices)) : Prop where
  exists_active : (∃ output, s.1.outputs output ≠ none) → s.1.wrapper.activeOutput ≠ none
  is_open : ∀ output, s.1.wrapper.activeOutput = some output → s.1.outputs output ≠ none
  devices : ∀ output, s.1.wrapper.activeOutput = some output →
    s.1.wrapper.activeOutputDevices = s.2 output

/-- No output is active just if none is open. -/
theorem Tracked.active_eq_none_iff {s : Hal × (Output → Devices)} (ht : Tracked s) :
    s.1.wrapper.activeOutput = none ↔ ∀ output, s.1.outputs output = none := by
  constructor
  · intro hactive output
    by_contra hopen
    exact ht.exists_active ⟨output, hopen⟩ hactive
  · intro hclosed
    by_contra hactive
    obtain ⟨output, ho⟩ := Option.ne_none_iff_exists'.mp hactive
    exact ht.is_open output ho (hclosed output)

/-! ## The steps that disturb -/

section

variable (flyme : Flyme) (h : Hal)

/-- Flyme accepts the device of `out_set_device`. -/
def AcceptsDevice (output : Output) (device : Devices) : Prop :=
  (∃ stream, h.outputs output = some (some stream) ∧ stream.setDevice = true) ∧
    flyme.answer (.called (.setDevice output device) h.wrapper
      (some (.outSetDevice output device)) :: h.log) = 0

/-- Flyme accepts what `out_set_parameters` forwards. -/
def AcceptsParameters (output : Output) (kvPairs : Option CString) : Prop :=
  ∃ stream forwarded, h.outputs output = some (some stream) ∧ stream.setParameters = true ∧
    h.wrapper.forwardedParameters kvPairs = some forwarded ∧
    flyme.answer (.called (.setStreamParameters output forwarded) h.wrapper
      (some (.outSetParameters output kvPairs)) :: h.log) = 0

/-- The active output is closed while another one is open, or another output than the
    active one is routed, with success and to other devices. -/
def Disturbs : Entry → Prop
  | .closeOutput (some output) =>
    h.wrapper.activeOutput = some output ∧ ∃ other, other ≠ output ∧ h.outputs other ≠ none
  | .outSetDevice output device =>
    h.wrapper.activeOutput ≠ some output ∧ h.wrapper.activeOutputDevices ≠ device ∧
      AcceptsDevice flyme h output device
  | .outSetParameters output kvPairs =>
    h.wrapper.activeOutput ≠ some output ∧
      ∃ devices, routingOf kvPairs = some devices ∧ h.wrapper.activeOutputDevices ≠ devices ∧
        AcceptsParameters flyme h output kvPairs
  | _ => False

end

/-! ## What a step does to the fields -/

section

variable {flyme : Flyme} {h : Hal}

theorem outSetDevice_eq_zero_iff {output : Output} {device : Devices} :
    (outSetDevice flyme output device h).1 = 0 ↔ AcceptsDevice flyme h output device := by
  constructor
  · intro hresult
    unfold outSetDevice at hresult
    cases hstream : h.flymeStream output with
    | none =>
      rw [hstream] at hresult
      exact absurd hresult (show enosys ≠ 0 by decide)
    | some stream =>
      rw [hstream] at hresult
      dsimp only at hresult
      split_ifs at hresult with hset hanswer
      · exact ⟨⟨stream, Hal.flymeStream_eq_some.mp hstream, hset⟩, hanswer⟩
      · exact absurd hresult hanswer
      · exact absurd hresult (show enosys ≠ 0 by decide)
  · rintro ⟨⟨stream, hs, hset⟩, hanswer⟩
    have hcall : (h.call flyme (some (.outSetDevice output device))
        (.setDevice output device)).1 = 0 := hanswer
    unfold outSetDevice
    rw [Hal.flymeStream_eq_some.mpr hs]
    dsimp only
    rw [if_pos hset, if_pos hcall]
    exact hcall

theorem outSetParameters_eq_zero_iff {output : Output} {kvPairs : Option CString} :
    (outSetParameters flyme output kvPairs h).1 = 0 ↔
      AcceptsParameters flyme h output kvPairs := by
  constructor
  · intro hresult
    obtain ⟨_, herror, heq⟩ | ⟨stream, forwarded, hs, hset, hforwarded, hcases⟩ :=
      outSetParameters_cases flyme output kvPairs h
    · exact absurd ((congrArg Prod.fst heq).symm.trans hresult) herror
    · refine ⟨stream, forwarded, hs, hset, hforwarded, ?_⟩
      obtain ⟨herror, heq⟩ | ⟨hanswer, -, -⟩ | ⟨_, hanswer, -, -⟩ := hcases
      · exact absurd ((congrArg Prod.fst heq).symm.trans hresult) herror
      · exact hanswer
      · exact hanswer
  · rintro ⟨stream, forwarded, hs, hset, hforwarded, hanswer⟩
    have hcall : (h.call flyme (some (.outSetParameters output kvPairs))
        (.setStreamParameters output forwarded)).1 = 0 := hanswer
    unfold outSetParameters
    rw [Hal.flymeStream_eq_some.mpr hs, hforwarded]
    dsimp only
    rw [if_pos hset, if_pos hcall]
    split
    · exact hcall
    · exact hcall

/-- The two fields and the outputs that a step leaves. -/
def SameFields (h h' : Hal) : Prop :=
  h'.wrapper.activeOutput = h.wrapper.activeOutput ∧
    h'.wrapper.activeOutputDevices = h.wrapper.activeOutputDevices ∧ h'.outputs = h.outputs

theorem SameFields.of_eq {h' : Hal} (hwrapper : h'.wrapper = h.wrapper)
    (houtputs : h'.outputs = h.outputs) : SameFields h h' :=
  ⟨congrArg M86Device.activeOutput hwrapper, congrArg M86Device.activeOutputDevices hwrapper,
    houtputs⟩

theorem sameFields_setParameters (kvPairs : Option CString) :
    SameFields h (setParameters flyme kvPairs h).2 := by
  unfold setParameters
  dsimp only
  split_ifs
  · exact .of_eq (Hal.applyHeadphoneVolume_wrapper h) (Hal.applyHeadphoneVolume_outputs h)
  · cases findParameter kvPairs (lit "m86_hifi_enabled") 32 with
    | none =>
      split
      · exact ⟨rfl, rfl, rfl⟩
      · split
        · exact ⟨rfl, rfl, rfl⟩
        · exact ⟨rfl, rfl, rfl⟩
    | some state =>
      split
      · exact ⟨rfl, rfl, rfl⟩
      · split
        · exact ⟨rfl, rfl, rfl⟩
        · exact ⟨rfl, rfl, rfl⟩
  · exact ⟨rfl, rfl, rfl⟩
  · exact ⟨rfl, rfl, rfl⟩

/-- The step routes with success. -/
def Routes (flyme : Flyme) (h : Hal) (entry : Entry) (output : Output) (devices : Devices) :
    Prop :=
  entry.routes h.wrapper = some (output, devices) ∧ (perform flyme entry h).1 = 0

/-- What a step does to the two fields and the outputs. -/
inductive Effect (flyme : Flyme) (h : Hal) (entry : Entry) (h' : Hal) : Prop
  /-- An output opens and becomes active. -/
  | opens (output : Output) (devices : Devices) (stream : Option FlymeStreamOut) :
    Routes flyme h entry output devices → h'.wrapper.activeOutput = some output →
    h'.wrapper.activeOutputDevices = devices →
    h'.outputs = Function.update h.outputs output (some stream) → ¬ Disturbs flyme h entry →
    Effect flyme h entry h'
  /-- An output closes; if it was active, none is. -/
  | closes (output : Output) :
    entry = .closeOutput (some output) →
    h'.wrapper.activeOutput =
      (if h.wrapper.activeOutput = some output then none else h.wrapper.activeOutput) →
    (h.wrapper.activeOutput ≠ some output →
      h'.wrapper.activeOutputDevices = h.wrapper.activeOutputDevices) →
    h'.outputs = Function.update h.outputs output none → Effect flyme h entry h'
  /-- An open output is routed. -/
  | routes (output : Output) (devices : Devices) :
    Routes flyme h entry output devices → h.outputs output ≠ none →
    h'.wrapper.activeOutput = h.wrapper.activeOutput →
    h'.wrapper.activeOutputDevices = devices → h'.outputs = h.outputs →
    (Disturbs flyme h entry ↔
      h.wrapper.activeOutput ≠ some output ∧ h.wrapper.activeOutputDevices ≠ devices) →
    Effect flyme h entry h'
  /-- Nothing of these changes, and nothing is routed. -/
  | keeps :
    (∀ output devices, ¬ Routes flyme h entry output devices) → SameFields h h' →
    ¬ Disturbs flyme h entry → Effect flyme h entry h'

theorem not_routes_of_ne_zero {entry : Entry} (h0 : (perform flyme entry h).1 ≠ 0)
    (output : Output) (devices : Devices) : ¬ Routes flyme h entry output devices :=
  fun hroutes => h0 hroutes.2

/-- A step that fails and leaves the fields. -/
theorem Effect.of_error {entry : Entry} {error : ℤ} {h' : Hal}
    (heq : perform flyme entry h = (error, h')) (herror : error ≠ 0) (hsame : SameFields h h')
    (hnot : Disturbs flyme h entry → (perform flyme entry h).1 = 0) :
    Effect flyme h entry (perform flyme entry h).2 := by
  have hresult : (perform flyme entry h).1 ≠ 0 := by rwa [heq]
  rw [heq]
  exact .keeps (not_routes_of_ne_zero hresult) hsame fun hd => hresult (hnot hd)

theorem effect_openOutput (devices : Devices) (hasStream : Bool) (allocated : Option Output) :
    Effect flyme h (.openOutput devices hasStream allocated)
      (openOutput flyme devices hasStream allocated h).2 := by
  obtain ⟨error, herror, heq | heq | ⟨-, heq⟩⟩ | ⟨output, rfl, heq⟩ :=
    openOutput_cases flyme devices hasStream allocated h
  · exact .of_error heq herror ⟨rfl, rfl, rfl⟩ False.elim
  · exact .of_error heq herror ⟨rfl, rfl, rfl⟩ False.elim
  · exact .of_error heq herror ⟨rfl, rfl, rfl⟩ False.elim
  · rw [heq]
    apply Effect.opens output devices
    · exact ⟨rfl, congrArg Prod.fst heq⟩
    · simp [Hal.opened]
    · simp
    · simp [Hal.opened]
      rfl
    · exact id

theorem effect_closeOutput (stream : Option Output) :
    Effect flyme h (.closeOutput stream) (closeOutput flyme stream h) := by
  cases stream with
  | none =>
    apply Effect.keeps
    · rintro output devices ⟨hroutes, -⟩
      cases hroutes
    · exact ⟨rfl, rfl, rfl⟩
    · exact id
  | some output =>
    apply Effect.closes output rfl
    · unfold closeOutput
      dsimp only
      split_ifs <;> rfl
    · intro hactive
      unfold closeOutput
      dsimp only
      rw [if_neg hactive]
      split_ifs <;> rfl
    · unfold closeOutput
      dsimp only
      split_ifs <;> rfl

theorem effect_outSetDevice {output : Output} {device : Devices} (hopen : h.outputs output ≠ none) :
    Effect flyme h (.outSetDevice output device) (outSetDevice flyme output device h).2 := by
  have hnot : Disturbs flyme h (.outSetDevice output device) →
      (outSetDevice flyme output device h).1 = 0 := by
    rintro ⟨-, -, haccepts⟩
    exact outSetDevice_eq_zero_iff.mpr haccepts
  obtain ⟨error, herror, heq | heq⟩ | heq := outSetDevice_cases flyme output device h
  · exact .of_error heq herror ⟨rfl, rfl, rfl⟩ hnot
  · exact .of_error heq herror ⟨rfl, rfl, rfl⟩ hnot
  · have hresult : (outSetDevice flyme output device h).1 = 0 := by rw [heq]
    have hroutes : Routes flyme h (.outSetDevice output device) output device := ⟨rfl, hresult⟩
    rw [heq]
    apply Effect.routes output device hroutes hopen
    · simp
    · simp
    · simp
    · constructor
      · rintro ⟨hactive, hdevices, -⟩
        exact ⟨hactive, hdevices⟩
      · rintro ⟨hactive, hdevices⟩
        exact ⟨hactive, hdevices, outSetDevice_eq_zero_iff.mp hresult⟩

theorem effect_outSetParameters {output : Output} {kvPairs : Option CString}
    (hopen : h.outputs output ≠ none) :
    Effect flyme h (.outSetParameters output kvPairs)
      (outSetParameters flyme output kvPairs h).2 := by
  have hnot : Disturbs flyme h (.outSetParameters output kvPairs) →
      (outSetParameters flyme output kvPairs h).1 = 0 := by
    rintro ⟨-, _, -, -, haccepts⟩
    exact outSetParameters_eq_zero_iff.mpr haccepts
  obtain ⟨error, herror, heq⟩ | ⟨stream, forwarded, hs, hset, hforwarded, hcases⟩ :=
    outSetParameters_cases flyme output kvPairs h
  · exact .of_error heq herror ⟨rfl, rfl, rfl⟩ hnot
  · obtain ⟨herror, heq⟩ | ⟨-, hrouting, heq⟩ | ⟨devices, -, hrouting, heq⟩ := hcases
    · exact .of_error heq herror ⟨rfl, rfl, rfl⟩ hnot
    · rw [heq]
      apply Effect.keeps
      · rintro o d ⟨hroutes, -⟩
        rw [Entry.routes, hrouting] at hroutes
        cases hroutes
      · exact ⟨by simp, by simp, by simp⟩
      · rintro ⟨-, _, hsome, -, -⟩
        exact absurd (hsome.symm.trans hrouting) (Option.some_ne_none _)
    · have hresult : (outSetParameters flyme output kvPairs h).1 = 0 := by rw [heq]
      rw [heq]
      apply Effect.routes output devices _ hopen
      · simp
      · simp
      · simp
      · constructor
        · rintro ⟨hactive, d, hsome, hdevices, -⟩
          obtain rfl := Option.some.inj (hrouting.symm.trans hsome)
          exact ⟨hactive, hdevices⟩
        · rintro ⟨hactive, hdevices⟩
          exact ⟨hactive, devices, hrouting, hdevices, outSetParameters_eq_zero_iff.mp hresult⟩
      · refine ⟨?_, hresult⟩
        rw [Entry.routes, hrouting, Option.map_some]

theorem effect_createAudioPatch (sinks : List Sink) :
    Effect flyme h (.createAudioPatch sinks) (createAudioPatch flyme sinks h).2 := by
  obtain heq | ⟨hnone, heq⟩ | ⟨devices, hdevices, ⟨herror, heq⟩ | ⟨happlied, heq⟩⟩ :=
    createAudioPatch_cases flyme sinks h
  · exact .of_error heq (by decide) ⟨rfl, rfl, rfl⟩ False.elim
  · rw [heq]
    apply Effect.keeps _ ⟨rfl, rfl, rfl⟩ id
    rintro o d ⟨hroutes, -⟩
    obtain ⟨_, -, hmap⟩ := Option.bind_eq_some_iff.mp hroutes
    rw [hnone] at hmap
    cases hmap
  · exact .of_error heq herror (.of_eq (Hal.applyOutputDevice_wrapper _ _)
      (Hal.applyOutputDevice_outputs _ _)) False.elim
  · have hresult : (createAudioPatch flyme sinks h).1 = 0 := by rw [heq]
    obtain ⟨output, stream, hactive, hs, -, -⟩ | ⟨error, herror, heq'⟩ :=
      Hal.applyOutputDevice_cases flyme (some (.createAudioPatch sinks)) devices h
    · rw [heq]
      apply Effect.routes output devices
      · refine ⟨?_, hresult⟩
        rw [Entry.routes, hactive, hdevices]
        rfl
      · rw [hs]
        exact Option.some_ne_none _
      · simp
      · simp
      · simp
      · constructor
        · exact False.elim
        · rintro ⟨hother, -⟩
          exact hother hactive
    · exact absurd ((congrArg Prod.fst heq').symm.trans happlied) herror

/-- **What every step does** to the two fields and the outputs. -/
theorem effect_perform (flyme : Flyme) {entry : Entry} (hlegal : entry.Legal h) :
    Effect flyme h entry (perform flyme entry h).2 := by
  cases entry with
  | openOutput devices hasStream allocated => exact effect_openOutput devices hasStream allocated
  | closeOutput stream => exact effect_closeOutput stream
  | outSetDevice output device => exact effect_outSetDevice hlegal
  | outSetParameters output kvPairs => exact effect_outSetParameters hlegal
  | createAudioPatch sinks => exact effect_createAudioPatch sinks
  | setParameters kvPairs =>
    apply Effect.keeps _ (sameFields_setParameters kvPairs) id
    rintro output devices ⟨hroutes, -⟩
    cases hroutes
  | releaseAudioPatch =>
    apply Effect.keeps _ ⟨rfl, rfl, rfl⟩ id
    rintro output devices ⟨hroutes, -⟩
    cases hroutes

end

/-! ## Keeping track -/

section

variable {flyme : Flyme} {h : Hal} {devicesOf : Output → Devices} {entry : Entry}

theorem recordDevices_of_routes {output : Output} {devices : Devices}
    (hroutes : Routes flyme h entry output devices) :
    recordDevices flyme h entry devicesOf = Function.update devicesOf output devices := by
  rw [recordDevices, hroutes.1]
  exact if_pos hroutes.2

theorem recordDevices_of_not_routes
    (hnot : ∀ output devices, ¬ Routes flyme h entry output devices) :
    recordDevices flyme h entry devicesOf = devicesOf := by
  unfold recordDevices
  split
  · rename_i output devices hroutes
    exact if_neg fun hresult => hnot output devices ⟨hroutes, hresult⟩
  · rfl

variable {h' : Hal} {output : Output} {devices : Devices}

/-- The output that opened is active. -/
theorem tracked_opened {stream : Option FlymeStreamOut}
    (hactive' : h'.wrapper.activeOutput = some output)
    (hdevices' : h'.wrapper.activeOutputDevices = devices)
    (houtputs' : h'.outputs = Function.update h.outputs output (some stream)) :
    Tracked (h', Function.update devicesOf output devices) := by
  refine ⟨fun _ => ?_, fun o ho => ?_, fun o ho => ?_⟩
  · dsimp only
    rw [hactive']
    exact Option.some_ne_none _
  · obtain rfl := Option.some.inj (hactive'.symm.trans ho)
    dsimp only
    rw [houtputs', Function.update_self]
    exact Option.some_ne_none _
  · obtain rfl := Option.some.inj (hactive'.symm.trans ho)
    dsimp only
    rw [hdevices', Function.update_self]

/-- After the active output closed, no other may be open. -/
theorem tracked_closed_active_iff (hactive' : h'.wrapper.activeOutput = none)
    (houtputs' : h'.outputs = Function.update h.outputs output none) :
    Tracked (h', devicesOf) ↔ ¬ ∃ other, other ≠ output ∧ h.outputs other ≠ none := by
  constructor
  · rintro ⟨hexists', -, -⟩ ⟨other, hother, hs⟩
    refine hexists' ⟨other, ?_⟩ hactive'
    dsimp only
    rwa [houtputs', Function.update_of_ne hother]
  · intro hnot
    refine ⟨?_, fun o ho => ?_, fun o ho => ?_⟩
    · rintro ⟨o, hs⟩
      dsimp only at hs
      rw [houtputs'] at hs
      by_cases ho : o = output
      · rw [ho, Function.update_self] at hs
        exact absurd rfl hs
      · rw [Function.update_of_ne ho] at hs
        exact absurd ⟨o, ho, hs⟩ hnot
    · exact absurd (ho.symm.trans hactive') (Option.some_ne_none _)
    · exact absurd (ho.symm.trans hactive') (Option.some_ne_none _)

/-- The output that closed was not the active one. -/
theorem Tracked.closed_other (ht : Tracked (h, devicesOf))
    (hactive : h.wrapper.activeOutput ≠ some output)
    (hactive' : h'.wrapper.activeOutput = h.wrapper.activeOutput)
    (hdevices' : h'.wrapper.activeOutputDevices = h.wrapper.activeOutputDevices)
    (houtputs' : h'.outputs = Function.update h.outputs output none) :
    Tracked (h', devicesOf) := by
  obtain ⟨hexists, hopen, hdevices⟩ := ht
  refine ⟨?_, fun o ho => ?_, fun o ho => ?_⟩
  · rintro ⟨o, hs⟩
    dsimp only at hs ⊢
    rw [hactive']
    apply hexists
    refine ⟨o, fun hnone => hs ?_⟩
    rw [houtputs', Function.update_apply, hnone, ite_self]
  · dsimp only at ho ⊢
    rw [hactive'] at ho
    have hne : o ≠ output := by
      rintro rfl
      exact hactive ho
    rw [houtputs', Function.update_of_ne hne]
    exact hopen o ho
  · dsimp only at ho ⊢
    rw [hactive'] at ho
    rw [hdevices']
    exact hdevices o ho

/-- The output that is routed is the active one, or the devices are the same. -/
theorem Tracked.routed_iff (ht : Tracked (h, devicesOf)) (hs : h.outputs output ≠ none)
    (hactive' : h'.wrapper.activeOutput = h.wrapper.activeOutput)
    (hdevices' : h'.wrapper.activeOutputDevices = devices) (houtputs' : h'.outputs = h.outputs) :
    Tracked (h', Function.update devicesOf output devices) ↔
      ¬ (h.wrapper.activeOutput ≠ some output ∧ h.wrapper.activeOutputDevices ≠ devices) := by
  obtain ⟨hexists, hopen, hdevices⟩ := ht
  dsimp only at hexists hopen hdevices
  constructor
  · rintro ⟨-, -, hdevices''⟩ ⟨hother, hne⟩
    obtain ⟨o, ho⟩ := Option.ne_none_iff_exists'.mp (hexists ⟨output, hs⟩)
    have hne' : o ≠ output := by
      rintro rfl
      exact hother ho
    have hsame := hdevices'' o (hactive'.trans ho)
    dsimp only at hsame
    rw [hdevices', Function.update_of_ne hne', ← hdevices o ho] at hsame
    exact hne hsame.symm
  · intro hnot
    refine ⟨?_, ?_, fun o ho => ?_⟩
    · dsimp only
      rw [houtputs', hactive']
      exact hexists
    · dsimp only
      rw [houtputs', hactive']
      exact hopen
    · dsimp only at ho ⊢
      rw [hactive'] at ho
      rw [hdevices']
      by_cases hsame : o = output
      · rw [hsame, Function.update_self]
      · rw [Function.update_of_ne hsame, ← hdevices o ho]
        by_contra hne
        apply hnot
        refine ⟨?_, fun heq => hne heq.symm⟩
        rw [ho]
        exact fun heq => hsame (Option.some.inj heq)

theorem Tracked.of_sameFields (ht : Tracked (h, devicesOf)) (hsame : SameFields h h') :
    Tracked (h', devicesOf) := by
  obtain ⟨hactive', hdevices', houtputs'⟩ := hsame
  refine ⟨?_, ?_, ?_⟩ <;> dsimp only
  · rw [houtputs', hactive']
    exact ht.exists_active
  · rw [houtputs', hactive']
    exact ht.is_open
  · rw [hactive', hdevices']
    exact ht.devices

/-- **The steps that keep track** are those that do not disturb. -/
theorem tracked_next_iff (ht : Tracked (h, devicesOf)) (hlegal : entry.Legal h) :
    Tracked ((trackedWrapper flyme).next (h, devicesOf) entry) ↔ ¬ Disturbs flyme h entry := by
  show Tracked ((perform flyme entry h).2, recordDevices flyme h entry devicesOf) ↔ _
  cases effect_perform flyme hlegal with
  | opens output devices stream hroutes hactive' hdevices' houtputs' hnot =>
    rw [recordDevices_of_routes hroutes]
    exact iff_of_true (tracked_opened hactive' hdevices' houtputs') hnot
  | closes output hentry hactive' hdevices' houtputs' =>
    subst hentry
    have hrecord : recordDevices flyme h (.closeOutput (some output)) devicesOf = devicesOf := rfl
    rw [hrecord]
    by_cases hactive : h.wrapper.activeOutput = some output
    · rw [if_pos hactive] at hactive'
      rw [tracked_closed_active_iff hactive' houtputs']
      exact not_congr (and_iff_right hactive).symm
    · rw [if_neg hactive] at hactive'
      have ht' := ht.closed_other hactive hactive' (hdevices' hactive) houtputs'
      exact iff_of_true ht' fun hd => hactive hd.1
  | routes output devices hroutes hs hactive' hdevices' houtputs' hdisturbs =>
    rw [recordDevices_of_routes hroutes, hdisturbs]
    exact ht.routed_iff hs hactive' hdevices' houtputs'
  | keeps hnot hsame hnd =>
    rw [recordDevices_of_not_routes hnot]
    exact iff_of_true (ht.of_sameFields hsame) hnd

theorem tracked_moduleOpen (flyme : Flyme) (enabled gain : CString)
    (devicesOf : Output → Devices) : Tracked (moduleOpen flyme enabled gain, devicesOf) := by
  have hactive : (moduleOpen flyme enabled gain).wrapper.activeOutput = none := by
    rw [moduleOpen, Hal.applyHifiGain_wrapper]
    rfl
  have houtputs : (moduleOpen flyme enabled gain).outputs = fun _ => none := by
    rw [moduleOpen, Hal.applyHifiGain_outputs]
  refine ⟨?_, fun o ho => ?_, fun o ho => ?_⟩
  · rintro ⟨o, hs⟩
    exact absurd (congrFun houtputs o) hs
  · exact absurd (ho.symm.trans hactive) (Option.some_ne_none _)
  · exact absurd (ho.symm.trans hactive) (Option.some_ne_none _)

/-- The active output is open in every run, whatever disturbs. -/
theorem active_is_open {enabled gain : CString}
    (hrun : (audioWrapper flyme).Reach AnyInput (moduleOpen flyme enabled gain) h)
    {output : Output} (hactive : h.wrapper.activeOutput = some output) :
    h.outputs output ≠ none := by
  have hinit := (tracked_moduleOpen flyme enabled gain fun _ => deviceNone).is_open
  refine hrun.invariant (fun h => ∀ output, h.wrapper.activeOutput = some output →
    h.outputs output ≠ none) hinit ?_ output hactive
  intro h entry hlegal _ hi o ho
  change (perform flyme entry h).2.wrapper.activeOutput = some o at ho
  show (perform flyme entry h).2.outputs o ≠ none
  cases effect_perform flyme hlegal with
  | opens output devices stream _ hactive' _ houtputs' _ =>
    obtain rfl := Option.some.inj (hactive'.symm.trans ho)
    rw [houtputs', Function.update_self]
    exact Option.some_ne_none _
  | closes output _ hactive' _ houtputs' =>
    rw [hactive'] at ho
    split_ifs at ho with hother
    have hne : o ≠ output := by
      rintro rfl
      exact hother ho
    rw [houtputs', Function.update_of_ne hne]
    exact hi o ho
  | routes _ _ _ _ hactive' _ houtputs' _ =>
    rw [houtputs']
    exact hi o (hactive'.symm.trans ho)
  | keeps _ hsame _ =>
    rw [hsame.2.2]
    exact hi o (hsame.1.symm.trans ho)

/-- **The wrapper keeps track** in the runs in which nothing disturbs, and a step
    more keeps track just if it does not disturb. -/
theorem tracking {enabled gain : CString}
    (hrun : (trackedWrapper flyme).Reach (fun s entry => ¬ Disturbs flyme s.1 entry)
      (moduleOpen flyme enabled gain, fun _ => deviceNone) (h, devicesOf)) :
    Tracked (h, devicesOf) ∧ ∀ entry : Entry, entry.Legal h →
      (Tracked ((trackedWrapper flyme).next (h, devicesOf) entry) ↔ ¬ Disturbs flyme h entry) := by
  have ht : Tracked (h, devicesOf) := by
    refine hrun.invariant Tracked (tracked_moduleOpen flyme enabled gain _) ?_
    rintro ⟨h, devicesOf⟩ entry hlegal hgood ht
    exact (tracked_next_iff ht hlegal).mpr hgood
  exact ⟨ht, fun entry hlegal => tracked_next_iff ht hlegal⟩

/-! ## Losing track -/

/-- A library that does everything. -/
def willingFlyme : Flyme where
  device := ⟨true, true, true, true⟩
  answer _ := 0
  stream _ := some ⟨true, true⟩

/-- An output on the speaker, and one on a wired headset, which is active. -/
def twoOutputs : List Entry :=
  [.openOutput deviceOutSpeaker true (some 1), .openOutput deviceOutWiredHeadset true (some 2)]

/-- **Track is lost** where the active output closes before the other one, and where
    the other one is routed. -/
theorem tracking_lost :
    let s₀ : Hal × (Output → Devices) :=
      (moduleOpen willingFlyme (lit "1") (lit "0"), fun _ => deviceNone)
    let s := (trackedWrapper willingFlyme).after s₀ twoOutputs
    (trackedWrapper willingFlyme).Reach AnyInput s₀ s ∧
      (∀ entry : Entry, entry = .closeOutput (some 2) ∨
        entry = .outSetDevice 1 deviceOutWiredHeadphone → entry.Legal s.1 ∧
          ¬ Tracked ((trackedWrapper willingFlyme).next s entry)) := by
  have hallowed : (trackedWrapper willingFlyme).Allowed AnyInput
      (moduleOpen willingFlyme (lit "1") (lit "0"), fun _ => deviceNone) twoOutputs :=
    ⟨rfl, trivial, rfl, trivial, trivial⟩
  refine ⟨reach_after hallowed, ?_⟩
  rintro entry (rfl | rfl)
  · refine ⟨Option.some_ne_none _, fun ht => ?_⟩
    exact ht.exists_active ⟨1, Option.some_ne_none _⟩ rfl
  · refine ⟨Option.some_ne_none _, fun ht => ?_⟩
    have hdevices : deviceOutWiredHeadphone = deviceOutWiredHeadset := ht.devices 2 rfl
    exact absurd hdevices (by decide)

/-- Both outputs open, and the active one is routed. -/
theorem tracking_headphone :
    Tracked ((trackedWrapper willingFlyme).after
      (moduleOpen willingFlyme (lit "1") (lit "0"), fun _ => deviceNone)
      (twoOutputs ++ [.outSetDevice 2 deviceOutWiredHeadphone])) := by
  have hallowed : (trackedWrapper willingFlyme).Allowed
      (fun s entry => ¬ Disturbs willingFlyme s.1 entry)
      (moduleOpen willingFlyme (lit "1") (lit "0"), fun _ => deviceNone)
      (twoOutputs ++ [.outSetDevice 2 deviceOutWiredHeadphone]) := by
    refine ⟨rfl, id, rfl, id, Option.some_ne_none _, ?_, trivial⟩
    rintro ⟨hother, -⟩
    exact hother rfl
  exact (tracking (reach_after hallowed)).1

end

end Pro5Android.Audio
