import Pro5Android.Audio.Forwarding

/-!
# What a rejected parameter string leaves behind

`m86_set_parameters` (lines 954–1001) deals with `m86_hifi_enabled` and `hifi_gain` one
after the other: the first is in the wrapper before the second is parsed, and a gain that
is no number ends the call before `m86_store_hifi_properties`. A string without a key of
the wrapper is sent to Flyme, and so is the command for headphone volume; there the answer
is Flyme's.

Results:
* `setParameters_of_rejected`: what the wrapper refuses changes the flag at most.
* `rejection_atomic_iff`: the calls of which a rejection leaves nothing behind.
* `rejection_flips_flag`: a call of the other kind.
-/

namespace Pro5Android.Audio

/-- If the call returns `-EINVAL`, then the flag, the route request and the gain are as
before, and nothing has been stored or sent. -/
def AtomicOnRejection (flyme : Flyme) (kvPairs : Option CString) (h : Hal) : Prop :=
  (setParameters flyme kvPairs h).1 = einval →
    (setParameters flyme kvPairs h).2.wrapper.hifiUserEnabled = h.wrapper.hifiUserEnabled ∧
    (setParameters flyme kvPairs h).2.wrapper.hifiRouteRequested = h.wrapper.hifiRouteRequested ∧
    (setParameters flyme kvPairs h).2.wrapper.hifiGain = h.wrapper.hifiGain ∧
    (setParameters flyme kvPairs h).2.log = h.log

/-- The string sets the enabled flag to another value and asks for a gain that is no number. -/
def HalfCommitted (kvPairs : Option CString) (w : M86Device) : Prop :=
  ∃ state gain, findParameter kvPairs (lit "m86_hifi_enabled") 32 = some state ∧
    findParameter kvPairs (lit "hifi_gain") 32 = some gain ∧
    strtolAll gain = none ∧ isOn state ≠ w.hifiUserEnabled

/-- The call of the library that the string ends in, if it has no key of the wrapper's own. -/
def forwardedCall (flyme : Flyme) (kvPairs : Option CString) : Option FlymeCall :=
  if kvPairs = some (lit "vendor.meizu.set_headphone_volume=1") then
    if flyme.device.setHeadphoneVolume then some .setHeadphoneVolume else none
  else if (findParameter kvPairs (lit "m86_hifi_enabled") 32).isSome ∨
      (findParameter kvPairs (lit "hifi_gain") 32).isSome then none
  else if flyme.device.setParameters then some (.setDeviceParameters kvPairs)
  else none

/-- Flyme itself refuses what it is sent. -/
def FlymeRefuses (flyme : Flyme) (kvPairs : Option CString) (h : Hal) : Prop :=
  ∃ c, forwardedCall flyme kvPairs = some c ∧
    flyme.answer (.called c h.wrapper (some (.setParameters kvPairs)) :: h.log) = einval

section

variable {flyme : Flyme} {kvPairs : Option CString} {h : Hal}

variable (h) in
/-- A forwarded string, or the command, is one call of the library. -/
theorem setParameters_of_forwarded {c : FlymeCall} (hc : forwardedCall flyme kvPairs = some c) :
    setParameters flyme kvPairs h = h.call flyme (some (.setParameters kvPairs)) c := by
  unfold forwardedCall at hc
  unfold setParameters Hal.applyHeadphoneVolume
  dsimp only
  split_ifs at hc ⊢ with hcommand hvolume howned hset
  · obtain rfl := Option.some.inj hc
    rfl
  · obtain rfl := Option.some.inj hc
    rfl

/-- What ends in no call of the library and is rejected has a gain that is no number. The
flag has its new value by then, and nothing else has changed. -/
theorem setParameters_of_rejected (hc : forwardedCall flyme kvPairs = none)
    (hresult : (setParameters flyme kvPairs h).1 = einval) :
    ∃ gain, findParameter kvPairs (lit "hifi_gain") 32 = some gain ∧ strtolAll gain = none ∧
      (setParameters flyme kvPairs h).2 =
        { h with wrapper :=
          { h.wrapper with
            hifiUserEnabled := ((findParameter kvPairs (lit "m86_hifi_enabled") 32).map isOn).getD
              h.wrapper.hifiUserEnabled } } := by
  unfold forwardedCall at hc
  unfold setParameters Hal.applyHeadphoneVolume at hresult ⊢
  dsimp only at hresult ⊢
  have hne : enosys ≠ einval := by decide
  have hzero : (0 : ℤ) ≠ einval := by decide
  split_ifs at hc hresult ⊢ with hcommand hvolume howned hset
  · exact absurd hresult hne
  · cases hgain : findParameter kvPairs (lit "hifi_gain") 32 with
    | none =>
      rw [hgain] at hresult
      exact absurd hresult hzero
    | some gain =>
      rw [hgain] at hresult
      dsimp only at hresult ⊢
      cases hparse : strtolAll gain with
      | some requested =>
        rw [hparse] at hresult
        exact absurd hresult hzero
      | none =>
        refine ⟨gain, rfl, hparse, ?_⟩
        cases findParameter kvPairs (lit "m86_hifi_enabled") 32 <;> rfl
  · exact absurd hresult hne

/-- The command does not set the flag. -/
theorem ne_command_of_enabled {state : CString}
    (hstate : findParameter kvPairs (lit "m86_hifi_enabled") 32 = some state) :
    kvPairs ≠ some (lit "vendor.meizu.set_headphone_volume=1") := by
  rintro rfl
  have hnone : findParameter (some (lit "vendor.meizu.set_headphone_volume=1"))
      (lit "m86_hifi_enabled") 32 = none := by
    rw [findParameter, Option.bind_some, findLoop_eq (by decide)]
    decide
  rw [hnone] at hstate
  cases hstate

variable (flyme h) in
/-- A gain that is no number, behind the flag, is rejected, and the flag is set. -/
theorem rejected_of_enabled {state gain : CString}
    (hstate : findParameter kvPairs (lit "m86_hifi_enabled") 32 = some state)
    (hgain : findParameter kvPairs (lit "hifi_gain") 32 = some gain)
    (hparse : strtolAll gain = none) :
    (setParameters flyme kvPairs h).1 = einval ∧
      (setParameters flyme kvPairs h).2.wrapper.hifiUserEnabled = isOn state := by
  unfold setParameters
  dsimp only
  rw [if_neg (ne_command_of_enabled hstate), hstate, hgain, if_pos (.inl rfl)]
  dsimp only
  rw [hparse]
  exact ⟨rfl, rfl⟩

/-- **A rejection leaves nothing behind** unless the flag was set before the gain turned out
to be no number, or it is Flyme that rejects what it was sent. -/
theorem rejection_atomic_iff (flyme : Flyme) (kvPairs : Option CString) (h : Hal) :
    AtomicOnRejection flyme kvPairs h ↔
      ¬ HalfCommitted kvPairs h.wrapper ∧ ¬ FlymeRefuses flyme kvPairs h := by
  constructor
  · intro hatomic
    refine ⟨?_, ?_⟩
    · rintro ⟨state, gain, hstate, hgain, hparse, hne⟩
      obtain ⟨hresult, hset⟩ := rejected_of_enabled flyme h hstate hgain hparse
      obtain ⟨hflag, -⟩ := hatomic hresult
      exact hne (hset.symm.trans hflag)
    · rintro ⟨c, hc, hanswer⟩
      have hcall := setParameters_of_forwarded h hc
      have hresult : (setParameters flyme kvPairs h).1 = einval := by
        rw [hcall]
        exact hanswer
      obtain ⟨-, -, -, hlog⟩ := hatomic hresult
      rw [hcall] at hlog
      exact List.cons_ne_self _ _ hlog
  · rintro ⟨hhalf, hrefuses⟩ hresult
    cases hc : forwardedCall flyme kvPairs with
    | some c =>
      refine absurd ⟨c, hc, ?_⟩ hrefuses
      rw [setParameters_of_forwarded h hc] at hresult
      exact hresult
    | none =>
      obtain ⟨gain, hgain, hparse, hafter⟩ := setParameters_of_rejected hc hresult
      rw [hafter]
      refine ⟨?_, rfl, rfl, rfl⟩
      cases hstate : findParameter kvPairs (lit "m86_hifi_enabled") 32 with
      | none => rfl
      | some state =>
        by_contra hne
        exact hhalf ⟨state, gain, hstate, hgain, hparse, hne⟩

end

/-- **The flag goes off with a gain that is no number**: the call returns `-EINVAL`, and the
wrapper no longer has what its properties say. -/
theorem rejection_flips_flag :
    ¬ AtomicOnRejection obligingFlyme
      (some (lit "m86_hifi_enabled=0;hifi_gain=x")) (moduleOpen obligingFlyme (lit "1") (lit "0")) := by
  have hstate : findParameter (some (lit "m86_hifi_enabled=0;hifi_gain=x"))
      (lit "m86_hifi_enabled") 32 = some (lit "0") := by
    rw [findParameter, Option.bind_some, findLoop_eq (by decide)]
    decide
  have hgain : findParameter (some (lit "m86_hifi_enabled=0;hifi_gain=x"))
      (lit "hifi_gain") 32 = some (lit "x") := by
    rw [findParameter, Option.bind_some, findLoop_eq (by decide)]
    decide
  obtain ⟨hresult, hset⟩ := rejected_of_enabled obligingFlyme
    (moduleOpen obligingFlyme (lit "1") (lit "0")) hstate hgain (by decide)
  intro hatomic
  obtain ⟨hflag, -⟩ := hatomic hresult
  exact absurd (hset.symm.trans hflag) (by decide)

end Pro5Android.Audio
