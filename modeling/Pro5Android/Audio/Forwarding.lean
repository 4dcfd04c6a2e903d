import Pro5Android.Audio.Rewriting
import Pro5Android.Audio.Wrapper

/-!
# What reaches Flyme of a parameter string

The wrapper owns some keys: `m86_hifi_enabled` and `hifi_gain` at the device, `hifi_state` at
a stream. The other tokens of a string are Flyme's, but for one text that as a whole is a
command to the wrapper. `out_set_parameters` rewrites its own key and forwards the rest of the
string with it (lines 371–392); `m86_set_parameters` returns as soon as it has found a key of
its own (lines 965–995), and what else the string says is lost.

Results:
* `suffix_call`, `suffix_routeTo`, `suffix_requestBy`: the helpers only add to the log.
* `foreign_kept_iff`: the calls whose foreign tokens all reach Flyme.
* `foreign_lost`: a call of the other kind.
-/

namespace Pro5Android.Audio

/-! ## The log grows -/

section

variable (flyme : Flyme) (entry : Option Entry) (h : Hal)

theorem suffix_call (c : FlymeCall) :
    (.called c h.wrapper entry :: h.log) <:+ (h.call flyme entry c).2.log :=
  List.suffix_rfl

theorem suffix_applyHeadphoneVolume : h.log <:+ (h.applyHeadphoneVolume flyme entry).2.log := by
  unfold Hal.applyHeadphoneVolume
  split_ifs
  · exact List.suffix_cons _ _
  · exact List.suffix_rfl

theorem suffix_applyHifiGain : h.log <:+ (h.applyHifiGain flyme entry).2.log := by
  unfold Hal.applyHifiGain
  split_ifs
  · exact List.suffix_cons _ _
  · exact List.suffix_rfl

theorem suffix_applyHifiState : h.log <:+ (h.applyHifiState flyme entry).2.log := by
  obtain ⟨_, _, -, -, -, heq⟩ | ⟨-, heq⟩ := Hal.applyHifiState_cases flyme entry h
  · rw [heq]
    exact List.suffix_cons _ _
  · rw [heq]

theorem suffix_routeTo (devices : Devices) : h.log <:+ (h.routeTo flyme entry devices).log := by
  unfold Hal.routeTo
  dsimp only
  rw [Hal.applyHifiPolicy_snd]
  have hvolume := suffix_applyHeadphoneVolume flyme entry (h.setActiveDevices devices)
  exact (hvolume.trans (suffix_applyHifiGain flyme entry _)).trans
    (suffix_applyHifiState flyme entry _)

theorem suffix_requestBy (kvPairs : Option CString) :
    h.log <:+ (h.requestBy flyme entry kvPairs).log := by
  unfold Hal.requestBy Hal.requestRoute
  split_ifs
  · exact suffix_applyHifiGain flyme entry
      { h with wrapper := { h.wrapper with hifiRouteRequested := requestsHifiRoute kvPairs } }
  · exact List.suffix_rfl

end

/-! ## Foreign keys -/

/-- The text that is a command for headphone volume (lines 956–959). The wrapper carries it out
itself; its key in any other text is Flyme's. -/
def headphoneVolumeCommand : CString := lit "vendor.meizu.set_headphone_volume=1"

/-- A call that passes parameters: the keys that the wrapper owns there, the string, and the
callback of Flyme that gets it. -/
structure Passed where
  owned : List CString
  kvPairs : CString
  callback : CString → FlymeCall

/-- The parameters that an entry point passes; the command is none. -/
def Entry.passed : Entry → Option Passed
  | .setParameters (some kvPairs) =>
    if kvPairs = headphoneVolumeCommand then none
    else some ⟨[lit "m86_hifi_enabled", lit "hifi_gain"], kvPairs,
      fun text => .setDeviceParameters (some text)⟩
  | .outSetParameters output (some kvPairs) =>
    some ⟨[lit "hifi_state"], kvPairs, fun text => .setStreamParameters output (some text)⟩
  | _ => none

/-- A key that is not the wrapper's and stands in the string. -/
def Passed.Foreign (p : Passed) (key : CString) : Prop :=
  IsKey key ∧ key ∉ p.owned ∧ (tokens p.kvPairs).any (hasKey key) = true

/-- If the call returns 0, a text with every foreign token, in order, is passed to Flyme. -/
def KeepsForeign (flyme : Flyme) (h : Hal) (entry : Entry) : Prop :=
  ∀ p, entry.passed = some p → (perform flyme entry h).1 = 0 → ∀ key, p.Foreign key →
    ∃ text, (.called (p.callback text) h.wrapper (some entry) :: h.log) <:+
        (perform flyme entry h).2.log ∧
      (tokens text).filter (hasKey key) = (tokens p.kvPairs).filter (hasKey key)

/-- The string has a key that the device keeps for itself. -/
def Owned (kvPairs : CString) : Prop :=
  (findParameter (some kvPairs) (lit "m86_hifi_enabled") 32).isSome = true ∨
    (findParameter (some kvPairs) (lit "hifi_gain") 32).isSome = true

/-- The device finds a key of its own, its gain is a number, and there is a foreign key. -/
def Swallows (entry : Entry) : Prop :=
  ∃ kvPairs, entry = .setParameters (some kvPairs) ∧ Owned kvPairs ∧
    (∀ gain, findParameter (some kvPairs) (lit "hifi_gain") 32 = some gain →
      (strtolAll gain).isSome = true) ∧
    ∃ p, entry.passed = some p ∧ ∃ key, p.Foreign key

section

variable {flyme : Flyme} {h : Hal}

/-- What `m86_set_parameters` passes. -/
theorem passed_setParameters {kvPairs : CString} {p : Passed}
    (hp : (Entry.setParameters (some kvPairs)).passed = some p) :
    kvPairs ≠ headphoneVolumeCommand ∧ p = ⟨[lit "m86_hifi_enabled", lit "hifi_gain"], kvPairs,
      fun text => .setDeviceParameters (some text)⟩ := by
  have hp : (if kvPairs = headphoneVolumeCommand then none else _) = some p := hp
  split_ifs at hp with hcommand
  exact ⟨hcommand, (Option.some.inj hp).symm⟩

/-- What `m86_set_parameters` does: the command, a policy of its own that is stored or refused,
or a string that is forwarded or refused. -/
theorem setParameters_cases (flyme : Flyme) (kvPairs : CString) (h : Hal) :
    kvPairs = headphoneVolumeCommand ∨
    (Owned kvPairs ∧
      ((∃ gain, findParameter (some kvPairs) (lit "hifi_gain") 32 = some gain ∧
          strtolAll gain = none ∧ (setParameters flyme (some kvPairs) h).1 = einval) ∨
        (∀ gain, findParameter (some kvPairs) (lit "hifi_gain") 32 = some gain →
          (strtolAll gain).isSome = true) ∧
        (setParameters flyme (some kvPairs) h).1 = 0 ∧ ∃ enabled gain,
          (setParameters flyme (some kvPairs) h).2.log = .stored enabled gain :: h.log)) ∨
    (¬ Owned kvPairs ∧
      ((setParameters flyme (some kvPairs) h).1 = enosys ∨
        setParameters flyme (some kvPairs) h = h.call flyme (some (.setParameters (some kvPairs)))
          (.setDeviceParameters (some kvPairs)))) := by
  by_cases hcommand : some kvPairs = some (lit "vendor.meizu.set_headphone_volume=1")
  · exact .inl (Option.some.inj hcommand)
  · right
    unfold setParameters
    dsimp only
    rw [if_neg hcommand]
    by_cases howned : (findParameter (some kvPairs) (lit "m86_hifi_enabled") 32).isSome = true ∨
        (findParameter (some kvPairs) (lit "hifi_gain") 32).isSome = true
    · left
      refine ⟨howned, ?_⟩
      rw [if_pos howned]
      cases hgain : findParameter (some kvPairs) (lit "hifi_gain") 32 with
      | none =>
        refine .inr ⟨fun gain heq => absurd heq.symm (Option.some_ne_none _), rfl, ?_⟩
        cases findParameter (some kvPairs) (lit "m86_hifi_enabled") 32 <;> exact ⟨_, _, rfl⟩
      | some gain =>
        dsimp only
        cases hparse : strtolAll gain with
        | none => exact .inl ⟨gain, rfl, hparse, rfl⟩
        | some requested =>
          refine .inr ⟨?_, rfl, ?_⟩
          · intro gain' heq
            rw [← Option.some.inj heq, hparse]
            rfl
          · cases findParameter (some kvPairs) (lit "m86_hifi_enabled") 32 <;> exact ⟨_, _, rfl⟩
    · right
      refine ⟨howned, ?_⟩
      rw [if_neg howned]
      split_ifs
      · exact .inr rfl
      · exact .inl rfl

/-- The foreign tokens of a stream's string are forwarded, whatever becomes of its own. -/
theorem filter_forwardedParameters {w : M86Device} {kvPairs : CString} {forwarded : Option CString}
    (hforwarded : w.forwardedParameters (some kvPairs) = some forwarded) :
    ∃ text, forwarded = some text ∧ ∀ key, IsKey key → key ≠ lit "hifi_state" →
      (tokens text).filter (hasKey key) = (tokens kvPairs).filter (hasKey key) := by
  unfold M86Device.forwardedParameters at hforwarded
  split_ifs at hforwarded
  · obtain ⟨text, htext, rfl⟩ := Option.map_eq_some_iff.mp hforwarded
    refine ⟨text, rfl, fun key hkey hne => ?_⟩
    have howned : IsKey (lit "hifi_state") := by decide
    have hpair : ∀ active, ∃ value, Unseparated value ∧
        hifiStateText active = pairText (lit "hifi_state") value := by
      intro active
      cases active
      · exact ⟨lit "off", by decide, by decide⟩
      · exact ⟨lit "on", by decide, by decide⟩
    obtain ⟨value, hvalue, heq⟩ := hpair _
    rw [heq] at htext
    rw [tokens_replaceParameter howned.separators (howned.isToken hvalue) htext,
      filter_rewriteToken_of_ne howned.equals hkey.equals hne]
  · obtain rfl := Option.some.inj hforwarded
    exact ⟨kvPairs, rfl, fun _ _ _ => rfl⟩

theorem keepsForeign_outSetParameters (flyme : Flyme) (h : Hal) (output : Output)
    (kvPairs : Option CString) : KeepsForeign flyme h (.outSetParameters output kvPairs) := by
  intro p hp hresult key hkey
  cases kvPairs with
  | none => cases hp
  | some kvPairs =>
    obtain rfl := Option.some.inj hp
    obtain ⟨hkey, howned, -⟩ := hkey
    obtain ⟨_, herror, heq⟩ | ⟨stream, forwarded, -, -, hforwarded, hcases⟩ :=
      outSetParameters_cases flyme output (some kvPairs) h
    · exact absurd ((congrArg Prod.fst heq).symm.trans hresult) herror
    · obtain ⟨text, rfl, htext⟩ := filter_forwardedParameters hforwarded
      refine ⟨text, ?_, htext key hkey fun heq => howned (heq ▸ List.mem_singleton_self _)⟩
      show _ <:+ (outSetParameters flyme output (some kvPairs) h).2.log
      have hcall := suffix_call flyme (some (.outSetParameters output (some kvPairs))) h
        (.setStreamParameters output (some text))
      obtain ⟨-, heq⟩ | ⟨-, -, heq⟩ | ⟨devices, -, -, heq⟩ := hcases
      · rw [heq]
        exact hcall
      · rw [heq]
        exact hcall.trans (suffix_requestBy flyme _ _ _)
      · rw [heq]
        exact (hcall.trans (suffix_requestBy flyme _ _ _)).trans (suffix_routeTo flyme _ _ _)

/-- What is swallowed does not reach Flyme. -/
theorem lost_of_swallows (flyme : Flyme) (h : Hal) {entry : Entry} (hswallows : Swallows entry) :
    ¬ KeepsForeign flyme h entry := by
  obtain ⟨kvPairs, rfl, howned, hparses, p, hp, key, hkey⟩ := hswallows
  intro hkeeps
  obtain hcommand | ⟨-, hcases⟩ | ⟨hnot, -⟩ := setParameters_cases flyme kvPairs h
  · exact (passed_setParameters hp).1 hcommand
  · obtain ⟨gain, hgain, hparse, -⟩ | ⟨-, hresult, enabled, gain, hlog⟩ := hcases
    · have hsome := hparses gain hgain
      rw [hparse] at hsome
      cases hsome
    · obtain ⟨text, ⟨newer, hnewer⟩, -⟩ := hkeeps p hp hresult key hkey
      have hlog : (perform flyme (.setParameters (some kvPairs)) h).2.log =
          [.stored enabled gain] ++ h.log := hlog
      rw [hlog, List.append_cons, List.append_left_inj] at hnewer
      cases newer with
      | nil => cases hnewer
      | cons event newer =>
        have hnil := (List.cons.inj hnewer).2
        exact absurd hnil (List.append_ne_nil_of_right_ne_nil _ (List.cons_ne_nil _ _))
  · exact hnot howned

/-- **The calls that lose nothing foreign** are those that do not swallow it. -/
theorem foreign_kept_iff (flyme : Flyme) (h : Hal) (entry : Entry) :
    KeepsForeign flyme h entry ↔ ¬ Swallows entry := by
  refine ⟨fun hkeeps hswallows => lost_of_swallows flyme h hswallows hkeeps, fun hnot => ?_⟩
  cases entry with
  | outSetParameters output kvPairs => exact keepsForeign_outSetParameters flyme h output kvPairs
  | setParameters kvPairs =>
    cases kvPairs with
    | none =>
      intro p hp
      cases hp
    | some kvPairs =>
      intro p hp h0 key hkey
      have h0 : (setParameters flyme (some kvPairs) h).1 = 0 := h0
      obtain hcommand | ⟨howned, hcases⟩ | ⟨-, hcases⟩ := setParameters_cases flyme kvPairs h
      · exact absurd hcommand (passed_setParameters hp).1
      · obtain ⟨-, -, -, hresult⟩ | ⟨hparses, -⟩ := hcases
        · exact absurd (hresult.symm.trans h0) (by decide)
        · exact absurd ⟨kvPairs, rfl, howned, hparses, p, hp, key, hkey⟩ hnot
      · obtain ⟨-, rfl⟩ := passed_setParameters hp
        obtain hresult | heq := hcases
        · exact absurd (hresult.symm.trans h0) (by decide)
        · refine ⟨kvPairs, ?_, rfl⟩
          show _ <:+ (setParameters flyme (some kvPairs) h).2.log
          rw [heq]
          exact suffix_call _ _ _ _
  | _ =>
    intro p hp
    cases hp

end

/-- A library that takes every call. -/
def obligingFlyme : Flyme := ⟨⟨true, true, true, true⟩, fun _ => 0, fun _ => none⟩

/-- **A foreign key beside the gain** does not reach Flyme. -/
theorem foreign_lost :
    ¬ KeepsForeign obligingFlyme (moduleOpen obligingFlyme (lit "1") (lit "0"))
      (.setParameters (some (lit "hifi_gain=2;screen_state=on"))) := by
  have hgain : findParameter (some (lit "hifi_gain=2;screen_state=on")) (lit "hifi_gain") 32 =
      some (lit "2") := by
    rw [findParameter, Option.bind_some, findLoop_eq (by decide)]
    decide
  apply lost_of_swallows
  refine ⟨_, rfl, .inr (by rw [hgain]; rfl), ?_, _, rfl, lit "screen_state", ?_⟩
  · intro gain heq
    rw [hgain] at heq
    rw [← Option.some.inj heq]
    decide
  · exact ⟨by decide, by decide, by decide⟩

end Pro5Android.Audio
