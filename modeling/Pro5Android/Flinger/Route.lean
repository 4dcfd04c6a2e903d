import Pro5Android.Flinger.MixerThread
import Pro5Android.Lib.Runs

/-!
# The route is what the output stream is set to

The thread caches whether the HiFi route is active and at what rate. Over any sequence
of events, with any tracks active at each of them and any answers of the output stream,
the cache says what the stream accepted last.

Results:
* `Agrees.checkForNewParameter`: what every event preserves.
* `Agrees.skipped`: the events that do not touch the stream.
* `rolledBack`: an activation that fails.
* `route_agrees`: all of it, for every run.
-/

namespace Pro5Android.Flinger

open Lib Lib.System MixerThread

/-! ## Events -/

/-- What happens to the thread between and at the events. -/
inductive Happening
  | request (forceReopen : Bool)
  /-- The playback thread enters or leaves standby. -/
  | loop (standby : Bool)
  | recompute (value : ℤ) (e : Surroundings)

/-- The thread under a sequence of events. -/
def hifiEvents (stream : StreamOut) : System MixerThread Happening where
  legal _ _ := True
  next t
    | .request forceReopen => t.requestM86HifiRecompute forceReopen
    | .loop standby => { t with standby := standby }
    | .recompute value e => (t.checkForNewParameter stream value e).2.2

/-- The cache says what the output stream is set to. -/
structure Agrees (t : MixerThread) : Prop where
  active : t.m86HifiRouteActive = t.setting.hifiState
  rate : t.m86HifiRouteRate = if t.setting.hifiState then t.setting.samplingRate else 0
  sampleRate : t.sampleRate = t.setting.samplingRate

/-- An event applies the desired parameters first. -/
def firstApply (stream : StreamOut) (value : ℤ) (e : Surroundings) (t : MixerThread) :
    Status × MixerThread :=
  (t.clearQueued.closeForReopen (t.forceReopen value)).setParametersRetrying stream (t.desired e)

/-- The rollback of an activation that fails. -/
def rollbackApply (stream : StreamOut) (value : ℤ) (e : Surroundings) (t : MixerThread) :
    Status × MixerThread :=
  (firstApply stream value e t).2.setParametersRetrying stream t.rollback

section

variable {stream : StreamOut} {t : MixerThread}

theorem setting_of_lastAccepted {p : OutputParameters} (h : lastAccepted t.calls = some p) :
    t.setting = p := by
  rw [setting, h, Option.getD_some]

/-- The cache and the setting are about few members. -/
theorem Agrees.of_eq {t' : MixerThread} (ha : Agrees t)
    (hactive : t'.m86HifiRouteActive = t.m86HifiRouteActive)
    (hrate : t'.m86HifiRouteRate = t.m86HifiRouteRate) (hsample : t'.sampleRate = t.sampleRate)
    (hsetting : t'.setting = t.setting) : Agrees t' := by
  refine ⟨?_, ?_, ?_⟩
  · rw [hactive, hsetting, ha.active]
  · rw [hrate, hsetting, ha.rate]
  · rw [hsample, hsetting, ha.sampleRate]

theorem agrees_start (type : ThreadType) (sampleRate : ℕ) : Agrees (start type sampleRate) :=
  ⟨rfl, rfl, rfl⟩

theorem Agrees.request (ha : Agrees t) (force : Bool) :
    Agrees (t.requestM86HifiRecompute force) := by
  obtain ⟨-, heq⟩ | ⟨-, -, heq⟩ | ⟨-, -, heq⟩ := requestM86HifiRecompute_cases force t
  · rwa [heq]
  · rw [heq]
    exact ha.of_eq rfl rfl rfl rfl
  · rw [heq]
    exact ha.of_eq rfl rfl rfl rfl

/-- What applying leaves of the thread. -/
theorem applied_fields {value : ℤ} {e : Surroundings} {status : Status} {p : OutputParameters}
    {t' : MixerThread}
    (happly : (t.clearQueued.closeForReopen (t.forceReopen value)).applyDesired stream
      (t.desired e) = (status, p, t')) :
    OnlyOutput t.clearQueued t' ∧ (status = noError → lastAccepted t'.calls = some p) ∧
      (status ≠ noError → lastAccepted t'.calls = lastAccepted t.calls) := by
  have hcalled := called_applyDesired stream (t.desired e)
    (t.clearQueued.closeForReopen (t.forceReopen value))
  rw [happly] at hcalled
  refine ⟨(onlyOutput_closeForReopen _ _).trans hcalled.onlyOutput, hcalled.accepted, ?_⟩
  intro hstatus
  exact (hcalled.refused hstatus).trans (lastAccepted_closeForReopen _ _)

/-- **Every event** leaves cache and stream in agreement; one that ends with an error
    leaves the cache. -/
theorem Agrees.checkForNewParameter (ha : Agrees t) (value : ℤ) (e : Surroundings) :
    Agrees (t.checkForNewParameter stream value e).2.2 := by
  obtain ⟨-, -, heq⟩ | ⟨status, p, t', happly, hresult⟩ :=
    checkForNewParameter_cases stream value e t
  · rw [heq]
    exact ha.of_eq rfl rfl rfl rfl
  · obtain ⟨⟨standby, calls, rfl⟩, haccepted, hrefused⟩ := applied_fields happly
    obtain ⟨hstatus, heq⟩ | ⟨hstatus, heq⟩ := hresult
    · have hsetting := haccepted hstatus
      have hfinal := setting_of_lastAccepted (t := ({ t.clearQueued with
        standby := standby, calls := calls }.readOutputParameters.commitRoute p)) hsetting
      have hread := setting_of_lastAccepted hsetting
      rw [heq]
      refine ⟨?_, ?_, ?_⟩
      · rw [hfinal]
        rfl
      · rw [hfinal]
        rfl
      · rw [hfinal]
        exact congrArg OutputParameters.samplingRate hread
    · rw [heq]
      refine ha.of_eq rfl rfl rfl ?_
      exact congrArg (Option.getD · _) (hrefused hstatus)

/-- An event that ends with an error leaves the cache. -/
theorem cache_of_error {value : ℤ} {e : Surroundings}
    (herror : (t.checkForNewParameter stream value e).1 ≠ noError) :
    (t.checkForNewParameter stream value e).2.2.m86HifiRouteActive = t.m86HifiRouteActive ∧
      (t.checkForNewParameter stream value e).2.2.m86HifiRouteRate = t.m86HifiRouteRate := by
  obtain ⟨-, -, heq⟩ | ⟨status, p, t', happly, ⟨-, heq⟩ | ⟨-, heq⟩⟩ :=
    checkForNewParameter_cases stream value e t
  · rw [heq] at herror
    exact absurd rfl herror
  · rw [heq] at herror
    exact absurd rfl herror
  · obtain ⟨⟨_, _, rfl⟩, -, -⟩ := applied_fields happly
    rw [heq]
    exact ⟨rfl, rfl⟩

theorem length_closeForReopen (force : Bool) (t : MixerThread) :
    t.calls.length ≤ (t.closeForReopen force).calls.length := by
  unfold closeForReopen
  split_ifs
  · exact Nat.le_succ _
  · exact Nat.le_refl _

/-- An event that is not skipped calls the output stream. -/
theorem calls_ne_of_applied {value : ℤ} {e : Surroundings} {status : Status}
    {p : OutputParameters} {t' : MixerThread}
    (happly : (t.clearQueued.closeForReopen (t.forceReopen value)).applyDesired stream
      (t.desired e) = (status, p, t')) : t'.calls ≠ t.calls := by
  obtain ⟨status', newer, hcalls⟩ := calls_applyDesired stream (t.desired e)
    (t.clearQueued.closeForReopen (t.forceReopen value))
  have hlen := length_closeForReopen (t.forceReopen value) t.clearQueued
  have hsame : t.clearQueued.calls = t.calls := rfl
  rw [happly] at hcalls
  intro heq
  have hlength := congrArg List.length hcalls
  rw [hsame] at hlen
  dsimp only at hlength
  rw [heq, List.length_append, List.length_cons] at hlength
  omega

/-- **An event is skipped** only if the output stream is set to what is desired. -/
theorem Agrees.skipped (ha : Agrees t) {value : ℤ} {e : Surroundings}
    (hcalls : (t.checkForNewParameter stream value e).2.2.calls = t.calls) :
    t.setting = t.desired e := by
  obtain ⟨-, hupToDate, -⟩ | ⟨status, p, t', happly, ⟨-, heq⟩ | ⟨-, heq⟩⟩ :=
    checkForNewParameter_cases stream value e t
  · rw [upToDate, Bool.and_eq_true, beq_iff_eq, beq_iff_eq, ha.active, ha.sampleRate] at hupToDate
    obtain ⟨hstate, hrate⟩ := hupToDate
    cases hsetting : t.setting with
    | mk hifiState samplingRate =>
      rw [hsetting] at hstate hrate
      cases hdesired : t.desired e with
      | mk hifiState' samplingRate' =>
        rw [hdesired] at hstate hrate
        exact congrArg₂ OutputParameters.mk hstate.symm hrate
  · have hne := calls_ne_of_applied happly
    rw [heq] at hcalls
    exact absurd hcalls hne
  · have hne := calls_ne_of_applied happly
    rw [heq] at hcalls
    exact absurd hcalls hne

theorem applyDesired_of_rollback {p : OutputParameters} (hactive : p.hifiState = true)
    (hfirst : (t.setParametersRetrying stream p).1 ≠ noError)
    (hback : ((t.setParametersRetrying stream p).2.setParametersRetrying stream
      t.rollback).1 = noError) :
    t.applyDesired stream p = (noError, t.rollback,
      ((t.setParametersRetrying stream p).2.setParametersRetrying stream t.rollback).2) := by
  have hrollback : (t.setParametersRetrying stream p).2.rollback = t.rollback := by
    obtain ⟨_, _, heq⟩ := (called_setParametersRetrying stream p t).onlyOutput
    rw [heq]
    rfl
  unfold applyDesired
  dsimp only
  rw [if_pos ⟨hactive, hfirst⟩, hrollback, if_pos hback]

/-- **An activation that fails** and is rolled back ends inactive at the normal rate. -/
theorem rolledBack {value : ℤ} {e : Surroundings}
    (hcalls : (t.checkForNewParameter stream value e).2.2.calls ≠ t.calls)
    (hactive : (t.desired e).hifiState = true)
    (hfirst : (firstApply stream value e t).1 ≠ noError)
    (hback : (rollbackApply stream value e t).1 = noError) :
    let result := t.checkForNewParameter stream value e
    result.1 = noError ∧ result.2.2.m86HifiRouteActive = false ∧
      result.2.2.m86HifiRouteRate = 0 ∧ result.2.2.sampleRate = t.m86NormalSampleRate ∧
      result.2.2.setting = ⟨false, t.m86NormalSampleRate⟩ := by
  have hclosed : (t.clearQueued.closeForReopen (t.forceReopen value)).rollback = t.rollback := by
    obtain ⟨_, _, heq⟩ := onlyOutput_closeForReopen (t.forceReopen value) t.clearQueued
    rw [heq]
    rfl
  unfold firstApply at hfirst
  unfold rollbackApply firstApply at hback
  rw [← hclosed] at hback
  have hrolled := applyDesired_of_rollback hactive hfirst hback
  obtain ⟨-, -, heq⟩ | ⟨status, p, t', happly, hresult⟩ :=
    checkForNewParameter_cases stream value e t
  · rw [heq] at hcalls
    exact absurd rfl hcalls
  · have hboth := happly.symm.trans hrolled
    have hstatus : status = noError := congrArg Prod.fst hboth
    have hp : p = t.rollback := (congrArg (fun x => x.2.1) hboth).trans hclosed
    have hset := (applied_fields happly).2.1 hstatus
    have hread := setting_of_lastAccepted hset
    obtain ⟨-, heq⟩ | ⟨hne, -⟩ := hresult
    · rw [heq, hp]
      refine ⟨rfl, rfl, rfl, ?_, ?_⟩
      · exact congrArg OutputParameters.samplingRate (hread.trans hp)
      · exact (setting_of_lastAccepted hset).trans hp
    · exact absurd hstatus hne

end

/-- **The route agrees with the stream** after every event of every run; and of the
    next event: if it ends with an error it leaves the cache, if it rolls an activation
    back it ends inactive at the normal rate, and if it is skipped the stream is set to
    what is desired. -/
theorem route_agrees {stream : StreamOut} {type : ThreadType} {sampleRate : ℕ} {t : MixerThread}
    (hrun : (hifiEvents stream).Reach AnyInput (start type sampleRate) t) :
    Agrees t ∧ ∀ (value : ℤ) (e : Surroundings),
      let result := t.checkForNewParameter stream value e
      let t' := result.2.2
      Agrees t' ∧
      (result.1 ≠ noError → t'.m86HifiRouteActive = t.m86HifiRouteActive ∧
        t'.m86HifiRouteRate = t.m86HifiRouteRate) ∧
      (t'.calls ≠ t.calls → (t.desired e).hifiState = true →
        (firstApply stream value e t).1 ≠ noError → (rollbackApply stream value e t).1 = noError →
        result.1 = noError ∧ t'.m86HifiRouteActive = false ∧ t'.m86HifiRouteRate = 0 ∧
          t'.sampleRate = t.m86NormalSampleRate ∧ t'.setting = ⟨false, t.m86NormalSampleRate⟩) ∧
      (t'.calls = t.calls → t.setting = t.desired e) := by
  have ha : Agrees t := by
    refine hrun.invariant Agrees (agrees_start type sampleRate) ?_
    rintro t (force | standby | ⟨value, e⟩) _ _ ha
    · exact ha.request force
    · exact ha.of_eq rfl rfl rfl rfl
    · exact ha.checkForNewParameter value e
  refine ⟨ha, fun value e => ⟨ha.checkForNewParameter value e, cache_of_error, ?_, ha.skipped⟩⟩
  exact fun hcalls hactive hfirst hback => rolledBack hcalls hactive hfirst hback

/-- A stream that takes no more than 96000. -/
def limitedStream : StreamOut := fun _ p => if p.samplingRate ≤ 96000 then noError else -22

/-- A stereo track of music on the headphones. -/
def headphoneMusic (sampleRate : ℕ) : Surroundings :=
  ⟨true, true, [⟨.music, .media, true, 2, sampleRate⟩]⟩

/-- The route is active at 96000, and a track of 192000 does not get through. -/
theorem route_agrees_limited :
    let t := (hifiEvents limitedStream).after (start .mixer 48000)
      [.loop false, .request false, .recompute 1 (headphoneMusic 96000)]
    let t' := (t.checkForNewParameter limitedStream 1 (headphoneMusic 192000)).2.2
    Agrees t ∧ t.m86HifiRouteActive = true ∧ t.m86HifiRouteRate = 96000 ∧
      t'.m86HifiRouteActive = false ∧ t'.setting = ⟨false, 48000⟩ := by
  intro t t'
  have hallowed : (hifiEvents limitedStream).Allowed AnyInput (start .mixer 48000)
      [.loop false, .request false, .recompute 1 (headphoneMusic 96000)] :=
    ⟨trivial, trivial, trivial, trivial, trivial, trivial, trivial⟩
  obtain ⟨ha, hevent⟩ := route_agrees (reach_after hallowed)
  obtain ⟨-, -, hrolled, -⟩ := hevent 1 (headphoneMusic 192000)
  obtain ⟨-, hactive, -, -, hsetting⟩ :=
    hrolled (by decide) (by decide) (by decide) (by decide)
  exact ⟨ha, by decide, by decide, hactive, hsetting⟩

end Pro5Android.Flinger
