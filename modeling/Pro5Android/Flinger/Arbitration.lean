import Pro5Android.Flinger.MixerThread
import Mathlib.Data.List.Perm.Basic

/-!
# The arbitration does not depend on the order of the tracks

The scan over the active tracks stops at the first track that is unfit for HiFi or that
disagrees with the rate of the ones before it. What it decides is stated here without an
order: all the tracks that are not of the system fit one and the same rate.

Results:
* `tracksLoop_eq_iff`: when the scan ends with a rate.
* `desired_specification`: the decision is the one that is stated without an order.
-/

namespace Pro5Android.Flinger

/-! ## Specification -/

/-- A track that can be played in HiFi at `rate`. -/
structure Track.Fits (track : Track) (rate : ℕ) : Prop where
  media : track.usage = .media ∨ track.streamType = .music
  linearPcm : track.linearPcm = true
  channelCount : track.channelCount = 2
  sampleRate : track.sampleRate = rate
  supported : supportedRate rate = true

/-- A track that takes part in the arbitration. -/
def Track.Counts (track : Track) : Prop := track.streamType ≠ .system

instance (track : Track) : Decidable track.Counts := by
  unfold Track.Counts
  infer_instance

/-- HiFi is active at `rate`. -/
structure Surroundings.ActiveAt (e : Surroundings) (rate : ℕ) : Prop where
  userEnabled : e.userEnabled = true
  wired : e.wired = true
  exists_counts : ∃ track ∈ e.activeTracks, track.Counts
  fits : ∀ track ∈ e.activeTracks, track.Counts → track.Fits rate

/-! ## The scan -/

theorem Track.media_iff (track : Track) :
    track.media = true ↔ track.usage = .media ∨ track.streamType = .music := by
  unfold Track.media
  rw [Bool.or_eq_true, beq_iff_eq, beq_iff_eq]

theorem pos_of_supportedRate {rate : ℕ} (h : supportedRate rate = true) : rate ≠ 0 := by
  rintro rfl
  revert h
  decide

/-- The scan goes on at a track that fits its own rate, if that is the rate so far. -/
theorem goesOn_iff (track : Track) (commonRate : ℕ) :
    (!track.media || !track.linearPcm || track.channelCount != 2 ||
      !supportedRate track.sampleRate ||
      (commonRate != 0 && commonRate != track.sampleRate)) = false ↔
    track.Fits track.sampleRate ∧ (commonRate = 0 ∨ commonRate = track.sampleRate) := by
  simp only [Bool.or_eq_false_iff, Bool.not_eq_false', bne_eq_false_iff_eq,
    Bool.and_eq_false_iff, Track.media_iff]
  constructor
  · rintro ⟨⟨⟨⟨hmedia, hpcm⟩, hchannels⟩, hsupported⟩, hrate⟩
    exact ⟨⟨hmedia, hpcm, hchannels, rfl, hsupported⟩, hrate⟩
  · rintro ⟨hfits, hrate⟩
    exact ⟨⟨⟨⟨hfits.media, hfits.linearPcm⟩, hfits.channelCount⟩, hfits.supported⟩, hrate⟩

theorem tracksLoop_of_goesOn {track : Track} (hcounts : track.Counts) {commonRate : ℕ}
    (h : track.Fits track.sampleRate ∧ (commonRate = 0 ∨ commonRate = track.sampleRate))
    (tracks : List Track) (compatible : Bool) :
    tracksLoop (track :: tracks) compatible commonRate =
      tracksLoop tracks compatible track.sampleRate := by
  rw [tracksLoop, if_neg hcounts, (goesOn_iff track commonRate).mpr h]
  rfl

theorem tracksLoop_of_stops {track : Track} (hcounts : track.Counts) {commonRate : ℕ}
    (h : ¬ (track.Fits track.sampleRate ∧ (commonRate = 0 ∨ commonRate = track.sampleRate)))
    (tracks : List Track) (compatible : Bool) :
    tracksLoop (track :: tracks) compatible commonRate = (false, commonRate) := by
  rw [← goesOn_iff, Bool.not_eq_false] at h
  rw [tracksLoop, if_neg hcounts, h]
  rfl

theorem tracksLoop_of_system {track : Track} (hsystem : ¬ track.Counts) (tracks : List Track)
    (compatible : Bool) (commonRate : ℕ) :
    tracksLoop (track :: tracks) compatible commonRate =
      tracksLoop tracks compatible commonRate := by
  rw [tracksLoop, if_pos (not_not.mp hsystem)]

/-- **The scan** ends with a rate if all the tracks fit it, and it is the rate that the
    scan has, or the scan has none and there is a track. -/
theorem tracksLoop_eq_iff (tracks : List Track) (compatible : Bool) (commonRate rate : ℕ) :
    tracksLoop tracks compatible commonRate = (true, rate) ↔
      compatible = true ∧ (∀ track ∈ tracks, track.Counts → track.Fits rate) ∧
      (commonRate = rate ∨ commonRate = 0 ∧ ∃ track ∈ tracks, track.Counts) := by
  induction tracks generalizing commonRate with
  | nil =>
    rw [tracksLoop, Prod.mk.injEq]
    simp only [List.not_mem_nil, false_and, exists_false, and_false, or_false, false_implies,
      implies_true, true_and]
  | cons track tracks ih =>
    simp only [List.forall_mem_cons, List.exists_mem_cons_iff]
    by_cases hcounts : track.Counts
    · by_cases hgoesOn :
        track.Fits track.sampleRate ∧ (commonRate = 0 ∨ commonRate = track.sampleRate)
      · rw [tracksLoop_of_goesOn hcounts hgoesOn, ih]
        obtain ⟨hfits, hcommon⟩ := hgoesOn
        have hpos : track.sampleRate ≠ 0 := pos_of_supportedRate hfits.supported
        constructor
        · rintro ⟨hcompatible, hall, hsame⟩
          have hsame : track.sampleRate = rate := by omega
          refine ⟨hcompatible, ⟨fun _ => hsame ▸ hfits, hall⟩, ?_⟩
          obtain h | h := hcommon
          · exact .inr ⟨h, .inl hcounts⟩
          · exact .inl (h.trans hsame)
        · rintro ⟨hcompatible, ⟨htrack, hall⟩, -⟩
          exact ⟨hcompatible, hall, .inl (htrack hcounts).sampleRate⟩
      · rw [tracksLoop_of_stops hcounts hgoesOn]
        refine iff_of_false (fun h => Bool.false_ne_true (Prod.mk.inj h).1) ?_
        -- a track that fits the rate would not have stopped the scan
        rintro ⟨-, ⟨htrack, -⟩, hcommon⟩
        have hfits := htrack hcounts
        have hsame := hfits.sampleRate
        rw [← hsame] at hfits
        exact hgoesOn ⟨hfits, by omega⟩
    · rw [tracksLoop_of_system hcounts, ih]
      simp only [hcounts, false_implies, true_and, false_or]

/-! ## The decision -/

namespace MixerThread

variable (t : MixerThread) (e : Surroundings)

theorem desired_eq_active_iff (rate : ℕ) :
    t.desired e = ⟨true, rate⟩ ↔
      tracksLoop e.activeTracks (e.userEnabled && e.wired) 0 = (true, rate) ∧ rate ≠ 0 := by
  unfold desired
  generalize tracksLoop e.activeTracks (e.userEnabled && e.wired) 0 = scanned
  obtain ⟨compatible, commonRate⟩ := scanned
  dsimp only
  rw [OutputParameters.mk.injEq, Prod.mk.injEq]
  constructor
  · rintro ⟨hactive, hrate⟩
    rw [if_pos hactive] at hrate
    rw [Bool.and_eq_true, bne_iff_ne] at hactive
    exact ⟨⟨hactive.1, hrate⟩, hrate ▸ hactive.2⟩
  · rintro ⟨⟨hcompatible, rfl⟩, hrate⟩
    have hactive : (compatible && commonRate != 0) = true := by
      rw [Bool.and_eq_true, bne_iff_ne]
      exact ⟨hcompatible, hrate⟩
    exact ⟨hactive, if_pos hactive⟩

theorem desired_of_inactive (h : ∀ rate, t.desired e ≠ ⟨true, rate⟩) :
    t.desired e = ⟨false, t.m86NormalSampleRate⟩ := by
  unfold desired at h ⊢
  generalize tracksLoop e.activeTracks (e.userEnabled && e.wired) 0 = scanned at h ⊢
  obtain ⟨compatible, commonRate⟩ := scanned
  dsimp only at h ⊢
  cases hactive : compatible && commonRate != 0 with
  | true =>
    refine absurd ?_ (h commonRate)
    rw [hactive]
    rfl
  | false => rfl

theorem desired_iff_activeAt (rate : ℕ) : t.desired e = ⟨true, rate⟩ ↔ e.ActiveAt rate := by
  rw [desired_eq_active_iff]
  constructor
  · rintro ⟨hscan, hrate⟩
    obtain ⟨hboth, hfits, hfirst⟩ := (tracksLoop_eq_iff _ _ _ _).mp hscan
    rw [Bool.and_eq_true] at hboth
    obtain h | ⟨-, hexists⟩ := hfirst
    · exact absurd h.symm hrate
    · exact ⟨hboth.1, hboth.2, hexists, hfits⟩
  · intro h
    obtain ⟨track, hmem, hcounts⟩ := h.exists_counts
    have hrate : rate ≠ 0 := pos_of_supportedRate (h.fits track hmem hcounts).supported
    refine ⟨(tracksLoop_eq_iff _ _ _ _).mpr ⟨?_, h.fits, .inr ⟨rfl, h.exists_counts⟩⟩, hrate⟩
    rw [h.userEnabled, h.wired]
    rfl

/-- Surroundings that make the same rates active are decided alike. -/
theorem desired_congr {e e' : Surroundings} (h : ∀ rate, e.ActiveAt rate ↔ e'.ActiveAt rate) :
    t.desired e = t.desired e' := by
  by_cases hactive : ∃ rate, e.ActiveAt rate
  · obtain ⟨rate, hrate⟩ := hactive
    rw [(desired_iff_activeAt t e rate).mpr hrate,
      (desired_iff_activeAt t e' rate).mpr ((h rate).mp hrate)]
  · have hnone (rate : ℕ) : ¬ e.ActiveAt rate := fun hrate => hactive ⟨rate, hrate⟩
    rw [desired_of_inactive t e fun rate hrate =>
        hnone rate ((desired_iff_activeAt t e rate).mp hrate),
      desired_of_inactive t e' fun rate hrate =>
        hnone rate ((h rate).mpr ((desired_iff_activeAt t e' rate).mp hrate))]

end MixerThread

/-- Only which tracks count matters. -/
theorem Surroundings.activeAt_congr {e : Surroundings} {tracks : List Track}
    (h : ∀ track, track.Counts → (track ∈ tracks ↔ track ∈ e.activeTracks)) (rate : ℕ) :
    { e with activeTracks := tracks : Surroundings }.ActiveAt rate ↔ e.ActiveAt rate := by
  constructor
  · rintro ⟨huser, hwired, ⟨track, hmem, hcounts⟩, hfits⟩
    exact ⟨huser, hwired, ⟨track, (h track hcounts).mp hmem, hcounts⟩,
      fun track hmem hcounts => hfits track ((h track hcounts).mpr hmem) hcounts⟩
  · rintro ⟨huser, hwired, ⟨track, hmem, hcounts⟩, hfits⟩
    exact ⟨huser, hwired, ⟨track, (h track hcounts).mpr hmem, hcounts⟩,
      fun track hmem hcounts => hfits track ((h track hcounts).mp hmem) hcounts⟩

/-- **The arbitration equals its specification**: active at the rate that all the tracks
    fit, inactive at the normal rate if there is none; the order of the tracks and the
    tracks of the system do not matter. -/
theorem desired_specification (t : MixerThread) (e : Surroundings) :
    (∀ rate, t.desired e = ⟨true, rate⟩ ↔ e.ActiveAt rate) ∧
    ((¬ ∃ rate, e.ActiveAt rate) → t.desired e = ⟨false, t.m86NormalSampleRate⟩) ∧
    (∀ tracks, tracks.Perm e.activeTracks →
      t.desired { e with activeTracks := tracks } = t.desired e) ∧
    (∀ tracks : List Track, tracks.filter (fun track => decide track.Counts) =
        e.activeTracks.filter (fun track => decide track.Counts) →
      t.desired { e with activeTracks := tracks } = t.desired e) := by
  refine ⟨t.desired_iff_activeAt e, fun hnone => ?_, fun tracks hperm => ?_,
    fun tracks hfilter => ?_⟩
  · exact t.desired_of_inactive e fun rate h => hnone ⟨rate, (t.desired_iff_activeAt e rate).mp h⟩
  · apply t.desired_congr
    exact Surroundings.activeAt_congr fun track _ => hperm.mem_iff
  · apply t.desired_congr
    apply Surroundings.activeAt_congr
    intro track hcounts
    have hmem (l : List Track) :
        track ∈ l.filter (fun track => decide track.Counts) ↔ track ∈ l := by
      rw [List.mem_filter, decide_eq_true_iff]
      exact and_iff_left hcounts
    rw [← hmem tracks, hfilter, hmem]

end Pro5Android.Flinger
