import Pro5Android.Camera.Controls
import Pro5Android.Camera.ZoomRatios
import Pro5Android.Lib.Signed
import Mathlib.Tactic.IntervalCases
import Mathlib.Tactic.Linarith

/-!
# Zoom

`m86_find_zoom_index` (lines 2103–2141) scans the list of zoom ratios of the legacy
parameters for the one nearest to what a request asks for, and falls back on a linear scale
if it finds none. `m86_apply_request_controls` (lines 2287–2321) makes a ratio of the
requested crop region, and a crop region of the ratio that was found.

Results:
* `Nearest`: what the scan knows of the elements that it has seen; `nearest_zoomLoop` keeps
  it to the end.
* `linearZoomIndex_eq`: the fallback is a point of the linear scale.
* `desiredRatio_eq`: what is asked for, as a number.
* `requestCrop_spec`: the index, the ratio and the crop region of every request.
-/

namespace Pro5Android.Camera

open Lib
open Audio (CString lit)

/-! ## The scan -/

/-- `best_index`, `best_ratio` and `best_difference`. -/
structure ZoomSearch where
  bestIndex : ℤ
  bestRatio : ℤ
  bestDifference : ℤ
  deriving DecidableEq

/-- Before the loop (lines 2106–2108). -/
def initialSearch : ZoomSearch := ⟨-1, 100, 0x7fffffff⟩

/-- `difference` (lines 2120–2121). -/
def zoomDifference (desiredRatio ratio : ℤ) : Option ℤ :=
  if ratio > desiredRatio then int32 (ratio - desiredRatio) else int32 (desiredRatio - ratio)

/-- An element of the list (lines 2118–2127). -/
def zoomStep (desiredRatio index parsed : ℤ) (s : ZoomSearch) : Option ZoomSearch :=
  if parsed ≥ 100 ∧ parsed ≤ 800 then do
    let difference ← zoomDifference desiredRatio parsed
    return if difference < s.bestDifference then ⟨index, parsed, difference⟩ else s
  else some s

/-- The loop (lines 2111–2129). -/
def zoomLoop (maxZoom desiredRatio index : ℤ) (cursor : CString) (s : ZoomSearch) :
    Option ZoomSearch :=
  if cursor = [] ∨ ¬ index ≤ maxZoom then some s
  else
    match _h : strtol cursor with
    | none => some s
    | some (parsed, rest) => do
      let s ← zoomStep desiredRatio index parsed s
      let index ← int32 (index + 1)
      zoomLoop maxZoom desiredRatio index (skipComma rest) s
termination_by cursor.length
decreasing_by
  exact Nat.lt_of_le_of_lt (length_skipComma_le rest) (length_lt_of_strtol (by assumption))

/-- The index and the ratio where nothing was found (lines 2131–2136). -/
def linearZoomIndex (maxZoom desiredRatio : ℤ) : Option (ℤ × ℤ) :=
  if maxZoom > 0 then do
    let above ← int32 (desiredRatio - 100)
    let product ← int32 (above * maxZoom)
    let quotient ← div32 product 300
    let bestIndex := clampI32 quotient 0 maxZoom
    let scaled ← int32 (bestIndex * 300)
    let step ← div32 scaled maxZoom
    let bestRatio ← int32 (100 + step)
    return (bestIndex, bestRatio)
  else some (0, 100)

/-- `m86_find_zoom_index` (lines 2103–2141): the index and the ratio. -/
def findZoomIndex (ratios : Option CString) (maxZoom desiredRatio : ℤ) : Option (ℤ × ℤ) := do
  let s ← ratios.elim (some initialSearch) fun cursor =>
    zoomLoop maxZoom desiredRatio 0 cursor initialSearch
  if s.bestIndex < 0 then linearZoomIndex maxZoom desiredRatio
  else some (s.bestIndex, s.bestRatio)

/-! ## The crop region -/

/-- `width_ratio`, `height_ratio` and `desired_ratio` (lines 2289–2296). -/
def desiredRatio (cameraId : ℕ) (width height : Int32) : Option ℤ := do
  let (activeWidth, activeHeight) := activeSize cameraId
  let requestedWidth := clampI32 width.toInt (activeWidth.tdiv 4) activeWidth
  let requestedHeight := clampI32 height.toInt (activeHeight.tdiv 4) activeHeight
  let widthScaled ← int32 (activeWidth * 100)
  let widthRatio ← div32 widthScaled requestedWidth
  let heightScaled ← int32 (activeHeight * 100)
  let heightRatio ← div32 heightScaled requestedHeight
  return clampI32 (if widthRatio > heightRatio then widthRatio else heightRatio) 100 400

/-- The part of `m86_apply_request_controls` for the crop region (lines 2287–2321): the
index for `KEY_ZOOM`, and the crop region. The corner of the requested region is not read. -/
def requestCrop (cameraId : ℕ) (ratios : Option CString) (maxZoom : ℤ) (width height : Int32) :
    Option (ℤ × CropRegion) := do
  let (activeWidth, activeHeight) := activeSize cameraId
  let desired ← desiredRatio cameraId width height
  let (zoom, actualRatio) ← findZoomIndex ratios maxZoom desired
  let widthScaled ← int32 (activeWidth * 100)
  let cropWidth ← div32 widthScaled actualRatio
  let heightScaled ← int32 (activeHeight * 100)
  let cropHeight ← div32 heightScaled actualRatio
  let restWidth ← int32 (activeWidth - cropWidth)
  let left ← div32 restWidth 2
  let restHeight ← int32 (activeHeight - cropHeight)
  let top ← div32 restHeight 2
  return (zoom, ⟨left, top, cropWidth, cropHeight⟩)

/-! ## The nearest element -/

/-- A ratio that the scan takes. -/
def Usable (ratio : ℤ) : Prop := 100 ≤ ratio ∧ ratio ≤ 800

/-- The first of the usable elements that are nearest to the ratio that is desired. -/
structure IsNearest (desired : ℤ) (seen : List ℤ) (i : ℕ) (ratio : ℤ) : Prop where
  element : seen[i]? = some ratio
  usable : Usable ratio
  le : ∀ (j : ℕ) (r : ℤ), seen[j]? = some r → Usable r → |ratio - desired| ≤ |r - desired|
  lt : ∀ (j : ℕ) (r : ℤ), seen[j]? = some r → Usable r → j < i → |ratio - desired| < |r - desired|

/-- What the search knows of the elements that it has seen. -/
def Nearest (desired : ℤ) (seen : List ℤ) (s : ZoomSearch) : Prop :=
  (s = initialSearch ∧ ∀ r ∈ seen, ¬ Usable r) ∨
    ∃ i ratio, s = ⟨(i : ℕ), ratio, |ratio - desired|⟩ ∧ IsNearest desired seen i ratio

section

variable {desired : ℤ} {seen : List ℤ} {s : ZoomSearch}

theorem getElem?_concat_cases {seen : List ℤ} {parsed r : ℤ} {j : ℕ}
    (h : (seen ++ [parsed])[j]? = some r) :
    (j < seen.length ∧ seen[j]? = some r) ∨ (j = seen.length ∧ r = parsed) := by
  rw [List.getElem?_append] at h
  split_ifs at h with hj
  · exact .inl ⟨hj, h⟩
  · obtain ⟨hlt, heq⟩ := List.getElem?_eq_some_iff.mp h
    rw [List.length_singleton] at hlt
    refine .inr ⟨by omega, ?_⟩
    rw [← heq, List.getElem_singleton]

/-- An element that is not usable changes nothing. -/
theorem Nearest.concat_of_not_usable (h : Nearest desired seen s) {parsed : ℤ}
    (hparsed : ¬ Usable parsed) : Nearest desired (seen ++ [parsed]) s := by
  obtain ⟨hs, hnone⟩ | ⟨i, ratio, hs, hnearest⟩ := h
  · refine .inl ⟨hs, fun r hr => ?_⟩
    obtain hr | hr := List.mem_append.mp hr
    · exact hnone r hr
    · rw [List.mem_singleton.mp hr]
      exact hparsed
  · have hi := (List.getElem?_eq_some_iff.mp hnearest.element).1
    refine .inr ⟨i, ratio, hs, ?_, hnearest.usable, fun j r hj hr => ?_, fun j r hj hr hlt => ?_⟩
    · rw [List.getElem?_append_left hi]
      exact hnearest.element
    · obtain ⟨-, hj⟩ | ⟨-, rfl⟩ := getElem?_concat_cases hj
      · exact hnearest.le j r hj hr
      · exact absurd hr hparsed
    · obtain ⟨-, hj⟩ | ⟨-, rfl⟩ := getElem?_concat_cases hj
      · exact hnearest.lt j r hj hr hlt
      · exact absurd hr hparsed

/-- A usable element takes the place of one that is further away. -/
theorem Nearest.concat_of_lt (h : Nearest desired seen s) {parsed : ℤ} (hparsed : Usable parsed)
    (hlt : |parsed - desired| < s.bestDifference) :
    Nearest desired (seen ++ [parsed]) ⟨seen.length, parsed, |parsed - desired|⟩ := by
  -- every usable element before it is further away
  have hbefore : ∀ (j : ℕ) (r : ℤ), seen[j]? = some r → Usable r → |parsed - desired| < |r - desired| := by
    intro j r hj hr
    obtain ⟨-, hnone⟩ | ⟨i, ratio, rfl, hnearest⟩ := h
    · exact absurd hr (hnone r (List.mem_of_getElem? hj))
    · exact lt_of_lt_of_le hlt (hnearest.le j r hj hr)
  refine .inr ⟨seen.length, parsed, rfl, ?_, hparsed, fun j r hj hr => ?_, fun j r hj hr hjlt => ?_⟩
  · rw [List.getElem?_append_right le_rfl, Nat.sub_self]
    rfl
  · obtain ⟨-, hj⟩ | ⟨-, rfl⟩ := getElem?_concat_cases hj
    · exact (hbefore j r hj hr).le
    · exact le_rfl
  · obtain ⟨-, hj⟩ | ⟨hlen, -⟩ := getElem?_concat_cases hj
    · exact hbefore j r hj hr
    · omega

/-- A usable element that is not nearer leaves the search as it is. -/
theorem Nearest.concat_of_le (h : Nearest desired seen s) (hs : s ≠ initialSearch) {parsed : ℤ}
    (hle : s.bestDifference ≤ |parsed - desired|) : Nearest desired (seen ++ [parsed]) s := by
  obtain ⟨heq, -⟩ | ⟨i, ratio, rfl, hnearest⟩ := h
  · exact absurd heq hs
  · have hi := (List.getElem?_eq_some_iff.mp hnearest.element).1
    refine .inr ⟨i, ratio, rfl, ?_, hnearest.usable, fun j r hj hr => ?_, fun j r hj hr hlt => ?_⟩
    · rw [List.getElem?_append_left hi]
      exact hnearest.element
    · obtain ⟨-, hj⟩ | ⟨-, rfl⟩ := getElem?_concat_cases hj
      · exact hnearest.le j r hj hr
      · exact hle
    · obtain ⟨-, hj⟩ | ⟨hlen, -⟩ := getElem?_concat_cases hj
      · exact hnearest.lt j r hj hr hlt
      · omega

/-- **One element** is taken in without overflow. -/
theorem nearest_zoomStep (hdesired : 100 ≤ desired ∧ desired ≤ 400)
    (h : Nearest desired seen s) (parsed : ℤ) :
    ∃ s', zoomStep desired seen.length parsed s = some s' ∧
      Nearest desired (seen ++ [parsed]) s' := by
  unfold zoomStep
  by_cases hparsed : parsed ≥ 100 ∧ parsed ≤ 800
  · have hbound : |parsed - desired| ≤ 700 := abs_le.mpr (by omega)
    have hdifference : zoomDifference desired parsed = some |parsed - desired| := by
      unfold zoomDifference
      split_ifs with hgt
      · rw [abs_of_pos (by omega), int32_of_fits (by unfold IsInt32; omega)]
      · rw [abs_of_nonpos (by omega), Int.neg_sub, int32_of_fits (by unfold IsInt32; omega)]
    rw [if_pos hparsed, hdifference]
    refine ⟨_, rfl, ?_⟩
    by_cases hlt : |parsed - desired| < s.bestDifference
    · rw [if_pos hlt]
      exact h.concat_of_lt hparsed hlt
    · rw [if_neg hlt]
      refine h.concat_of_le ?_ (not_lt.mp hlt)
      rintro rfl
      exact hlt (lt_of_le_of_lt hbound (by decide))
  · rw [if_neg hparsed]
    exact ⟨s, rfl, h.concat_of_not_usable hparsed⟩

variable {maxZoom index : ℤ}

theorem zoomLoop_of_done {cursor : CString} (h : cursor = [] ∨ ¬ index ≤ maxZoom) :
    zoomLoop maxZoom desired index cursor s = some s := by
  rw [zoomLoop, if_pos h]

theorem zoomLoop_of_none {cursor : CString} (h : strtol cursor = none) :
    zoomLoop maxZoom desired index cursor s = some s := by
  rw [zoomLoop]
  split_ifs
  · rfl
  · split
    · rfl
    · next heq => exact absurd (heq.symm.trans h) (Option.some_ne_none _)

theorem zoomLoop_of_some {cursor rest : CString} {parsed : ℤ} (hne : cursor ≠ [])
    (hindex : index ≤ maxZoom) (h : strtol cursor = some (parsed, rest)) :
    zoomLoop maxZoom desired index cursor s =
      (zoomStep desired index parsed s).bind fun s =>
        (int32 (index + 1)).bind fun index =>
          zoomLoop maxZoom desired index (skipComma rest) s := by
  rw [zoomLoop, if_neg (not_or.mpr ⟨hne, not_not_intro hindex⟩)]
  split
  · next heq => exact absurd (h.symm.trans heq) (Option.some_ne_none _)
  · next heq =>
    obtain ⟨rfl, rfl⟩ := Prod.mk.inj (Option.some.inj (heq.symm.trans h))
    rfl

/-- At the end of the text nothing is left to take in. -/
theorem nearest_zoomLoop_nil {seen : List ℤ} (h : Nearest desired seen s) (n : ℕ) :
    ∃ s', zoomLoop maxZoom desired seen.length [] s = some s' ∧
      Nearest desired (seen ++ (readable []).take n) s' := by
  refine ⟨s, zoomLoop_of_done (.inl rfl), ?_⟩
  rwa [readable_of_none strtol_nil, List.take_nil, List.append_nil]

/-- **The loop** takes in the first `maxZoom + 1` elements, by induction on the text. -/
theorem nearest_zoomLoop (hdesired : 100 ≤ desired ∧ desired ≤ 400)
    (hmax : maxZoom < 2 ^ 31 - 1) (n : ℕ) :
    ∀ (cursor : CString) (seen : List ℤ) (s : ZoomSearch), cursor.length ≤ n →
      Nearest desired seen s →
      ∃ s', zoomLoop maxZoom desired seen.length cursor s = some s' ∧
        Nearest desired (seen ++ (readable cursor).take (maxZoom + 1 - seen.length).toNat) s' := by
  induction n with
  | zero =>
    intro cursor seen s hn h
    obtain rfl := List.eq_nil_of_length_eq_zero (Nat.le_zero.mp hn)
    exact nearest_zoomLoop_nil h _
  | succ n ih =>
    intro cursor seen s hn h
    by_cases hne : cursor = []
    · subst hne
      exact nearest_zoomLoop_nil h _
    by_cases hindex : (seen.length : ℤ) ≤ maxZoom
    · cases hread : strtol cursor with
      | none =>
        refine ⟨s, zoomLoop_of_none hread, ?_⟩
        rwa [readable_of_none hread, List.take_nil, List.append_nil]
      | some element =>
        obtain ⟨parsed, rest⟩ := element
        obtain ⟨s₁, hstep, hs₁⟩ := nearest_zoomStep hdesired h parsed
        have hshort : (skipComma rest).length ≤ n := by
          have hskip := length_skipComma_le rest
          have hrest := length_lt_of_strtol hread
          omega
        obtain ⟨s', hloop, hs'⟩ := ih (skipComma rest) (seen ++ [parsed]) s₁ hshort hs₁
        have hnext : int32 ((seen.length : ℤ) + 1) =
            some (((seen ++ [parsed]).length : ℕ) : ℤ) := by
          rw [List.length_append, List.length_singleton, Nat.cast_add, Nat.cast_one]
          exact int32_of_fits (by unfold IsInt32; omega)
        refine ⟨s', ?_, ?_⟩
        · rw [zoomLoop_of_some hne hindex hread, hstep, Option.bind_some, hnext, Option.bind_some]
          exact hloop
        · have htake : (maxZoom + 1 - seen.length).toNat =
              (maxZoom + 1 - (seen ++ [parsed]).length).toNat + 1 := by
            rw [List.length_append, List.length_singleton]
            omega
          rw [readable_of_some hread, htake, List.take_succ_cons, List.append_cons]
          exact hs'
    · refine ⟨s, zoomLoop_of_done (.inr hindex), ?_⟩
      rwa [Int.toNat_of_nonpos (by omega), List.take_zero, List.append_nil]

/-! ## The index -/

/-- The elements of a list of ratios, or of none. -/
def RatioElements : Option CString → List ℤ → Prop
  | none, elements => elements = []
  | some text, elements => Elements text elements

/-- A list has its elements, and no others. -/
theorem existsUnique_ratioElements (ratios : Option CString) :
    ∃! elements, RatioElements ratios elements := by
  cases ratios with
  | none => exact ⟨[], rfl, fun _ h => h⟩
  | some text =>
    exact ⟨readable text, (elements_iff _ _).mpr rfl, fun _ h => (elements_iff _ _).mp h⟩

/-- The elements that the scan may look at. -/
def candidates (elements : List ℤ) (maxZoom : ℤ) : List ℤ := elements.take (maxZoom + 1).toNat

/-- The search over a list, or over none. -/
theorem nearest_search (hdesired : 100 ≤ desired ∧ desired ≤ 400) (hmax : maxZoom < 2 ^ 31 - 1)
    {ratios : Option CString} {elements : List ℤ} (helements : RatioElements ratios elements) :
    ∃ s, (ratios.elim (some initialSearch) fun cursor =>
        zoomLoop maxZoom desired 0 cursor initialSearch) = some s ∧
      Nearest desired (candidates elements maxZoom) s := by
  have hinitial : Nearest desired [] initialSearch :=
    .inl ⟨rfl, fun r hr => absurd hr List.not_mem_nil⟩
  unfold candidates
  cases ratios with
  | none =>
    obtain rfl := helements
    refine ⟨initialSearch, rfl, ?_⟩
    rwa [List.take_nil]
  | some cursor =>
    obtain rfl := (elements_iff _ _).mp helements
    obtain ⟨s, hloop, hs⟩ :=
      nearest_zoomLoop hdesired hmax cursor.length cursor [] initialSearch le_rfl hinitial
    rw [List.nil_append, List.length_nil, Nat.cast_zero, Int.sub_zero] at hs
    exact ⟨s, hloop, hs⟩

/-- The ratio that stands for an index on the linear scale (line 2136). -/
def linearRatio (maxZoom zoom : ℤ) : ℤ :=
  if maxZoom > 0 then 100 + (zoom * 300).tdiv maxZoom else 100

theorem usable_linearRatio {zoom : ℤ} (h0 : 0 ≤ zoom) (h : zoom ≤ max maxZoom 0) :
    Usable (linearRatio maxZoom zoom) := by
  unfold linearRatio Usable
  split_ifs with hpos
  · have hstep := @tdiv_mem (zoom * 300) maxZoom 300 hpos (by omega) (by omega)
    omega
  · omega

/-- **The fallback** does not overflow, and picks a point of the linear scale. -/
theorem linearZoomIndex_eq (hdesired : 100 ≤ desired ∧ desired ≤ 400) (hmax : IsInt32 (300 * maxZoom)) :
    ∃ zoom, linearZoomIndex maxZoom desired = some (zoom, linearRatio maxZoom zoom) ∧
      0 ≤ zoom ∧ zoom ≤ max maxZoom 0 := by
  unfold linearZoomIndex linearRatio
  by_cases hpos : maxZoom > 0
  · have hproduct : 0 ≤ (desired - 100) * maxZoom ∧ (desired - 100) * maxZoom ≤ maxZoom * 300 := by
      constructor <;> nlinarith
    have hquotient := @tdiv_mem ((desired - 100) * maxZoom) 300 maxZoom (by decide) hproduct.1
      hproduct.2
    generalize hq : ((desired - 100) * maxZoom).tdiv 300 = zoom at hquotient
    have hclamp : clampI32 zoom 0 maxZoom = zoom := by
      unfold clampI32
      split_ifs <;> omega
    have hstep := @tdiv_mem (zoom * 300) maxZoom 300 hpos (by omega) (by omega)
    have habove : IsInt32 (desired - 100) := by
      unfold IsInt32
      omega
    have hproduct32 : IsInt32 ((desired - 100) * maxZoom) := by
      unfold IsInt32 at hmax ⊢
      omega
    have hscaled : IsInt32 (zoom * 300) := by
      unfold IsInt32 at hmax ⊢
      omega
    have hratio : IsInt32 (100 + (zoom * 300).tdiv maxZoom) := by
      unfold IsInt32
      omega
    refine ⟨zoom, ?_, by omega, by omega⟩
    rw [if_pos hpos, if_pos hpos]
    simp only [Option.bind_eq_bind, Option.bind_some, int32_of_fits habove,
      int32_of_fits hproduct32, div32_of_pos hproduct32 (by decide : (0 : ℤ) < 300), hq, hclamp,
      int32_of_fits hscaled, div32_of_pos hscaled hpos, int32_of_fits hratio]
    rfl
  · rw [if_neg hpos]
    refine ⟨0, ?_, le_rfl, le_max_right _ _⟩
    rw [if_neg hpos]

/-- **The index that is found**: the nearest usable element, or a point of the linear scale. -/
theorem findZoomIndex_spec (hdesired : 100 ≤ desired ∧ desired ≤ 400)
    (hmax : IsInt32 (300 * maxZoom)) {ratios : Option CString} {elements : List ℤ}
    (helements : RatioElements ratios elements) :
    ∃ zoom actual, findZoomIndex ratios maxZoom desired = some (zoom, actual) ∧
      0 ≤ zoom ∧ zoom ≤ max maxZoom 0 ∧ Usable actual ∧
      ((∃ i : ℕ, zoom = i ∧ IsNearest desired (candidates elements maxZoom) i actual) ∨
        (∀ r ∈ candidates elements maxZoom, ¬ Usable r) ∧ actual = linearRatio maxZoom zoom) := by
  have hbound : maxZoom < 2 ^ 31 - 1 := by
    unfold IsInt32 at hmax
    omega
  obtain ⟨s, hsearch, ⟨rfl, hnone⟩ | ⟨i, ratio, rfl, hnearest⟩⟩ :=
    nearest_search hdesired hbound helements
  · obtain ⟨zoom, hlinear, h0, hle⟩ := linearZoomIndex_eq hdesired hmax
    refine ⟨zoom, _, ?_, h0, hle, usable_linearRatio h0 hle, .inr ⟨hnone, rfl⟩⟩
    rw [findZoomIndex, hsearch]
    exact hlinear
  · refine ⟨i, ratio, ?_, Int.natCast_nonneg i, ?_, hnearest.usable, .inl ⟨i, rfl, hnearest⟩⟩
    · rw [findZoomIndex, hsearch]
      show (if (i : ℤ) < 0 then linearZoomIndex maxZoom desired else some ((i : ℤ), ratio)) = _
      rw [if_neg (not_lt.mpr (Int.natCast_nonneg i))]
    · have hi := (List.getElem?_eq_some_iff.mp hnearest.element).1
      have htake : (candidates elements maxZoom).length ≤ (maxZoom + 1).toNat :=
        List.length_take_le _ _
      omega

/-! ## The crop region -/

/-- The sides of both arrays are far from the bounds of `int`. -/
theorem activeSize_mem (cameraId : ℕ) :
    (8 ≤ (activeSize cameraId).1 ∧ (activeSize cameraId).1 ≤ 10000) ∧
      8 ≤ (activeSize cameraId).2 ∧ (activeSize cameraId).2 ≤ 10000 := by
  unfold activeSize
  split_ifs <;> decide

theorem isInt32_scaled {active : ℤ} (h : 8 ≤ active ∧ active ≤ 10000) : IsInt32 (active * 100) := by
  unfold IsInt32
  omega

/-- What is requested of a side is clamped to a positive number. -/
theorem requested_pos {active : ℤ} (h : 8 ≤ active ∧ active ≤ 10000) (requested : ℤ) :
    0 < clampI32 requested (active.tdiv 4) active := by
  have hquarter : active.tdiv 4 = active / 4 := Int.tdiv_eq_ediv_of_nonneg (by omega)
  have hmem := @clampI32_mem (active.tdiv 4) active requested (by omega)
  omega

/-- The ratio, in percent, at which a side of the array shows what is requested of it, which
counts for no less than a quarter of the side and no more than all of it. -/
def sideRatio (active requested : ℤ) : ℤ := active * 100 / max (active / 4) (min active requested)

/-- The ratio that a region of a size asks for: the larger one of its sides, from 1 to 4
times. -/
def askedRatio (cameraId : ℕ) (width height : ℤ) : ℤ :=
  max 100 (min 400 (max (sideRatio (activeSize cameraId).1 width)
    (sideRatio (activeSize cameraId).2 height)))

theorem askedRatio_mem (cameraId : ℕ) (width height : ℤ) :
    100 ≤ askedRatio cameraId width height ∧ askedRatio cameraId width height ≤ 400 := by
  unfold askedRatio
  omega

theorem clampI32_eq {value low high : ℤ} (h : low ≤ high) :
    clampI32 value low high = max low (min high value) := by
  unfold clampI32
  split_ifs <;> omega

/-- The ratio of a side, without overflow. -/
theorem sideRatio_eq {active : ℤ} (h : 8 ≤ active ∧ active ≤ 10000) (requested : ℤ) :
    (active * 100).tdiv (clampI32 requested (active.tdiv 4) active) = sideRatio active requested := by
  have hquarter : active.tdiv 4 = active / 4 := Int.tdiv_eq_ediv_of_nonneg (by omega)
  rw [hquarter, clampI32_eq (by omega), Int.tdiv_eq_ediv_of_nonneg (by omega)]
  rfl

/-- The desired ratio is what the region asks for. -/
theorem desiredRatio_eq (cameraId : ℕ) (width height : Int32) :
    desiredRatio cameraId width height =
      some (askedRatio cameraId width.toInt height.toInt) := by
  obtain ⟨hwidth, hheight⟩ := activeSize_mem cameraId
  unfold desiredRatio askedRatio
  simp only [Option.bind_eq_bind, Option.bind_some, int32_of_fits (isInt32_scaled hwidth),
    int32_of_fits (isInt32_scaled hheight),
    div32_of_pos (isInt32_scaled hwidth) (requested_pos hwidth width.toInt),
    div32_of_pos (isInt32_scaled hheight) (requested_pos hheight height.toInt),
    sideRatio_eq hwidth, sideRatio_eq hheight]
  refine congrArg some ((clampI32_eq (by decide)).trans ?_)
  split_ifs <;> omega

/-- A side of the crop region: it fits into the array, in its middle up to one pixel. -/
structure Centred (active left side : ℤ) : Prop where
  pos : 0 < side
  left_nonneg : 0 ≤ left
  inside : left + side ≤ active
  middle : 2 * left ≤ active - side ∧ active - side ≤ 2 * left + 1

/-- A side that is scaled by a usable ratio. -/
theorem centred_scaled {active actual : ℤ} (h : 8 ≤ active ∧ active ≤ 10000)
    (hactual : Usable actual) :
    Centred active ((active - (active * 100).tdiv actual).tdiv 2) ((active * 100).tdiv actual) := by
  obtain ⟨hlow, hhigh⟩ := hactual
  have hle := @tdiv_mem (active * 100) actual active (by omega) (by omega)
    (Int.mul_le_mul_of_nonneg_left hlow (by omega))
  have hpos : 1 ≤ (active * 100).tdiv actual := by
    rw [Int.tdiv_eq_ediv_of_nonneg (by omega), Int.le_ediv_iff_mul_le (by omega)]
    omega
  generalize (active * 100).tdiv actual = side at hle hpos
  have hhalf : (active - side).tdiv 2 = (active - side) / 2 :=
    Int.tdiv_eq_ediv_of_nonneg (by omega)
  rw [hhalf]
  exact ⟨by omega, by omega, by omega, by omega, by omega⟩

/-- A crop region without overflow, at a usable ratio. -/
theorem requestCrop_eq {cameraId : ℕ} {ratios : Option CString} {width height : Int32}
    {zoom actual : ℤ} (hdesired : desiredRatio cameraId width height = some desired)
    (hfind : findZoomIndex ratios maxZoom desired = some (zoom, actual))
    (hactual : Usable actual) (c : Controls) :
    requestCrop cameraId ratios maxZoom width height =
      some (zoom, (updateControls cameraId c (.cropRegion actual)).cropRegion) := by
  obtain ⟨hwidth, hheight⟩ := activeSize_mem cameraId
  have hpos : 0 < actual := by
    have hlow := hactual.1
    omega
  have hrest {active : ℤ} (h : 8 ≤ active ∧ active ≤ 10000) :
      IsInt32 (active - (active * 100).tdiv actual) := by
    have hcentred := centred_scaled h hactual
    have hside := hcentred.pos
    have hmiddle := hcentred.middle
    have hinside := hcentred.inside
    unfold IsInt32
    omega
  unfold requestCrop
  simp only [Option.bind_eq_bind, Option.bind_some, hdesired, hfind,
    int32_of_fits (isInt32_scaled hwidth), int32_of_fits (isInt32_scaled hheight),
    div32_of_pos (isInt32_scaled hwidth) hpos, div32_of_pos (isInt32_scaled hheight) hpos,
    int32_of_fits (hrest hwidth), int32_of_fits (hrest hheight),
    div32_of_pos (hrest hwidth) (by decide : (0 : ℤ) < 2),
    div32_of_pos (hrest hheight) (by decide : (0 : ℤ) < 2)]
  rfl

/-- **Zoom**: for every list of ratios and every requested region nothing overflows, the index
is the nearest usable element or a point of the linear scale, and the crop region is the
active array at that ratio. -/
theorem requestCrop_spec (cameraId : ℕ) (ratios : Option CString) (maxZoom : ℤ)
    (hmax : IsInt32 (300 * maxZoom)) (width height : Int32) :
    (∃! elements, RatioElements ratios elements) ∧
    ∀ elements, RatioElements ratios elements → ∃ zoom actual crop,
      findZoomIndex ratios maxZoom (askedRatio cameraId width.toInt height.toInt) =
        some (zoom, actual) ∧
      requestCrop cameraId ratios maxZoom width height = some (zoom, crop) ∧
      0 ≤ zoom ∧ zoom ≤ max maxZoom 0 ∧ 100 ≤ actual ∧ actual ≤ 800 ∧
      ((∃ r ∈ elements.take (maxZoom + 1).toNat, Usable r) →
        ∃ i : ℕ, zoom = i ∧ IsNearest (askedRatio cameraId width.toInt height.toInt)
          (elements.take (maxZoom + 1).toNat) i actual) ∧
      ((¬ ∃ r ∈ elements.take (maxZoom + 1).toNat, Usable r) →
        actual = linearRatio maxZoom zoom) ∧
      crop.width = (activeSize cameraId).1 * 100 / actual ∧
      crop.height = (activeSize cameraId).2 * 100 / actual ∧
      Centred (activeSize cameraId).1 crop.left crop.width ∧
      Centred (activeSize cameraId).2 crop.top crop.height := by
  refine ⟨existsUnique_ratioElements ratios, fun elements helements => ?_⟩
  have hratio := desiredRatio_eq cameraId width height
  have hdesired := askedRatio_mem cameraId width.toInt height.toInt
  obtain ⟨zoom, actual, hfind, h0, hle, hactual, hcases⟩ :=
    findZoomIndex_spec hdesired hmax helements
  obtain ⟨hwidth, hheight⟩ := activeSize_mem cameraId
  have hscaled {active : ℤ} (h : 8 ≤ active ∧ active ≤ 10000) :
      (active * 100).tdiv actual = active * 100 / actual :=
    Int.tdiv_eq_ediv_of_nonneg (by omega)
  refine ⟨zoom, actual, _, hfind,
    requestCrop_eq hratio hfind hactual (initialControls cameraId), h0, hle, hactual.1, hactual.2,
    ?_, ?_, hscaled hwidth, hscaled hheight, centred_scaled hwidth hactual,
    centred_scaled hheight hactual⟩
  · rintro ⟨r, hr, husable⟩
    obtain hnearest | ⟨hnone, -⟩ := hcases
    · exact hnearest
    · exact absurd husable (hnone r hr)
  · intro hnone
    obtain ⟨i, -, hnearest⟩ | ⟨-, hlinear⟩ := hcases
    · exact absurd ⟨actual, List.mem_of_getElem? hnearest.element, hnearest.usable⟩ hnone
    · exact hlinear

end

/-- The numbers between the commas of a list of four. -/
theorem elements_four : RatioElements (some (lit "100,150,200,400")) [100, 150, 200, 400] := by
  have hspells {digits : CString} {n : ℕ} (hne : digits ≠ [])
      (hdigits : digits.all Char.isDigit = true) (hn : decimal digits = n)
      (hlt : n < 2 ^ 31) : Spells digits n := by
    subst hn
    have h : IsNumeral digits := ⟨hne, List.all_eq_true.mp hdigits⟩
    have hmin : min (2 ^ 31 - 1) (decimal digits : ℤ) = decimal digits := by omega
    have hpositive := @Spells.positive [] [] digits (fun _ h => absurd h List.not_mem_nil)
      (.inl rfl) h
    rwa [hmin] at hpositive
  apply elements_of_splitOn
  have hsplit : (lit "100,150,200,400").splitOn ',' =
      [lit "100", lit "150", lit "200", lit "400"] := by decide
  rw [hsplit]
  refine .cons (hspells ?_ ?_ ?_ ?_) (.cons (hspells ?_ ?_ ?_ ?_)
    (.cons (hspells ?_ ?_ ?_ ?_) (.cons (hspells ?_ ?_ ?_ ?_) .nil)))
  all_goals decide

/-- A request of half the array: the third of four ratios, and the middle of the array. -/
theorem requestCrop_spec_half :
    requestCrop 0 (some (lit "100,150,200,400")) 3 2672 2008 =
      some (2, ⟨1336, 1004, 2672, 2008⟩) := by
  obtain ⟨zoom, actual, crop, -, hcrop, -, -, -, -, hnearest, -, hwidth, hheight, hleft, htop⟩ :=
    (requestCrop_spec 0 (some (lit "100,150,200,400")) 3 (by decide) 2672 2008).2 _ elements_four
  have hasked : askedRatio 0 (2672 : Int32).toInt (2008 : Int32).toInt = 200 := by decide
  rw [hasked] at hnearest
  obtain ⟨i, rfl, hi⟩ := hnearest ⟨200, by decide, by decide, by decide⟩
  -- 200 is there, so nothing else is nearest
  have hactual : actual = 200 := by
    have hle := hi.le 2 200 rfl ⟨by decide, by decide⟩
    rw [sub_self, abs_zero] at hle
    have hzero := abs_eq_zero.mp (le_antisymm hle (abs_nonneg _))
    omega
  subst hactual
  have hindex : i = 2 := by
    have hlt := (List.getElem?_eq_some_iff.mp hi.element).1
    have helement := hi.element
    have hlt : i < 4 := hlt
    interval_cases i <;> first | rfl | exact absurd helement (by decide)
  subst hindex
  obtain ⟨left, top, width, height⟩ := crop
  obtain ⟨-, -, -, hleft⟩ := hleft
  obtain ⟨-, -, -, htop⟩ := htop
  have hactive : activeSize 0 = (5344, 4016) := rfl
  rw [hactive] at hwidth hheight hleft htop
  dsimp only at hwidth hheight hleft htop
  obtain rfl : width = 2672 := by omega
  obtain rfl : height = 2008 := by omega
  obtain rfl : left = 1336 := by omega
  obtain rfl : top = 1004 := by omega
  exact hcrop

end Pro5Android.Camera
