import Pro5Android.Camera.Controls
import Pro5Android.Lib.Signed
import Mathlib.Data.List.Basic

/-!
# Metering regions

`m86_format_metering_region` (lines 2062–2082) scales the corners of a region from the
active array to the square of the legacy engine, whose sides go from -1000 to 1000. The
guard in front compares the corners with each other only; a corner far outside the array is
clamped, but after it has been multiplied.

Results:
* `exactCorner_mono`: scaling keeps the order of the corners.
* `meteringCorner_eq_some_iff`: when a corner is computed without overflow.
* `formatMeteringRegion_exact_iff`: the regions that are converted exactly.
* `formatMeteringRegion_overflows`: a region of the other kind.
-/

namespace Pro5Android.Camera

open Lib

/-! ## The conversion -/

/-- The first five numbers of a metering entry. -/
structure MeteringRegion where
  left : Int32
  top : Int32
  right : Int32
  bottom : Int32
  weight : Int32

/-- The entry, which may be longer. -/
def MeteringRegion.entry (r : MeteringRegion) (rest : List Int32) : List Int32 :=
  r.left :: r.top :: r.right :: r.bottom :: r.weight :: rest

/-- The five numbers that are printed. -/
structure MeteringArea where
  left : ℤ
  top : ℤ
  right : ℤ
  bottom : ℤ
  weight : ℤ
  deriving DecidableEq

/-- `coordinate * 2000 / active - 1000`, clamped; `none` where it overflows. -/
def meteringCorner (coordinate active : ℤ) : Option ℤ := do
  let product ← int32 (coordinate * 2000)
  let quotient ← div32 product active
  let shifted ← int32 (quotient - 1000)
  return clampI32 shifted (-1000) 1000

/-- `m86_format_metering_region` (lines 2062–2082). -/
def formatMeteringRegion (entry : List Int32) (activeWidth activeHeight : ℤ) :
    Option MeteringArea :=
  match entry with
  | x₀ :: y₀ :: x₁ :: y₁ :: weight :: _ =>
    if activeWidth ≤ 0 ∨ activeHeight ≤ 0 ∨ weight.toInt ≤ 0 ∨ x₁.toInt ≤ x₀.toInt ∨
        y₁.toInt ≤ y₀.toInt then some ⟨0, 0, 0, 0, 0⟩
    else do
      let left ← meteringCorner x₀.toInt activeWidth
      let top ← meteringCorner y₀.toInt activeHeight
      let right ← meteringCorner x₁.toInt activeWidth
      let bottom ← meteringCorner y₁.toInt activeHeight
      return ⟨left, top, right, bottom, clampI32 weight.toInt 1 1000⟩
  | _ => some ⟨0, 0, 0, 0, 0⟩

example : formatMeteringRegion [0, 0, 2672, 2008, 1] 5344 4016 = some ⟨-1000, -1000, 0, 0, 1⟩ := by
  decide

/-! ## Exact corners -/

/-- The corner over the integers. -/
def exactCorner (coordinate active : ℤ) : ℤ :=
  clampI32 ((coordinate * 2000).tdiv active - 1000) (-1000) 1000

theorem clampI32_mono {a b lower upper : ℤ} (hbounds : lower ≤ upper) (h : a ≤ b) :
    clampI32 a lower upper ≤ clampI32 b lower upper := by
  unfold clampI32
  split_ifs <;> omega

/-- Scaling keeps the order. -/
theorem exactCorner_mono {a b active : ℤ} (hactive : 0 < active) (h : a ≤ b) :
    exactCorner a active ≤ exactCorner b active := by
  have hscaled : (a * 2000).tdiv active ≤ (b * 2000).tdiv active :=
    Int.tdiv_le_tdiv hactive (by omega)
  exact clampI32_mono (by decide) (by omega)

/-- The product is the only intermediate that can overflow. -/
theorem meteringCorner_eq_some_iff {coordinate active m : ℤ} (hactive : 0 < active) :
    meteringCorner coordinate active = some m ↔
      (-1073741 ≤ coordinate ∧ coordinate ≤ 1073741) ∧ m = exactCorner coordinate active := by
  have hfits : IsInt32 (coordinate * 2000) ↔ -1073741 ≤ coordinate ∧ coordinate ≤ 1073741 := by
    unfold IsInt32
    omega
  unfold meteringCorner
  by_cases h : IsInt32 (coordinate * 2000)
  · have hshifted : IsInt32 ((coordinate * 2000).tdiv active - 1000) := by
      have hbounds := hfits.mp h
      have habs := Int.natAbs_tdiv_le_natAbs (coordinate * 2000) active
      unfold IsInt32
      omega
    rw [int32_of_fits h, Option.bind_eq_bind, Option.bind_some, div32_of_pos h hactive]
    show (int32 _ >>= _) = some m ↔ _
    rw [int32_of_fits hshifted]
    show some (exactCorner coordinate active) = some m ↔ _
    rw [Option.some.injEq, eq_comm]
    exact (and_iff_right (hfits.mp h)).symm
  · rw [int32_of_not_fits h]
    exact iff_of_false (Option.some_ne_none m).symm fun hm => h (hfits.mpr hm.1)

/-! ## Regions -/

namespace MeteringRegion

/-- The region passes the guard (lines 2066–2071). -/
def Admitted (r : MeteringRegion) (activeWidth activeHeight : ℤ) : Prop :=
  0 < activeWidth ∧ 0 < activeHeight ∧ 0 < r.weight.toInt ∧ r.left.toInt < r.right.toInt ∧
    r.top.toInt < r.bottom.toInt

/-- Nothing overflows, the corners are exact, and they keep their order. -/
def ConvertedExactly (r : MeteringRegion) (rest : List Int32) (activeWidth activeHeight : ℤ) :
    Prop :=
  ∃ area, formatMeteringRegion (r.entry rest) activeWidth activeHeight = some area ∧
    area.left = exactCorner r.left.toInt activeWidth ∧
    area.top = exactCorner r.top.toInt activeHeight ∧
    area.right = exactCorner r.right.toInt activeWidth ∧
    area.bottom = exactCorner r.bottom.toInt activeHeight ∧
    area.left ≤ area.right ∧ area.top ≤ area.bottom

/-- A corner whose product with 2000 is an `int`. -/
def InReach (coordinate : Int32) : Prop :=
  -1073741 ≤ coordinate.toInt ∧ coordinate.toInt ≤ 1073741

/-- A region that passes the guard is computed corner by corner. -/
theorem format_of_admitted {r : MeteringRegion} {activeWidth activeHeight : ℤ}
    (h : r.Admitted activeWidth activeHeight) (rest : List Int32) :
    formatMeteringRegion (r.entry rest) activeWidth activeHeight = do
      let left ← meteringCorner r.left.toInt activeWidth
      let top ← meteringCorner r.top.toInt activeHeight
      let right ← meteringCorner r.right.toInt activeWidth
      let bottom ← meteringCorner r.bottom.toInt activeHeight
      return ⟨left, top, right, bottom, clampI32 r.weight.toInt 1 1000⟩ := by
  unfold Admitted at h
  exact if_neg (by omega)

end MeteringRegion

open MeteringRegion

/-- **Metering regions are converted exactly** if no corner is further out than 1073741. -/
theorem formatMeteringRegion_exact_iff (r : MeteringRegion) (rest : List Int32)
    (activeWidth activeHeight : ℤ) :
    (r.Admitted activeWidth activeHeight →
      r.ConvertedExactly rest activeWidth activeHeight) ↔
    (r.Admitted activeWidth activeHeight →
      InReach r.left ∧ InReach r.top ∧ InReach r.right ∧ InReach r.bottom) := by
  refine forall_congr' fun hadmitted => ?_
  obtain ⟨hwidth, hheight, -, hleft, htop⟩ := id hadmitted
  unfold ConvertedExactly
  rw [format_of_admitted hadmitted]
  simp only [Option.bind_eq_bind, Option.bind_eq_some_iff, meteringCorner_eq_some_iff hwidth,
    meteringCorner_eq_some_iff hheight, Option.pure_def, Option.some.injEq]
  constructor
  · rintro ⟨area, ⟨_, ⟨hl, -⟩, _, ⟨ht, -⟩, _, ⟨hr, -⟩, _, ⟨hb, -⟩, -⟩, -⟩
    exact ⟨hl, ht, hr, hb⟩
  · rintro ⟨hl, ht, hr, hb⟩
    exact ⟨_, ⟨_, ⟨hl, rfl⟩, _, ⟨ht, rfl⟩, _, ⟨hr, rfl⟩, _, ⟨hb, rfl⟩, rfl⟩, rfl, rfl, rfl, rfl,
      exactCorner_mono hwidth (Int.le_of_lt hleft), exactCorner_mono hheight (Int.le_of_lt htop)⟩

/-- A region with a corner far to the right of the rear camera's array. -/
def farRegion : MeteringRegion := ⟨0, 0, 1073742, 100, 1⟩

/-- **The far corner** overflows before it is clamped. -/
theorem formatMeteringRegion_overflows :
    ¬ (farRegion.Admitted 5344 4016 → farRegion.ConvertedExactly [] 5344 4016) := by
  intro h
  have hadmitted : farRegion.Admitted 5344 4016 := by
    unfold Admitted
    decide
  have hnone : formatMeteringRegion (farRegion.entry []) 5344 4016 = none := by decide
  obtain ⟨area, harea, -⟩ := h hadmitted
  exact Option.some_ne_none area (harea.symm.trans hnone)

end Pro5Android.Camera
