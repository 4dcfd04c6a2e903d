import Pro5Android.Jpeg.Encoder
import Mathlib.Data.List.GetD
import Mathlib.Tactic.Ring

/-!
# The sizes of the input planes

`setColorBufSize` of both encoders (`ExynosJpegEncoderM86.cpp`, lines 267–282;
`ExynosJpegEncoderM2M.cpp`, lines 281–312). The sizes are products of `int`, and what is
halved is the product of the sides: with an odd side that is less than the chroma planes
need, whose sides are rounded up.

Results:
* `computedPlanes_eq_some_iff`: when the products do without overflow, and what they are.
* `codePlanes_eq_planeBytes_iff`: for which sides they are the sizes of the planes.
* `planesExact_iff`: the calls whose sizes are exact.
* `planes_overflow`: a call of the other kind.
-/

namespace Pro5Android.Jpeg

open Lib

/-! ## The two functions -/

/-- The formats with one packed plane. -/
def IsPacked (format : BitVec 32) : Prop := format = kYuyv ∨ format = kYuy2

/-- The formats with luma and chroma in one plane. -/
def IsSemiPlanar (format : BitVec 32) : Prop := format = kNv12 ∨ format = kNv21

/-- The formats with luma and chroma in two planes. -/
def IsTwoPlanar (format : BitVec 32) : Prop := format = kNv12m ∨ format = kNv21m

instance (format : BitVec 32) : Decidable (IsPacked format) := inferInstanceAs (Decidable (_ ∨ _))

instance (format : BitVec 32) : Decidable (IsSemiPlanar format) :=
  inferInstanceAs (Decidable (_ ∨ _))

instance (format : BitVec 32) : Decidable (IsTwoPlanar format) :=
  inferInstanceAs (Decidable (_ ∨ _))

/-- `getInputPlaneCount` (M2M, lines 35–48). -/
def getInputPlaneCount (format : BitVec 32) : ℕ :=
  if IsPacked format ∨ IsSemiPlanar format then 1 else if IsTwoPlanar format then 2 else 0

/-- `m_width * m_height * 2`. -/
def packedSize (width height : ℤ) : Option ℤ := do
  let area ← int32 (width * height)
  int32 (area * 2)

namespace Encoder

variable (e : Encoder)

/-- The sizes go to the caller's array and to `m_input_sizes`, and 0 to the rest of both, up
    to `kMaxPlanes`. -/
def storePlanes (planes sizes : List Int32) : ℤ × Encoder × List Int32 :=
  (0,
    { e with
      inputSizes := fun i =>
        if i < min sizes.length kMaxPlanes then planes.getD i 0 else e.inputSizes i },
    sizes.mapIdx fun i old => if i < kMaxPlanes then planes.getD i 0 else old)

/-- `setColorBufSize` (M86, lines 267–282); no sizes are also those of a null pointer. -/
def setColorBufSizeM86 (sizes : List Int32) : Option (ℤ × Encoder × List Int32) :=
  if sizes = [] then some (-1, e, sizes)
  else if e.width.toInt ≤ 0 ∨ e.height.toInt ≤ 0 ∨ ¬ IsPacked e.colorFormat then
    some (-1, e, sizes)
  else do
    let size ← packedSize e.width.toInt e.height.toInt
    return e.storePlanes [Int32.ofInt size] sizes

/-- The sizes that `setColorBufSize` computes (M2M, lines 292–306). -/
def computedPlanes (format : BitVec 32) (width height : ℤ) (count : ℕ) : Option (List ℤ) := do
  let first ←
    if IsPacked format then packedSize width height
    else do
      let area ← int32 (width * height)
      if IsSemiPlanar format then do
        let half ← div32 area 2
        int32 (area + half)
      else some area
  if IsTwoPlanar format ∧ count > 1 then do
    let area ← int32 (width * height)
    let half ← div32 area 2
    return [first, half]
  else return [first]

/-- `setColorBufSize` (M2M, lines 281–312). -/
def setColorBufSizeM2M (sizes : List Int32) : Option (ℤ × Encoder × List Int32) :=
  if sizes = [] ∨ e.width.toInt ≤ 0 ∨ e.height.toInt ≤ 0 then some (-1, e, sizes)
  else if getInputPlaneCount e.colorFormat = 0 ∨
      sizes.length < getInputPlaneCount e.colorFormat then some (-1, e, sizes)
  else do
    let planes ← computedPlanes e.colorFormat e.width.toInt e.height.toInt sizes.length
    return e.storePlanes (planes.map Int32.ofInt) sizes

end Encoder

/-- The two encoders. -/
inductive Backend
  | m86
  | m2m

/-- `setColorBufSize` of either encoder. -/
def setColorBufSize : Backend → Encoder → List Int32 → Option (ℤ × Encoder × List Int32)
  | .m86 => Encoder.setColorBufSizeM86
  | .m2m => Encoder.setColorBufSizeM2M

/-! ## The sizes of the planes -/

/-- Half a side, rounded up. -/
def halfUp (n : ℤ) : ℤ := (n + 1) / 2

/-- The bytes of each plane of a format: four for two pixels of a row that is packed, one for
    a pixel of luma, and two for a pixel of chroma, which has half the columns and half the
    rows. -/
def planeBytes (format : BitVec 32) (width height : ℤ) : List ℤ :=
  if IsPacked format then [4 * halfUp width * height]
  else if IsSemiPlanar format then [width * height + 2 * (halfUp width * halfUp height)]
  else if IsTwoPlanar format then [width * height, 2 * (halfUp width * halfUp height)]
  else []

/-- What the code computes, over the integers. -/
def codePlanes (format : BitVec 32) (width height : ℤ) : List ℤ :=
  if IsPacked format then [width * height * 2]
  else if IsSemiPlanar format then [width * height + width * height / 2]
  else if IsTwoPlanar format then [width * height, width * height / 2]
  else []

/-- The format and the number of planes are accepted. -/
def Takes : Backend → BitVec 32 → ℕ → Prop
  | .m86, format, count => 1 ≤ count ∧ IsPacked format
  | .m2m, format, count => getInputPlaneCount format ≠ 0 ∧ getInputPlaneCount format ≤ count

/-- Nothing overflows, each plane of the format has its bytes, and the rest of the array is 0. -/
def PlanesExact (backend : Backend) (e : Encoder) (sizes : List Int32) : Prop :=
  ∃ e' sizes', setColorBufSize backend e sizes = some (0, e', sizes') ∧
    (planeBytes e.colorFormat e.width.toInt e.height.toInt).length =
      getInputPlaneCount e.colorFormat ∧
    getInputPlaneCount e.colorFormat ≤ sizes'.length ∧ sizes'.length = sizes.length ∧
    (∀ size ∈ planeBytes e.colorFormat e.width.toInt e.height.toInt, 0 < size) ∧
    ∀ (i : ℕ) (size : Int32), sizes'[i]? = some size →
      size.toInt = (planeBytes e.colorFormat e.width.toInt e.height.toInt).getD i 0

/-! ## What is computed -/

section

variable {format : BitVec 32} {width height : ℤ} {count : ℕ}

theorem IsPacked.not_twoPlanar (h : IsPacked format) : ¬ IsTwoPlanar format := by
  unfold IsTwoPlanar
  obtain rfl | rfl := h <;> decide

theorem IsSemiPlanar.not_packed (h : IsSemiPlanar format) : ¬ IsPacked format := by
  unfold IsPacked
  obtain rfl | rfl := h <;> decide

theorem IsSemiPlanar.not_twoPlanar (h : IsSemiPlanar format) : ¬ IsTwoPlanar format := by
  unfold IsTwoPlanar
  obtain rfl | rfl := h <;> decide

theorem IsTwoPlanar.not_semiPlanar (h : IsTwoPlanar format) : ¬ IsSemiPlanar format :=
  fun hsemi => hsemi.not_twoPlanar h

/-- A format that has planes is of one of three kinds. -/
theorem kind_cases (h : getInputPlaneCount format ≠ 0) :
    IsPacked format ∨ IsSemiPlanar format ∨ (¬ IsPacked format ∧ IsTwoPlanar format) := by
  unfold getInputPlaneCount at h
  split_ifs at h with hone htwo
  · exact hone.imp_right .inl
  · exact .inr (.inr ⟨fun hpacked => hone (.inl hpacked), htwo⟩)
  · exact absurd rfl h

theorem getInputPlaneCount_of_twoPlanar (hpacked : ¬ IsPacked format) (h : IsTwoPlanar format) :
    getInputPlaneCount format = 2 := by
  unfold getInputPlaneCount
  rw [if_neg (not_or.mpr ⟨hpacked, h.not_semiPlanar⟩), if_pos h]

/-- A positive number is an `int` if it is below the bound. -/
theorem int32_eq_some_of_pos {n m : ℤ} (h : 0 < n) : int32 n = some m ↔ n < 2 ^ 31 ∧ m = n := by
  have hfits : IsInt32 n ↔ n < 2 ^ 31 := by
    unfold IsInt32
    omega
  rw [int32_eq_some, hfits]

theorem packedSize_eq_some_iff {size : ℤ} (harea : 0 < width * height) :
    packedSize width height = some size ↔
      width * height * 2 < 2 ^ 31 ∧ size = width * height * 2 := by
  unfold packedSize
  rw [Option.bind_eq_bind, Option.bind_eq_some_iff]
  constructor
  · rintro ⟨area, hfits, hsize⟩
    obtain ⟨-, rfl⟩ := (int32_eq_some_of_pos harea).mp hfits
    exact (int32_eq_some_of_pos (by omega)).mp hsize
  · rintro ⟨hlt, rfl⟩
    exact ⟨_, (int32_eq_some_of_pos harea).mpr ⟨by omega, rfl⟩,
      (int32_eq_some_of_pos (by omega)).mpr ⟨hlt, rfl⟩⟩

theorem div32_two {a : ℤ} (h : 0 < a) (hlt : a < 2 ^ 31) : div32 a 2 = some (a / 2) := by
  rw [div32_of_pos (by unfold IsInt32; omega) (by decide), Int.tdiv_eq_ediv_of_nonneg h.le]

/-- **The products** are computed without overflow if they are below the bound. -/
theorem computedPlanes_eq_some_iff (harea : 0 < width * height)
    (hformat : getInputPlaneCount format ≠ 0) (hcount : getInputPlaneCount format ≤ count)
    {planes : List ℤ} :
    Encoder.computedPlanes format width height count = some planes ↔
      (∀ size ∈ codePlanes format width height, size < 2 ^ 31) ∧
        planes = codePlanes format width height := by
  unfold Encoder.computedPlanes codePlanes
  obtain hpacked | hsemi | ⟨hpacked, htwo⟩ := kind_cases hformat
  · rw [if_pos hpacked, if_pos hpacked, Option.bind_eq_bind, Option.bind_eq_some_iff]
    have hone : ¬ (IsTwoPlanar format ∧ count > 1) := fun h => hpacked.not_twoPlanar h.1
    simp only [packedSize_eq_some_iff harea, if_neg hone, Option.pure_def, Option.some.injEq,
      List.forall_mem_cons, List.not_mem_nil, false_implies, implies_true, and_true]
    constructor
    · rintro ⟨_, ⟨hlt, rfl⟩, rfl⟩
      exact ⟨hlt, rfl⟩
    · rintro ⟨hlt, rfl⟩
      exact ⟨_, ⟨hlt, rfl⟩, rfl⟩
  · have hone : ¬ (IsTwoPlanar format ∧ count > 1) := fun h => hsemi.not_twoPlanar h.1
    simp only [if_neg hsemi.not_packed, if_pos hsemi, if_neg hone, Option.bind_eq_bind,
      Option.bind_eq_some_iff, int32_eq_some_of_pos harea, Option.pure_def, Option.some.injEq,
      List.forall_mem_cons, List.not_mem_nil, false_implies, implies_true, and_true]
    constructor
    · rintro ⟨_, ⟨hlt, rfl⟩, half, hhalf, size, hsize, rfl⟩
      rw [div32_two harea hlt] at hhalf
      obtain rfl := Option.some.inj hhalf
      obtain ⟨hsum, rfl⟩ := (int32_eq_some_of_pos (by omega)).mp hsize
      exact ⟨hsum, rfl⟩
    · rintro ⟨hsum, rfl⟩
      have hlt : width * height < 2 ^ 31 := by omega
      exact ⟨_, ⟨hlt, rfl⟩, _, div32_two harea hlt, _,
        (int32_eq_some_of_pos (by omega)).mpr ⟨hsum, rfl⟩, rfl⟩
  · rw [getInputPlaneCount_of_twoPlanar hpacked htwo] at hcount
    have hboth : IsTwoPlanar format ∧ count > 1 := ⟨htwo, hcount⟩
    simp only [if_neg hpacked, if_neg htwo.not_semiPlanar, if_pos hboth, if_pos htwo,
      Option.bind_eq_bind, Option.bind_eq_some_iff, int32_eq_some_of_pos harea, Option.pure_def,
      Option.some.injEq, List.forall_mem_cons, List.not_mem_nil, false_implies, implies_true,
      and_true]
    constructor
    · rintro ⟨_, ⟨hlt, rfl⟩, _, rfl, _, ⟨-, rfl⟩, half, hhalf, rfl⟩
      rw [div32_two harea hlt] at hhalf
      obtain rfl := Option.some.inj hhalf
      exact ⟨⟨hlt, by omega⟩, rfl⟩
    · rintro ⟨⟨hlt, -⟩, rfl⟩
      exact ⟨_, ⟨hlt, rfl⟩, _, rfl, _, ⟨hlt, rfl⟩, _, div32_two harea hlt, rfl⟩

/-! ## Whether it is exact -/

/-- Half the product of the sides is what the chroma planes need if both sides are even. -/
theorem half_area_eq_iff (hwidth : 0 < width) (hheight : 0 < height) :
    width * height / 2 = 2 * (halfUp width * halfUp height) ↔
      width % 2 = 0 ∧ height % 2 = 0 := by
  unfold halfUp
  obtain ⟨a, rfl | rfl⟩ := Int.even_or_odd' width
  all_goals obtain ⟨b, rfl | rfl⟩ := Int.even_or_odd' height
  · have hhalf : 2 * a * (2 * b) / 2 = 2 * (a * b) := by
      rw [show 2 * a * (2 * b) = 2 * (2 * (a * b)) by ring]
      omega
    rw [hhalf, show (2 * a + 1) / 2 = a by omega, show (2 * b + 1) / 2 = b by omega]
    exact iff_of_true rfl ⟨by omega, by omega⟩
  · have hhalf : 2 * a * (2 * b + 1) / 2 = 2 * (a * b) + a := by
      rw [show 2 * a * (2 * b + 1) = 2 * (2 * (a * b) + a) by ring]
      omega
    rw [hhalf, show (2 * a + 1) / 2 = a by omega, show (2 * b + 1 + 1) / 2 = b + 1 by omega,
      show a * (b + 1) = a * b + a by ring]
    exact iff_of_false (by omega) (by omega)
  · have hhalf : (2 * a + 1) * (2 * b) / 2 = 2 * (a * b) + b := by
      rw [show (2 * a + 1) * (2 * b) = 2 * (2 * (a * b) + b) by ring]
      omega
    rw [hhalf, show (2 * a + 1 + 1) / 2 = a + 1 by omega, show (2 * b + 1) / 2 = b by omega,
      show (a + 1) * b = a * b + b by ring]
    exact iff_of_false (by omega) (by omega)
  · have hhalf : (2 * a + 1) * (2 * b + 1) / 2 = 2 * (a * b) + a + b := by
      rw [show (2 * a + 1) * (2 * b + 1) = 2 * (2 * (a * b) + a + b) + 1 by ring]
      omega
    rw [hhalf, show (2 * a + 1 + 1) / 2 = a + 1 by omega,
      show (2 * b + 1 + 1) / 2 = b + 1 by omega,
      show (a + 1) * (b + 1) = a * b + a + b + 1 by ring]
    exact iff_of_false (by omega) (by omega)

/-- A packed row has four bytes for two pixels, and two for each pixel if their number is
    even. -/
theorem packed_area_eq_iff (hheight : 0 < height) :
    width * height * 2 = 4 * halfUp width * height ↔ width % 2 = 0 := by
  unfold halfUp
  obtain ⟨a, rfl | rfl⟩ := Int.even_or_odd' width
  · rw [show (2 * a + 1) / 2 = a by omega]
    exact iff_of_true (by ring) (by omega)
  · rw [show (2 * a + 1 + 1) / 2 = a + 1 by omega,
      show (2 * a + 1) * height * 2 = 4 * a * height + 2 * height by ring,
      show 4 * (a + 1) * height = 4 * a * height + 4 * height by ring]
    exact iff_of_false (by omega) (by omega)

/-- **The sizes are those of the planes** if no side is odd that is halved. -/
theorem codePlanes_eq_planeBytes_iff (hwidth : 0 < width) (hheight : 0 < height)
    (hformat : getInputPlaneCount format ≠ 0) :
    codePlanes format width height = planeBytes format width height ↔
      width % 2 = 0 ∧ (IsPacked format ∨ height % 2 = 0) := by
  unfold codePlanes planeBytes
  obtain hpacked | hsemi | ⟨hpacked, htwo⟩ := kind_cases hformat
  · rw [if_pos hpacked, if_pos hpacked, List.singleton_inj, packed_area_eq_iff hheight]
    exact (and_iff_left (.inl hpacked)).symm
  · rw [if_neg hsemi.not_packed, if_neg hsemi.not_packed, if_pos hsemi, if_pos hsemi,
      List.singleton_inj, Int.add_right_inj, half_area_eq_iff hwidth hheight,
      or_iff_right hsemi.not_packed]
  · rw [if_neg hpacked, if_neg hpacked, if_neg htwo.not_semiPlanar, if_neg htwo.not_semiPlanar,
      if_pos htwo, if_pos htwo, List.cons.injEq, List.singleton_inj, eq_self, true_and,
      half_area_eq_iff hwidth hheight, or_iff_right hpacked]

theorem codePlanes_nonneg (harea : 0 < width * height) :
    ∀ size ∈ codePlanes format width height, 0 ≤ size := by
  unfold codePlanes
  split_ifs
  all_goals
    simp only [List.forall_mem_cons, List.not_mem_nil, false_implies, implies_true, and_true]
  all_goals omega

/-- A list with an entry for each plane, by the kind of the format. -/
theorem length_kinds (packed semi first second : ℤ) (hformat : getInputPlaneCount format ≠ 0) :
    (if IsPacked format then [packed] else if IsSemiPlanar format then [semi]
      else if IsTwoPlanar format then [first, second] else []).length =
      getInputPlaneCount format := by
  obtain hpacked | hsemi | ⟨hpacked, htwo⟩ := kind_cases hformat
  · rw [if_pos hpacked, getInputPlaneCount, if_pos (.inl hpacked)]
    rfl
  · rw [if_neg hsemi.not_packed, if_pos hsemi, getInputPlaneCount, if_pos (.inr hsemi)]
    rfl
  · rw [if_neg hpacked, if_neg htwo.not_semiPlanar, if_pos htwo,
      getInputPlaneCount_of_twoPlanar hpacked htwo]
    rfl

variable (width height) in
theorem length_codePlanes (hformat : getInputPlaneCount format ≠ 0) :
    (codePlanes format width height).length = getInputPlaneCount format :=
  length_kinds _ _ _ _ hformat

variable (width height) in
theorem length_planeBytes (hformat : getInputPlaneCount format ≠ 0) :
    (planeBytes format width height).length = getInputPlaneCount format :=
  length_kinds _ _ _ _ hformat

variable (format) in
theorem planeBytes_pos (hwidth : 0 < width) (hheight : 0 < height) :
    ∀ size ∈ planeBytes format width height, 0 < size := by
  have hhalf {n : ℤ} (hn : 0 < n) : 0 < halfUp n := by
    unfold halfUp
    omega
  have harea := Int.mul_pos hwidth hheight
  have hchroma := Int.mul_pos (hhalf hwidth) (hhalf hheight)
  have hpackedArea : 0 < 4 * halfUp width * height :=
    Int.mul_pos (Int.mul_pos (by decide) (hhalf hwidth)) hheight
  unfold planeBytes
  split_ifs
  all_goals
    simp only [List.forall_mem_cons, List.not_mem_nil, false_implies, implies_true, and_true]
  · exact hpackedArea
  · omega
  · exact ⟨harea, by omega⟩

end

/-! ## Both encoders -/

section

variable {e : Encoder} {backend : Backend} {sizes : List Int32}

/-- What both encoders do with arguments that they take. -/
theorem setColorBufSize_of_takes (hwidth : 0 < e.width.toInt) (hheight : 0 < e.height.toInt)
    (htakes : Takes backend e.colorFormat sizes.length) :
    setColorBufSize backend e sizes =
      (Encoder.computedPlanes e.colorFormat e.width.toInt e.height.toInt sizes.length).map
        fun planes => e.storePlanes (planes.map Int32.ofInt) sizes := by
  cases backend with
  | m86 =>
    obtain ⟨hcount, hpacked⟩ := htakes
    have hne : sizes ≠ [] := List.length_pos_iff.mp hcount
    have hone : ¬ (IsTwoPlanar e.colorFormat ∧ sizes.length > 1) :=
      fun h => hpacked.not_twoPlanar h.1
    have hargs : ¬ (e.width.toInt ≤ 0 ∨ e.height.toInt ≤ 0 ∨ ¬ IsPacked e.colorFormat) := by
      simp only [hpacked, not_true_eq_false, or_false]
      omega
    show e.setColorBufSizeM86 sizes = _
    unfold Encoder.setColorBufSizeM86 Encoder.computedPlanes
    simp only [if_neg hne, if_neg hargs, if_pos hpacked, if_neg hone]
    cases packedSize e.width.toInt e.height.toInt <;> rfl
  | m2m =>
    obtain ⟨hformat, hcount⟩ := htakes
    have hne : sizes ≠ [] := by
      rintro rfl
      exact hformat (Nat.le_zero.mp hcount)
    show e.setColorBufSizeM2M sizes = _
    unfold Encoder.setColorBufSizeM2M
    rw [if_neg (by simp only [hne, false_or]; omega), if_neg (by omega)]
    cases Encoder.computedPlanes e.colorFormat e.width.toInt e.height.toInt sizes.length <;> rfl

theorem Takes.format (h : Takes backend e.colorFormat sizes.length) :
    getInputPlaneCount e.colorFormat ≠ 0 ∧
      getInputPlaneCount e.colorFormat ≤ sizes.length := by
  cases backend with
  | m86 =>
    unfold getInputPlaneCount
    rw [if_pos (.inl h.2)]
    exact ⟨by decide, h.1⟩
  | m2m => exact h

/-- Sizes that are `int` values are stored as they are. -/
theorem toInt_getD_ofInt {planes : List ℤ} (h : ∀ size ∈ planes, IsInt32 size) (i : ℕ) :
    ((planes.map Int32.ofInt).getD i 0).toInt = planes.getD i 0 := by
  have hfits : IsInt32 (planes.getD i 0) := by
    rw [List.getD_eq_getElem?_getD]
    cases hsize : planes[i]? with
    | none => decide
    | some size => exact h size (List.mem_of_getElem? hsize)
  have hmap : (planes.map Int32.ofInt).getD i 0 = Int32.ofInt (planes.getD i 0) := by
    rw [List.getD_eq_getElem?_getD, List.getD_eq_getElem?_getD, List.getElem?_map]
    cases planes[i]? <;> rfl
  rw [hmap]
  exact Int32.toInt_ofInt_of_le hfits.1 hfits.2

/-- An element of the array after the call. -/
theorem getElem?_storePlanes (planes : List Int32) (i : ℕ) :
    (e.storePlanes planes sizes).2.2[i]? =
      sizes[i]?.map fun old => if i < kMaxPlanes then planes.getD i 0 else old :=
  List.getElem?_mapIdx

theorem getInputPlaneCount_le (format : BitVec 32) : getInputPlaneCount format ≤ 2 := by
  unfold getInputPlaneCount
  split_ifs <;> decide

/-- The array has what was computed, and 0 up to `kMaxPlanes`. -/
theorem stored_iff {planes bytes : List ℤ} (hfits : ∀ size ∈ planes, IsInt32 size)
    (hlength : planes.length = bytes.length) (htwo : planes.length ≤ 2)
    (hcount : planes.length ≤ sizes.length) :
    (∀ (i : ℕ) (size : Int32), (e.storePlanes (planes.map Int32.ofInt) sizes).2.2[i]? = some size →
      size.toInt = bytes.getD i 0) ↔
    planes = bytes ∧
      ∀ (i : ℕ) (size : Int32), kMaxPlanes ≤ i → sizes[i]? = some size → size = 0 := by
  have hbehind {l : List ℤ} (hl : l.length ≤ 2) {i : ℕ} (hi : kMaxPlanes ≤ i) : l.getD i 0 = 0 := by
    unfold kMaxPlanes at hi
    exact List.getD_eq_default _ _ (by omega)
  have hstored (i : ℕ) (old : Int32) (hold : sizes[i]? = some old) :
      (e.storePlanes (planes.map Int32.ofInt) sizes).2.2[i]? =
        some (if i < kMaxPlanes then (planes.map Int32.ofInt).getD i 0 else old) := by
    rw [getElem?_storePlanes, hold, Option.map_some]
  constructor
  · intro h
    refine ⟨List.ext_getElem hlength fun i hi hi' => ?_, fun i size hi hsize => ?_⟩
    · have hold := List.getElem?_eq_getElem (Nat.lt_of_lt_of_le hi hcount)
      have hsize := h i _ (hstored i _ hold)
      rw [if_pos (by unfold kMaxPlanes; omega), toInt_getD_ofInt hfits,
        List.getD_eq_getElem _ _ hi, List.getD_eq_getElem _ _ hi'] at hsize
      exact hsize
    · have hzero := h i _ (hstored i size hsize)
      rw [if_neg (by omega), hbehind (hlength ▸ htwo) hi] at hzero
      exact Int32.toInt_inj.mp hzero
  · rintro ⟨rfl, htail⟩ i size hsize
    rw [getElem?_storePlanes] at hsize
    obtain ⟨old, hold, rfl⟩ := Option.map_eq_some_iff.mp hsize
    split_ifs with hi
    · exact toInt_getD_ofInt hfits i
    · rw [hbehind htwo (not_lt.mp hi), htail i old (not_lt.mp hi) hold]
      rfl

/-- **The plane sizes are exact** if no side is odd that is halved, the bytes of each plane are
an `int`, and the array is 0 behind the planes that the encoder has. -/
theorem planesExact_iff (backend : Backend) (e : Encoder) (sizes : List Int32)
    (hwidth : 0 < e.width.toInt) (hheight : 0 < e.height.toInt)
    (htakes : Takes backend e.colorFormat sizes.length) :
    PlanesExact backend e sizes ↔
      (e.width.toInt % 2 = 0 ∧ (IsPacked e.colorFormat ∨ e.height.toInt % 2 = 0)) ∧
      (∀ size ∈ planeBytes e.colorFormat e.width.toInt e.height.toInt, size < 2 ^ 31) ∧
      ∀ (i : ℕ) (size : Int32), kMaxPlanes ≤ i → sizes[i]? = some size → size = 0 := by
  obtain ⟨hformat, hcount⟩ := htakes.format
  have harea := Int.mul_pos hwidth hheight
  have hpos := planeBytes_pos e.colorFormat hwidth hheight
  have hlength := length_planeBytes e.width.toInt e.height.toInt hformat
  have hcode := length_codePlanes e.width.toInt e.height.toInt hformat
  have htwo := getInputPlaneCount_le e.colorFormat
  have hcomputed := @computedPlanes_eq_some_iff e.colorFormat e.width.toInt e.height.toInt
    sizes.length harea hformat hcount
  have hfits (h : ∀ size ∈ codePlanes e.colorFormat e.width.toInt e.height.toInt, size < 2 ^ 31) :
      ∀ size ∈ codePlanes e.colorFormat e.width.toInt e.height.toInt, IsInt32 size :=
    fun size hsize => ⟨by have := codePlanes_nonneg harea size hsize; omega, h size hsize⟩
  rw [← codePlanes_eq_planeBytes_iff hwidth hheight hformat]
  unfold PlanesExact
  rw [setColorBufSize_of_takes hwidth hheight htakes]
  constructor
  · rintro ⟨e', sizes', hset, -, -, -, -, hsizes⟩
    obtain ⟨planes, hplanes, hstore⟩ := Option.map_eq_some_iff.mp hset
    obtain ⟨hlt, rfl⟩ := hcomputed.mp hplanes
    obtain rfl : (e.storePlanes _ sizes).2.2 = sizes' := congrArg (fun r => r.2.2) hstore
    obtain ⟨heq, htail⟩ := (stored_iff (hfits hlt) (hcode.trans hlength.symm) (by omega)
      (by omega)).mp hsizes
    exact ⟨heq, heq ▸ hlt, htail⟩
  · rintro ⟨heq, hlt, htail⟩
    rw [← heq] at hlt
    have hsame : (e.storePlanes ((codePlanes e.colorFormat e.width.toInt e.height.toInt).map
        Int32.ofInt) sizes).2.2.length = sizes.length := List.length_mapIdx
    rw [hcomputed.mpr ⟨hlt, rfl⟩]
    exact ⟨_, _, rfl, hlength, hcount.trans_eq hsame.symm, hsame, hpos,
      (@stored_iff e sizes _ _ (hfits hlt) (hcode.trans hlength.symm) (by omega)
        (by omega)).mpr ⟨heq, htail⟩⟩

end

/-- An encoder for a picture of 1920x1080 in NV12 with two planes. -/
def videoEncoder : Encoder := { newEncoder with width := 1920, height := 1080, colorFormat := kNv12m }

theorem planesExact_iff_video :
    PlanesExact .m2m videoEncoder [0, 0, 7] ↔
      (videoEncoder.width.toInt % 2 = 0 ∧
        (IsPacked videoEncoder.colorFormat ∨ videoEncoder.height.toInt % 2 = 0)) ∧
      (∀ size ∈ planeBytes videoEncoder.colorFormat videoEncoder.width.toInt
        videoEncoder.height.toInt, size < 2 ^ 31) ∧
      ∀ (i : ℕ) (size : Int32), kMaxPlanes ≤ i → ([0, 0, 7] : List Int32)[i]? = some size →
        size = 0 :=
  planesExact_iff .m2m videoEncoder [0, 0, 7] (by decide) (by decide) ⟨by decide, by decide⟩

/-- An encoder for a packed picture of 32768x32768. -/
def largeEncoder : Encoder :=
  { newEncoder with width := 32768, height := 32768, colorFormat := kYuyv }

/-- **The size of the large picture** overflows. -/
theorem planes_overflow : ¬ PlanesExact .m86 largeEncoder [0] := by
  have hnone : setColorBufSize .m86 largeEncoder [0] = none := by decide
  rintro ⟨e', sizes', hset, -⟩
  exact Option.some_ne_none _ (hset.symm.trans hnone)

end Pro5Android.Jpeg
