import Pro5Android.Jpeg.PlaneSizes
import Pro5Android.Jpeg.Stride
import Pro5Android.Lib.Transfer

/-!
# The reads of the input plane

The checks of `encode` in `ExynosJpegEncoderM86.cpp` (lines 296–373) and the bytes that its
loop over the rows reads (lines 413–433). The loop takes two pixels at a time, four bytes, and
so reads two bytes more than the row has if its width is odd; in the last row of a plane that
ends there, they lie behind the input. `size_t` has 32 bits: a plane that is taken to be tight
may have more bytes than that, and then its rows wrap around. libjpeg, which may refuse the
picture or stop before its last row, is not part of this file.

Results:
* `IsPlane.layout_eq`, `exists_isPlane`: the plane that the search takes the input for.
* `rowInBounds_iff`: when the bytes of a row are inside.
* `readsInBounds_iff`: when those of all rows are.
* `odd_width_reads_behind`: a picture of one pixel.
-/

namespace Pro5Android.Jpeg

open Lib

namespace Encoder

variable (e : Encoder)

/-! ## The checks -/

/-- `plane_size`. -/
def planeSize : ℕ := (e.inputSizes 0).toInt.toNat

/-- The state is valid (lines 298–300). -/
def ValidState : Prop :=
  e.created = true ∧ 0 < e.width.toInt ∧ 0 < e.height.toInt ∧ 0 < (e.inputSizes 0).toInt ∧
    e.outputOffset.toInt < e.outputSize.toInt

/-- `needed` (lines 323–324). -/
def needed : ℕ := e.width.toInt.toNat * 2 % 2 ^ 32 * e.height.toInt.toNat % 2 ^ 32

/-- The crop is outside the plane (lines 363–373). -/
def CropOutside : Prop :=
  (0 < e.cropWidth.toInt ∧ 0 < e.cropHeight.toInt) ∧
    (e.layout.inputStride / 2 < e.cropX.toInt.toNat + e.cropWidth.toInt.toNat ∨
      e.layout.allocatedHeight < e.cropY.toInt.toNat + e.cropHeight.toInt.toNat)

instance : Decidable e.ValidState := inferInstanceAs (Decidable (_ ∧ _))

instance : Decidable e.CropOutside := inferInstanceAs (Decidable (_ ∧ _))

/-- The checks of `encode`; whether the buffers can be mapped is not up to the encoder. -/
structure Accepts : Prop where
  state : e.ValidState
  format : IsPacked e.colorFormat
  needed_le : e.needed ≤ e.planeSize
  crop : ¬ e.CropOutside

/-! ## The loop -/

/-- `image_width`. -/
def imageWidth : ℕ :=
  if 0 < e.cropWidth.toInt then e.cropWidth.toInt.toNat else e.width.toInt.toNat

/-- `image_height`. -/
def imageHeight : ℕ :=
  if 0 < e.cropHeight.toInt then e.cropHeight.toInt.toNat else e.height.toInt.toNat

/-- `source` at the start of a row, less `input` (lines 377–379 and 414–415). -/
def source (row : ℕ) : ℕ :=
  e.cropY.toInt.toNat * e.layout.inputStride + e.cropX.toInt.toNat * 2 +
    row * e.layout.inputStride

end Encoder

/-- `x` and `source` at the head of the loop over a row (lines 416–429). -/
def rowSteps (imageWidth x source : ℕ) : List (ℕ × ℕ) :=
  if x < imageWidth then (x, source) :: rowSteps imageWidth (x + 2) (source + 4) else []
termination_by imageWidth - x

namespace Encoder

/-- The offsets of the bytes that a row reads, in the order of the reads. -/
def rowReads (e : Encoder) (row : ℕ) : List ℕ :=
  (rowSteps e.imageWidth 0 (e.source row)).flatMap fun step =>
    (List.range 4).map fun k => (step.2 + k) % 2 ^ 32

/-- Every byte that the loop reads is inside the input. -/
def ReadsInBounds (e : Encoder) : Prop :=
  ∀ row < e.imageHeight, ∀ offset ∈ e.rowReads row, offset < e.planeSize

/-! ## The plane -/

/-- The plane that the input is taken for: its narrowest layout, or else the picture. -/
def IsPlane (e : Encoder) (pixels rows : ℕ) : Prop :=
  (Admissible e.planeSize e.width.toInt.toNat e.height.toInt.toNat e.cropWidth.toInt.toNat
      pixels rows ∧
    ∀ pixels' rows', Admissible e.planeSize e.width.toInt.toNat e.height.toInt.toNat
      e.cropWidth.toInt.toNat pixels' rows' → pixels ≤ pixels') ∨
  ((∀ pixels' rows', ¬ Admissible e.planeSize e.width.toInt.toNat e.height.toInt.toNat
      e.cropWidth.toInt.toNat pixels' rows') ∧
    pixels = e.width.toInt.toNat ∧ rows = e.height.toInt.toNat)

variable {e : Encoder} {pixels rows : ℕ}

theorem Accepts.planeSize_pos (h : e.Accepts) : 0 < e.planeSize :=
  Int.lt_toNat.mpr h.state.2.2.2.1

theorem Accepts.height_pos (h : e.Accepts) : 0 < e.height.toInt.toNat :=
  Int.lt_toNat.mpr h.state.2.2.1

theorem planeSize_lt (e : Encoder) : e.planeSize < 2 ^ 31 := by
  have hlt := (e.inputSizes 0).toInt_lt
  unfold planeSize
  omega

/-- The search finds a plane. -/
theorem exists_isPlane (h : e.Accepts) : ∃ pixels rows, e.IsPlane pixels rows := by
  obtain ⟨hnone, -⟩ | ⟨pixels, rows, hadmissible, -, hmin⟩ :=
    @recoverLayout_cases _ e.width.toInt.toNat _ e.cropWidth.toInt.toNat h.planeSize_pos
      h.height_pos
  · exact ⟨_, _, .inr ⟨hnone, rfl, rfl⟩⟩
  · exact ⟨pixels, rows, .inl ⟨hadmissible, hmin⟩⟩

/-- **The layout** is that of the plane. -/
theorem IsPlane.layout_eq (haccepts : e.Accepts) (h : e.IsPlane pixels rows) :
    e.layout.inputStride = 2 * pixels ∧ e.layout.allocatedHeight = rows := by
  have hpos := haccepts.planeSize_pos
  obtain ⟨hnone, hlayout⟩ | ⟨found, foundRows, hfound, hlayout, hfirst⟩ :=
    @recoverLayout_cases e.planeSize e.width.toInt.toNat e.height.toInt.toNat
      e.cropWidth.toInt.toNat hpos haccepts.height_pos
  all_goals
    unfold layout
    rw [planeSize] at hlayout
    rw [hlayout]
  · obtain ⟨hadmissible, -⟩ | ⟨-, rfl, rfl⟩ := h
    · exact absurd hadmissible (hnone _ _)
    · exact ⟨Nat.mul_comm _ _, rfl⟩
  · obtain ⟨hadmissible, hmin⟩ | ⟨hnone, -⟩ := h
    · obtain rfl : found = pixels := Nat.le_antisymm (hfirst _ _ hadmissible) (hmin _ _ hfound)
      have hsame := hfound.plane.trans hadmissible.plane.symm
      have hrow : 0 < found * 2 := by
        apply Nat.pos_of_ne_zero
        intro hzero
        have := hfound.plane
        rw [hzero, Nat.zero_mul] at this
        omega
      exact ⟨Nat.mul_comm _ _, Nat.eq_of_mul_eq_mul_left hrow hsame⟩
    · exact absurd hfound (hnone _ _)

/-- The picture that is read lies in the plane. -/
theorem IsPlane.image_le (hwf : e.WellFormed) (haccepts : e.Accepts) (h : e.IsPlane pixels rows) :
    e.cropX.toInt.toNat + e.imageWidth ≤ pixels ∧
      e.cropY.toInt.toNat + e.imageHeight ≤ rows := by
  obtain ⟨hstride, hheight⟩ := h.layout_eq haccepts
  unfold imageWidth imageHeight
  obtain ⟨hx, hy, hwidth, hheight'⟩ | ⟨-, -, hwidth, hheight'⟩ := hwf.crop
  · rw [hx, hy, hwidth, hheight', if_neg (by decide), if_neg (by decide),
      show (0 : Int32).toInt.toNat = 0 from rfl, Nat.zero_add, Nat.zero_add]
    obtain ⟨hadmissible, -⟩ | ⟨-, rfl, rfl⟩ := h
    · exact ⟨hadmissible.width_le, hadmissible.height_le⟩
    · exact ⟨le_rfl, le_rfl⟩
  · have hcrop := haccepts.crop
    unfold CropOutside at hcrop
    rw [hstride, hheight] at hcrop
    rw [if_pos hwidth, if_pos hheight']
    omega

theorem Accepts.image_pos (h : e.Accepts) : 0 < e.imageWidth ∧ 0 < e.imageHeight := by
  obtain ⟨-, hwidth, hheight, -⟩ := h.state
  unfold imageWidth imageHeight
  constructor <;> split_ifs <;> omega

/-- A plane that a word counts is inside the input. -/
theorem IsPlane.bytes_le (haccepts : e.Accepts) (h : e.IsPlane pixels rows)
    (hword : 2 * pixels * rows < 2 ^ 32) : 2 * pixels * rows ≤ e.planeSize := by
  obtain ⟨hadmissible, -⟩ | ⟨-, rfl, rfl⟩ := h
  · rw [← hadmissible.plane, Nat.mul_comm pixels 2]
  · have hneeded := haccepts.needed_le
    unfold needed at hneeded
    rwa [Nat.mod_mul_mod, Nat.mul_comm e.width.toInt.toNat 2, Nat.mod_eq_of_lt hword] at hneeded

/-! ## The rows -/

/-- The steps of a row are four bytes apart. -/
theorem mem_rowSteps {imageWidth : ℕ} {step : ℕ × ℕ} :
    ∀ x source : ℕ, step ∈ rowSteps imageWidth x source ↔
      ∃ j, step = (x + 2 * j, source + 4 * j) ∧ x + 2 * j < imageWidth := by
  intro x source
  induction x, source using rowSteps.induct imageWidth with
  | case1 x source hx ih =>
    rw [rowSteps, if_pos hx, List.mem_cons, ih]
    constructor
    · rintro (rfl | ⟨j, rfl, hj⟩)
      · exact ⟨0, rfl, hx⟩
      · refine ⟨j + 1, ?_, by omega⟩
        rw [show x + 2 + 2 * j = x + 2 * (j + 1) by ring,
          show source + 4 + 4 * j = source + 4 * (j + 1) by ring]
    · rintro ⟨j, rfl, hj⟩
      cases j with
      | zero => exact .inl rfl
      | succ j =>
        refine .inr ⟨j, ?_, by omega⟩
        rw [show x + 2 + 2 * j = x + 2 * (j + 1) by ring,
          show source + 4 + 4 * j = source + 4 * (j + 1) by ring]
  | case2 x source hx =>
    rw [rowSteps, if_neg hx]
    refine iff_of_false List.not_mem_nil ?_
    rintro ⟨j, -, hj⟩
    omega

/-- The bytes of a row: its pixels, and one more if their number is odd. -/
def rowBytes (e : Encoder) : ℕ := 4 * ((e.imageWidth + 1) / 2)

theorem mem_rowReads {row offset : ℕ} :
    offset ∈ e.rowReads row ↔ ∃ b < e.rowBytes, (e.source row + b) % 2 ^ 32 = offset := by
  unfold rowReads rowBytes
  rw [List.mem_flatMap]
  constructor
  · rintro ⟨step, hstep, hoffset⟩
    obtain ⟨j, rfl, hj⟩ := (mem_rowSteps _ _).mp hstep
    obtain ⟨k, hk, rfl⟩ := List.mem_map.mp hoffset
    rw [List.mem_range] at hk
    refine ⟨4 * j + k, by omega, ?_⟩
    rw [Nat.add_assoc]
  · rintro ⟨b, hb, rfl⟩
    refine ⟨(0 + 2 * (b / 4), e.source row + 4 * (b / 4)),
      (mem_rowSteps _ _).mpr ⟨b / 4, rfl, by omega⟩, List.mem_map.mpr ⟨b % 4, ?_, ?_⟩⟩
    · exact List.mem_range.mpr (Nat.mod_lt _ (by decide))
    · show (e.source row + 4 * (b / 4) + b % 4) % 2 ^ 32 = (e.source row + b) % 2 ^ 32
      rw [Nat.add_assoc, Nat.div_add_mod]

/-- **A row is inside the input** if it does not reach behind it from where it wraps to. -/
theorem rowInBounds_iff (h : e.Accepts) {row : ℕ} :
    (∀ offset ∈ e.rowReads row, offset < e.planeSize) ↔
      e.source row % 2 ^ 32 + e.rowBytes ≤ e.planeSize := by
  have hword := e.planeSize_lt
  have hpos : 0 < e.rowBytes := by
    have := h.image_pos.1
    unfold rowBytes
    omega
  rw [← row_within_iff _ (by omega) hpos]
  constructor
  · exact fun h b hb => h _ (mem_rowReads.mpr ⟨b, hb, rfl⟩)
  · intro h offset hoffset
    obtain ⟨b, hb, rfl⟩ := mem_rowReads.mp hoffset
    exact h b hb

theorem IsPlane.source_eq (haccepts : e.Accepts) (h : e.IsPlane pixels rows) (row : ℕ) :
    e.source row =
      (e.cropY.toInt.toNat + row) * (2 * pixels) + 2 * e.cropX.toInt.toNat := by
  unfold source
  rw [(h.layout_eq haccepts).1]
  ring

/-! ## All rows -/

/-- The picture has an odd width and ends in the last pixel of the plane, and the input in the
    byte behind it at most. -/
def EndsOdd (e : Encoder) (pixels rows : ℕ) : Prop :=
  e.imageWidth % 2 = 1 ∧ e.cropX.toInt.toNat + e.imageWidth = pixels ∧
    e.cropY.toInt.toNat + e.imageHeight = rows ∧ e.planeSize < 2 * pixels * rows + 2

/-- In a plane that a word counts, the last row is inside if it does not end oddly. -/
theorem IsPlane.last_le_iff (hwf : e.WellFormed) (haccepts : e.Accepts)
    (h : e.IsPlane pixels rows) (hword : 2 * pixels * rows < 2 ^ 32) :
    (e.cropY.toInt.toNat + (e.imageHeight - 1)) * (2 * pixels) + 2 * e.cropX.toInt.toNat +
        e.rowBytes ≤ e.planeSize ↔ ¬ e.EndsOdd pixels rows := by
  obtain ⟨hx, hy⟩ := h.image_le hwf haccepts
  obtain ⟨hwidth, hheight⟩ := haccepts.image_pos
  have hbytes := h.bytes_le haccepts hword
  have hlast : (e.cropY.toInt.toNat + (e.imageHeight - 1)) * (2 * pixels) + 2 * pixels =
      (e.cropY.toInt.toNat + e.imageHeight) * (2 * pixels) := by
    rw [← Nat.succ_mul]
    congr 1
    omega
  have hrows : (e.cropY.toInt.toNat + e.imageHeight) * (2 * pixels) ≤ 2 * pixels * rows := by
    rw [Nat.mul_comm (2 * pixels) rows]
    exact Nat.mul_le_mul_right _ hy
  unfold EndsOdd rowBytes
  by_cases hbottom : e.cropY.toInt.toNat + e.imageHeight = rows
  · rw [hbottom, Nat.mul_comm rows] at hlast
    omega
  · have habove : (e.cropY.toInt.toNat + e.imageHeight) * (2 * pixels) + 2 * pixels ≤
        2 * pixels * rows := by
      rw [← Nat.succ_mul, Nat.mul_comm (2 * pixels) rows]
      exact Nat.mul_le_mul_right _ (by omega)
    omega

/-- The loop reads inside the input if every row does. -/
theorem IsPlane.reads_iff (haccepts : e.Accepts) (h : e.IsPlane pixels rows) :
    e.ReadsInBounds ↔ ∀ row < e.imageHeight,
      ((e.cropY.toInt.toNat + row) * (2 * pixels) + 2 * e.cropX.toInt.toNat) % 2 ^ 32 +
        e.rowBytes ≤ e.planeSize := by
  unfold ReadsInBounds
  simp only [rowInBounds_iff haccepts, h.source_eq haccepts]

/-- In a plane that a word counts, nothing wraps around, and the last row is the one that may
    reach behind the input. -/
theorem IsPlane.reads_iff_of_lt (hwf : e.WellFormed) (haccepts : e.Accepts)
    (h : e.IsPlane pixels rows) (hword : 2 * pixels * rows < 2 ^ 32) :
    e.ReadsInBounds ↔ ¬ e.EndsOdd pixels rows := by
  obtain ⟨hx, hy⟩ := h.image_le hwf haccepts
  obtain ⟨hwidth, hheight⟩ := haccepts.image_pos
  have hstart {row : ℕ} (hrow : row < e.imageHeight) :
      (e.cropY.toInt.toNat + row) * (2 * pixels) + 2 * e.cropX.toInt.toNat < 2 * pixels * rows := by
    have hle : (e.cropY.toInt.toNat + row + 1) * (2 * pixels) ≤ 2 * pixels * rows := by
      rw [Nat.mul_comm (2 * pixels) rows]
      exact Nat.mul_le_mul_right _ (by omega)
    rw [Nat.succ_mul] at hle
    omega
  rw [h.reads_iff haccepts, ← h.last_le_iff hwf haccepts hword]
  constructor
  · intro hall
    have hlast := hall (e.imageHeight - 1) (by omega)
    rwa [Nat.mod_eq_of_lt ((hstart (by omega)).trans hword)] at hlast
  · intro hlast row hrow
    have hle : (e.cropY.toInt.toNat + row) * (2 * pixels) ≤
        (e.cropY.toInt.toNat + (e.imageHeight - 1)) * (2 * pixels) :=
      Nat.mul_le_mul_right _ (by omega)
    rw [Nat.mod_eq_of_lt ((hstart hrow).trans hword)]
    omega

/-- **The loop reads inside the input** if, in a plane that a word counts, the picture does not
end oddly in its last pixel, and in a larger one no row reaches behind the input from where it
wraps to. -/
theorem readsInBounds_iff (e : Encoder) (hwf : e.WellFormed) (haccepts : e.Accepts) :
    e.ReadsInBounds ↔
      ∀ pixels rows, e.IsPlane pixels rows →
        (2 * pixels * rows < 2 ^ 32 → ¬ e.EndsOdd pixels rows) ∧
        (2 ^ 32 ≤ 2 * pixels * rows → ∀ row < e.imageHeight,
          ((e.cropY.toInt.toNat + row) * (2 * pixels) + 2 * e.cropX.toInt.toNat) % 2 ^ 32 +
            e.rowBytes ≤ e.planeSize) := by
  constructor
  · intro hbounds pixels rows h
    exact ⟨fun hword => (h.reads_iff_of_lt hwf haccepts hword).mp hbounds,
      fun _ => (h.reads_iff haccepts).mp hbounds⟩
  · intro hcondition
    obtain ⟨pixels, rows, h⟩ := exists_isPlane haccepts
    obtain ⟨hsmall, hlarge⟩ := hcondition pixels rows h
    obtain hword | hword := Nat.lt_or_ge (2 * pixels * rows) (2 ^ 32)
    · exact (h.reads_iff_of_lt hwf haccepts hword).mpr (hsmall hword)
    · exact (h.reads_iff haccepts).mpr (hlarge hword)

theorem readsInBounds_iff_front :
    frontEncoder.ReadsInBounds ↔
      ∀ pixels rows, frontEncoder.IsPlane pixels rows →
        (2 * pixels * rows < 2 ^ 32 → ¬ frontEncoder.EndsOdd pixels rows) ∧
        (2 ^ 32 ≤ 2 * pixels * rows → ∀ row < frontEncoder.imageHeight,
          ((frontEncoder.cropY.toInt.toNat + row) * (2 * pixels) +
            2 * frontEncoder.cropX.toInt.toNat) % 2 ^ 32 + frontEncoder.rowBytes ≤
              frontEncoder.planeSize) :=
  readsInBounds_iff frontEncoder ⟨.inr (by decide), .inl (by decide), by decide⟩
    ⟨by decide, by decide, by decide, fun h => absurd h.1.1 (by decide)⟩

/-- An encoder for a picture of one pixel, with the two bytes that `setColorBufSize` asks for. -/
def pixelEncoder : Encoder :=
  { newEncoder with
    created := true, width := 1, height := 1, colorFormat := kYuyv
    inputSizes := fun i => if i = 0 then 2 else 0, outputSize := 1024 }

/-- **The one pixel** is read with the two bytes behind it. -/
theorem odd_width_reads_behind :
    pixelEncoder.WellFormed ∧ pixelEncoder.Accepts ∧ ¬ pixelEncoder.ReadsInBounds := by
  have haccepts : pixelEncoder.Accepts :=
    ⟨by decide, by decide, by decide, fun h => absurd h.1.1 (by decide)⟩
  refine ⟨⟨.inr (by decide), .inl (by decide), by decide⟩, haccepts, fun h => ?_⟩
  have hrow := (rowInBounds_iff haccepts).mp (h 0 (by decide))
  have hbytes : pixelEncoder.planeSize < pixelEncoder.rowBytes := by decide
  omega

end Encoder

end Pro5Android.Jpeg
