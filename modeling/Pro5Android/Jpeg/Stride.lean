import Pro5Android.Jpeg.Encoder
import Mathlib.Algebra.Order.Group.Nat
import Mathlib.Tactic.NormNum
import Mathlib.Tactic.Ring

/-!
# The row stride of the input plane

`ExynosJpegEncoderM86.cpp` is told the size of the plane and not its layout, and looks for
the layout with the least padding in a row (lines 323–361): a number of rows up to 8192 that
divides the plane into rows of an even number of bytes, for a multiple of 16 pixels, wide
enough for the picture and the crop. More rows mean shorter ones, so the last number of rows
that is found wins. `size_t` has 32 bits, and nothing in the search reaches them.

Results:
* `recoverLayout_cases`: the search finds the narrowest layout, if there is one.
* `inputStride_eq_iff`: for which allocations that is the stride.
* `stride_recovered_iff`: the same of the encoder.
* `front_stride_lost`: an allocation of the other kind.
-/

namespace Pro5Android.Jpeg

/-! ## The search -/

/-- `input_stride`, `allocated_height` and `best_width_padding`. -/
structure Layout where
  inputStride : ℕ
  allocatedHeight : ℕ
  bestWidthPadding : ℕ
  deriving DecidableEq

/-- `SIZE_MAX`. -/
def sizeMax : ℕ := 2 ^ 32 - 1

/-- The body of the loop (lines 343–359). -/
def layoutStep (planeSize tightStride cropStride width : ℕ) (s : Layout) (candidateHeight : ℕ) :
    Layout :=
  if planeSize % candidateHeight ≠ 0 then s
  else
    let candidateStride := planeSize / candidateHeight
    if candidateStride % 2 ≠ 0 ∨ candidateStride < max tightStride cropStride then s
    else
      let candidateWidth := candidateStride / 2
      if candidateWidth % 16 ≠ 0 ∨ candidateWidth > width + 1024 then s
      else
        let widthPadding := candidateWidth - width
        if widthPadding < s.bestWidthPadding ∨
            (widthPadding = s.bestWidthPadding ∧ candidateHeight < s.allocatedHeight) then
          ⟨candidateStride, candidateHeight, widthPadding⟩
        else s

/-- `crop_stride` (lines 329–330). -/
def cropStride (width cropWidth : ℕ) : ℕ := if cropWidth > 0 then cropWidth * 2 else width * 2

/-- The search (lines 323–361). -/
def recoverLayout (planeSize width height cropWidth : ℕ) : Layout :=
  (List.range' height (8193 - height)).foldl
    (layoutStep planeSize (width * 2) (cropStride width cropWidth) width)
    ⟨width * 2, height, sizeMax⟩

/-! ## The narrowest layout -/

/-- A layout of the plane that the search takes: rows of so many pixels, and so many rows. -/
structure Admissible (planeSize width height cropWidth pixels rows : ℕ) : Prop where
  plane : pixels * 2 * rows = planeSize
  aligned : pixels % 16 = 0
  width_le : width ≤ pixels
  crop_le : cropWidth ≤ pixels
  le_width : pixels ≤ width + 1024
  height_le : height ≤ rows
  rows_le : rows ≤ 8192

section

variable {planeSize width height cropWidth pixels rows : ℕ} {s : Layout}

/-- A number of rows without a layout is passed over. -/
theorem layoutStep_of_not (hrows : height ≤ rows ∧ rows ≤ 8192)
    (h : ∀ pixels, ¬ Admissible planeSize width height cropWidth pixels rows) :
    layoutStep planeSize (width * 2) (cropStride width cropWidth) width s rows = s := by
  unfold layoutStep
  by_cases hdvd : planeSize % rows ≠ 0
  · rw [if_pos hdvd]
  · rw [if_neg hdvd]
    dsimp only
    have hplane : planeSize / rows * rows = planeSize :=
      Nat.div_mul_cancel (Nat.dvd_of_mod_eq_zero (not_not.mp hdvd))
    by_cases hstride : planeSize / rows % 2 ≠ 0 ∨
        planeSize / rows < max (width * 2) (cropStride width cropWidth)
    · rw [if_pos hstride]
    · rw [if_neg hstride]
      by_cases hpixels : planeSize / rows / 2 % 16 ≠ 0 ∨ planeSize / rows / 2 > width + 1024
      · rw [if_pos hpixels]
      · refine absurd ?_ (h (planeSize / rows / 2))
        have heven : planeSize / rows / 2 * 2 = planeSize / rows := by omega
        have hcrop : cropWidth * 2 ≤ max (width * 2) (cropStride width cropWidth) := by
          unfold cropStride
          split_ifs <;> omega
        refine ⟨by rw [heven, hplane], by omega, by omega, by omega, by omega, hrows.1, hrows.2⟩

/-- A number of rows with a layout takes the place of a wider one. -/
theorem layoutStep_of_admissible (hpos : 0 < rows)
    (h : Admissible planeSize width height cropWidth pixels rows)
    (hbest : pixels - width < s.bestWidthPadding) :
    layoutStep planeSize (width * 2) (cropStride width cropWidth) width s rows =
      ⟨pixels * 2, rows, pixels - width⟩ := by
  have hdvd : ¬ planeSize % rows ≠ 0 := by
    rw [← h.plane, Nat.mul_mod_left]
    exact not_not_intro rfl
  have hstride : planeSize / rows = pixels * 2 := by
    rw [← h.plane, Nat.mul_div_cancel _ hpos]
  have hcrop : max (width * 2) (cropStride width cropWidth) ≤ pixels * 2 := by
    have hwidth := h.width_le
    have hcropWidth := h.crop_le
    unfold cropStride
    split_ifs <;> omega
  have haligned := h.aligned
  have hle := h.le_width
  unfold layoutStep
  rw [if_neg hdvd, hstride]
  dsimp only
  rw [if_neg (by omega), Nat.mul_div_cancel _ (by decide : 0 < 2), if_neg (by omega),
    if_pos (.inl hbest)]

/-- More rows are shorter. -/
theorem Admissible.pixels_lt {pixels' rows' : ℕ} (hpos : 0 < planeSize)
    (h : Admissible planeSize width height cropWidth pixels rows)
    (h' : Admissible planeSize width height cropWidth pixels' rows') (hlt : rows < rows') :
    pixels' < pixels := by
  by_contra hge
  have hplane := h.plane.trans h'.plane.symm
  have hpixels : 0 < pixels' := by
    apply Nat.pos_of_ne_zero
    rintro rfl
    have := h'.plane
    omega
  have hle : pixels * 2 * rows ≤ pixels' * 2 * rows := Nat.mul_le_mul_right _ (by omega)
  have hmore : pixels' * 2 * rows < pixels' * 2 * rows' := Nat.mul_lt_mul_of_pos_left hlt (by omega)
  omega

/-- What the search knows of the numbers of rows below `k`. -/
def Narrowest (planeSize width height cropWidth k : ℕ) (s : Layout) : Prop :=
  ((∀ pixels rows, rows < k → ¬ Admissible planeSize width height cropWidth pixels rows) ∧
    s = ⟨width * 2, height, sizeMax⟩) ∨
  ∃ pixels rows, rows < k ∧ Admissible planeSize width height cropWidth pixels rows ∧
    s = ⟨pixels * 2, rows, pixels - width⟩ ∧
    ∀ pixels' rows', rows' < k → Admissible planeSize width height cropWidth pixels' rows' →
      pixels ≤ pixels'

/-- **One number of rows** more. -/
theorem narrowest_step (hplane : 0 < planeSize) (hheight : 0 < height) {k : ℕ}
    (hk : height ≤ k ∧ k ≤ 8192) (h : Narrowest planeSize width height cropWidth k s) :
    Narrowest planeSize width height cropWidth (k + 1)
      (layoutStep planeSize (width * 2) (cropStride width cropWidth) width s k) := by
  by_cases hsome : ∃ pixels, Admissible planeSize width height cropWidth pixels k
  · obtain ⟨pixels, hadmissible⟩ := hsome
    have hbest : pixels - width < s.bestWidthPadding := by
      obtain ⟨-, rfl⟩ | ⟨pixels', rows', hlt, hadmissible', rfl, -⟩ := h
      · have hle := hadmissible.le_width
        show pixels - width < sizeMax
        unfold sizeMax
        omega
      · have hless := hadmissible'.pixels_lt hplane hadmissible hlt
        have hwidth := hadmissible.width_le
        show pixels - width < pixels' - width
        omega
    rw [layoutStep_of_admissible (by omega) hadmissible hbest]
    refine .inr ⟨pixels, k, Nat.lt_succ_self k, hadmissible, rfl, fun pixels' rows' hlt h' => ?_⟩
    obtain hlt | rfl := Nat.lt_succ_iff_lt_or_eq.mp hlt
    · exact (h'.pixels_lt hplane hadmissible hlt).le
    · have hsame := hadmissible.plane.trans h'.plane.symm
      have heq := Nat.eq_of_mul_eq_mul_right (by omega) hsame
      omega
  · have hnone : ∀ pixels, ¬ Admissible planeSize width height cropWidth pixels k :=
      not_exists.mp hsome
    rw [layoutStep_of_not hk hnone]
    obtain ⟨hall, rfl⟩ | ⟨pixels, rows, hlt, hadmissible, rfl, hmin⟩ := h
    · refine .inl ⟨fun pixels rows hlt hadmissible => ?_, rfl⟩
      obtain hlt | rfl := Nat.lt_succ_iff_lt_or_eq.mp hlt
      · exact hall pixels rows hlt hadmissible
      · exact hnone pixels hadmissible
    · refine .inr ⟨pixels, rows, Nat.lt_succ_of_lt hlt, hadmissible, rfl,
        fun pixels' rows' hlt' h' => ?_⟩
      obtain hlt' | rfl := Nat.lt_succ_iff_lt_or_eq.mp hlt'
      · exact hmin pixels' rows' hlt' h'
      · exact absurd h' (hnone pixels')

/-- **The loop**, by induction on the numbers of rows. -/
theorem narrowest_loop (hplane : 0 < planeSize) (hheight : 0 < height) (n : ℕ) :
    ∀ (k : ℕ) (s : Layout), height ≤ k → k + n ≤ 8193 →
      Narrowest planeSize width height cropWidth k s →
      Narrowest planeSize width height cropWidth (k + n)
        ((List.range' k n).foldl
          (layoutStep planeSize (width * 2) (cropStride width cropWidth) width) s) := by
  induction n with
  | zero => exact fun k s _ _ h => h
  | succ n ih =>
    intro k s hk hn h
    rw [List.range'_succ, List.foldl_cons, Nat.add_comm n 1, ← Nat.add_assoc]
    exact ih (k + 1) _ (by omega) (by omega) (narrowest_step hplane hheight ⟨hk, by omega⟩ h)

/-- **The search** finds the narrowest layout, or takes the rows to be tight. -/
theorem recoverLayout_cases (hplane : 0 < planeSize) (hheight : 0 < height) :
    ((∀ pixels rows, ¬ Admissible planeSize width height cropWidth pixels rows) ∧
      recoverLayout planeSize width height cropWidth = ⟨width * 2, height, sizeMax⟩) ∨
    ∃ pixels rows, Admissible planeSize width height cropWidth pixels rows ∧
      recoverLayout planeSize width height cropWidth = ⟨pixels * 2, rows, pixels - width⟩ ∧
      ∀ pixels' rows', Admissible planeSize width height cropWidth pixels' rows' →
        pixels ≤ pixels' := by
  have hinitial : Narrowest planeSize width height cropWidth height
      ⟨width * 2, height, sizeMax⟩ :=
    .inl ⟨fun pixels rows hlt hadmissible => absurd hadmissible.height_le (by omega), rfl⟩
  unfold recoverLayout
  by_cases hhigh : height ≤ 8192
  · have hloop := narrowest_loop hplane hheight (8193 - height) height _ le_rfl (by omega) hinitial
    rw [show height + (8193 - height) = 8193 by omega] at hloop
    obtain ⟨hnone, hs⟩ | ⟨pixels, rows, -, hadmissible, hs, hmin⟩ := hloop
    · refine .inl ⟨fun pixels rows hadmissible => ?_, hs⟩
      exact hnone pixels rows (Nat.lt_succ_of_le hadmissible.rows_le) hadmissible
    · exact .inr ⟨pixels, rows, hadmissible, hs, fun pixels' rows' h' =>
        hmin pixels' rows' (Nat.lt_succ_of_le h'.rows_le) h'⟩
  · rw [Nat.sub_eq_zero_of_le (by omega), List.range'_zero]
    refine .inl ⟨fun pixels rows hadmissible => ?_, rfl⟩
    have hle := hadmissible.height_le
    have hrows := hadmissible.rows_le
    omega

/-- **The stride of an allocation** is found if no narrower row, with more rows, makes up the
same plane. -/
theorem inputStride_eq_iff (hwidth : 0 < width) (hheight : 0 < height) (haligned : pixels % 16 = 0)
    (hpixels : width ≤ pixels ∧ pixels ≤ width + 1024) (hrows : height ≤ rows ∧ rows ≤ 8192) :
    (recoverLayout (2 * pixels * rows) width height 0).inputStride = 2 * pixels ↔
      ∀ pixels' rows', pixels' * rows' = pixels * rows → pixels' % 16 = 0 → width ≤ pixels' →
        rows' ≤ 8192 → pixels ≤ pixels' := by
  have hplane (pixels' rows' : ℕ) :
      pixels' * 2 * rows' = 2 * pixels * rows ↔ pixels' * rows' = pixels * rows := by
    rw [show pixels' * 2 * rows' = 2 * (pixels' * rows') by ring,
      show 2 * pixels * rows = 2 * (pixels * rows) by ring]
    omega
  have hallocated : Admissible (2 * pixels * rows) width height 0 pixels rows :=
    ⟨(hplane _ _).mpr rfl, haligned, hpixels.1, Nat.zero_le _, hpixels.2, hrows.1, hrows.2⟩
  have hpos : 0 < 2 * pixels * rows := Nat.mul_pos (by omega) (by omega)
  obtain ⟨hnone, -⟩ | ⟨found, foundRows, hfound, hlayout, hmin⟩ :=
    @recoverLayout_cases _ width height 0 hpos hheight
  · exact absurd hallocated (hnone _ _)
  · rw [hlayout]
    show found * 2 = 2 * pixels ↔ _
    constructor
    · intro hsame pixels' rows' harea haligned' hwidth' hrows'
      obtain rfl : found = pixels := by omega
      by_contra hlt
      have hmore : rows ≤ rows' := by
        by_contra hfewer
        have hless : pixels' * rows' < found * rows := Nat.mul_lt_mul'' (by omega) (by omega)
        omega
      have hnarrow : Admissible (2 * found * rows) width height 0 pixels' rows' :=
        ⟨(hplane _ _).mpr harea, haligned', hwidth', Nat.zero_le _, by omega, by omega, hrows'⟩
      exact hlt (hmin _ _ hnarrow)
    · intro hnarrowest
      have hle := hnarrowest found foundRows ((hplane _ _).mp hfound.plane) hfound.aligned
        hfound.width_le hfound.rows_le
      have hge := hmin _ _ hallocated
      omega

end

/-! ## The encoder -/

/-- `input_stride` and `allocated_height` of `encode`. -/
def Encoder.layout (e : Encoder) : Layout :=
  recoverLayout (e.inputSizes 0).toInt.toNat e.width.toInt.toNat e.height.toInt.toNat
    e.cropWidth.toInt.toNat

/-- **The encoder without a crop** finds the stride of an allocation if no narrower row makes up
the plane: a multiple of 16 pixels that the picture fits in, with at most 8192 rows. -/
theorem stride_recovered_iff (e : Encoder) (pixels rows : ℕ) (hsize : 0 < e.width.toInt ∧
    0 < e.height.toInt) (hcrop : e.cropWidth = 0 ∧ e.cropHeight = 0) (haligned : pixels % 16 = 0)
    (hpixels : e.width.toInt ≤ pixels ∧ pixels ≤ e.width.toInt + 1024)
    (hrows : e.height.toInt ≤ rows ∧ rows ≤ 8192)
    (hplane : (e.inputSizes 0).toInt = 2 * pixels * rows) :
    e.layout.inputStride = 2 * pixels ↔
      ∀ pixels' rows' : ℕ, pixels' * rows' = pixels * rows → pixels' % 16 = 0 →
        e.width.toInt ≤ pixels' → rows' ≤ 8192 → pixels ≤ pixels' := by
  have hnat : (e.inputSizes 0).toInt.toNat = 2 * pixels * rows := by
    rw [hplane]
    exact Int.toNat_natCast (2 * pixels * rows)
  have hnocrop : e.cropWidth.toInt.toNat = 0 := by
    rw [hcrop.1]
    rfl
  unfold Encoder.layout
  rw [hnat, hnocrop, inputStride_eq_iff (by omega) (by omega) haligned (by omega) (by omega)]
  simp only [Int.toNat_le]

/-- An encoder for a picture of 1920x1080 in a plane of 2592x1944 pixels. -/
def frontEncoder : Encoder :=
  { newEncoder with
    created := true, width := 1920, height := 1080, colorFormat := kYuyv
    inputSizes := fun _ => 10077696, outputSize := 10077696 }

theorem stride_recovered_iff_front :
    frontEncoder.layout.inputStride = 2 * 2592 ↔
      ∀ pixels' rows' : ℕ, pixels' * rows' = 2592 * 1944 → pixels' % 16 = 0 →
        frontEncoder.width.toInt ≤ pixels' → rows' ≤ 8192 → 2592 ≤ pixels' :=
  stride_recovered_iff frontEncoder 2592 1944 (by decide) (by decide) (by decide) (by decide)
    (by decide) (by decide)

/-- **The plane of the front camera** also has 2187 rows of 2304 pixels, and the rows are taken
to be at most that long. -/
theorem front_stride_lost :
    (0 < frontEncoder.width.toInt ∧ 0 < frontEncoder.height.toInt) ∧
      (frontEncoder.cropWidth = 0 ∧ frontEncoder.cropHeight = 0) ∧ 2592 % 16 = 0 ∧
      (frontEncoder.width.toInt ≤ 2592 ∧ 2592 ≤ frontEncoder.width.toInt + 1024) ∧
      (frontEncoder.height.toInt ≤ 1944 ∧ 1944 ≤ 8192) ∧
      (frontEncoder.inputSizes 0).toInt = 2 * 2592 * 1944 ∧
      frontEncoder.layout.inputStride ≠ 2 * 2592 := by
  refine ⟨by decide, by decide, by decide, by decide, by decide, by decide, fun hstride => ?_⟩
  have hwidth : 0 < 1920 ∧ 0 < 1080 := by decide
  have hallocated := (@inputStride_eq_iff 1920 1080 2592 1944 hwidth.1 hwidth.2 (by decide)
    (by decide) (by decide)).mp hstride
  exact absurd (hallocated 2304 2187 (by decide) (by decide) (by decide) (by decide)) (by decide)

end Pro5Android.Jpeg
