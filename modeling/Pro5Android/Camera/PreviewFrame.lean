import Pro5Android.Camera.Relay

/-!
# The copy of a preview frame

`m86_data_cb` of `camera_m86_module.cpp` (lines 1261–1306) hands a frame of the engine
to the copy. Its check allows for a chroma plane of `width * height / 2` bytes, computed
modulo `2^32`; the copy reads `width * ((height + 1) / 2)`.

The request in hand is one of the preview stream, so the size of its stream is the
configured one, which may be any: `m86_device_configure_streams` does not look at it.

What counts of a copy is what the locked buffer has in the end. A handle says where its
planes are, and none of the checks keeps them apart: a row of one may be written over a
row of the other.

Results:
* `Faithful.exists_move`: where a byte that has arrived comes from.
* `dataCb_reads_outside`: a frame that is read past its end.
* `faithful_iff`: the frames that are copied faithfully.
-/

namespace Pro5Android.Camera

open Lib

/-- `m86_camera_memory`, what is read of it. -/
structure CameraMemory where
  data : ℕ
  bufferSize : BitVec 32
  numBuffers : BitVec 32

/-- `source_size`. -/
def sourceSize (width height : ℤ) : ℕ := toSize width * toSize height % word * 3 % word / 2

/-- `src`: the address of a frame. -/
def CameraMemory.frame (memory : CameraMemory) (index : BitVec 32) : ℕ :=
  memory.data + index.toNat * memory.bufferSize.toNat % word

/-- The planes that the engine's frame is taken to have. -/
def frameLayout (frame : ℕ) (width height : ℤ) : Layout :=
  ⟨frame, frame + toSize width * toSize height % word, width, width, true⟩

/-- `m86_data_cb` on a preview frame, with a request of a stream of the size `width` times
    `height` in hand: what is copied, and the result of the request. -/
def dataCb (memory : CameraMemory) (index width height : BitVec 32) (dst : Destination) :
    Option Copied × Bool :=
  if index.toNat ≥ memory.numBuffers.toNat then (none, false)
  else if memory.bufferSize.toNat < sourceSize width.toInt height.toInt then (none, false)
  else copyPreviewToStream (frameLayout (memory.frame index) width.toInt height.toInt) width height
    dst

/-- A byte of the engine's memory or of the locked buffer, which are two mappings. -/
inductive Cell
  | engine (address : ℕ)
  | buffer (address : ℕ)
  deriving DecidableEq

/-- The assignments of a copy, from the engine's memory to the locked buffer. -/
def Copied.assignments (copied : Copied) (src : Layout) : List (Transfer Cell) :=
  copied.moves.map fun move =>
    ⟨.buffer (copied.layout.address move.plane move.row move.column),
      .engine (src.address move.plane move.row move.source)⟩

/-- The rows of a plane that can be seen; those of the chroma plane are rounded up. -/
def pictureRows (height : BitVec 32) : Plane → ℕ
  | .luma => height.toNat
  | .chroma => (height.toNat + 1) / 2

/-- Where a frame has the byte that belongs at a row and column of a plane, in the order of
    the frame or in the other one. -/
def position (width height : BitVec 32) (same : Bool) : Plane → ℕ → ℕ → ℕ
  | .luma, row, column => row * width.toNat + column
  | .chroma, row, column => width.toNat * height.toNat + row * width.toNat +
      if same then column else partner column

theorem pictureRows_luma (height : BitVec 32) : pictureRows height .luma = height.toNat := rfl

theorem pictureRows_chroma (height : BitVec 32) :
    pictureRows height .chroma = (height.toNat + 1) / 2 := rfl

theorem position_luma (width height : BitVec 32) (same : Bool) (row column : ℕ) :
    position width height same .luma row column = row * width.toNat + column := rfl

theorem position_chroma (width height : BitVec 32) (same : Bool) (row column : ℕ) :
    position width height same .chroma row column = width.toNat * height.toNat +
      row * width.toNat + if same then column else partner column := rfl

/-- The copy reads inside the frame, and in the end every visible byte of the destination
    is the byte at its position in the frame, or its pair where the orders differ, whatever
    the two memories had in them. -/
structure Faithful (memory : CameraMemory) (index width height : BitVec 32) (copied : Copied) :
    Prop where
  inside : ∀ move ∈ copied.moves,
    let source := (frameLayout (memory.frame index) width.toInt height.toInt).address move.plane
      move.row move.source
    memory.frame index ≤ source ∧ source < memory.frame index + memory.bufferSize.toNat
  arrives : ∀ (contents : Cell → BitVec 8) (plane : Plane), ∀ row < pictureRows height plane,
    ∀ column < width.toNat,
      transferAll contents
          (copied.assignments (frameLayout (memory.frame index) width.toInt height.toInt))
          (.buffer (copied.layout.address plane row column)) =
        contents (.engine (memory.frame index +
          position width height copied.layout.isNv21 plane row column))

/-- No two visible bytes of a layout have the same address. -/
def Layout.Distinct (l : Layout) (width height : BitVec 32) : Prop :=
  ∀ plane, ∀ row < pictureRows height plane, ∀ column < width.toNat,
    ∀ plane', ∀ row' < pictureRows height plane', ∀ column' < width.toNat,
      l.address plane row column = l.address plane' row' column' →
        plane = plane' ∧ row = row' ∧ column = column'

/-- The handle and the planes of the lock give every visible byte its own address. -/
def Destination.Distinct (dst : Destination) (width height : BitVec 32) : Prop :=
  ∀ hnd planes layout, dst.handle = some hnd → dst.lock = some planes →
    destinationLayout hnd planes width.toInt height.toInt = some layout →
      layout.Distinct width height

/-- Whether the destination has the order of the frame. -/
def Destination.isNv21 (dst : Destination) : Bool := dst.handle.any fun hnd => hnd.format.isNv21

section

variable {memory : CameraMemory} {index width height : BitVec 32} {dst : Destination}
  {copied : Copied} {answer : Bool}

theorem copyPreviewToStream_eq {src : Layout}
    (h : copyPreviewToStream src width height dst = (some copied, answer)) :
    copied.moves = moves width.toInt height.toInt (dst.isNv21 == src.isNv21) ∧
      copied.layout.isNv21 = dst.isNv21 ∧
      (copied.layout.Distinct width height ↔ dst.Distinct width height) := by
  obtain ⟨hadmitted, hmoves⟩ := copyPreviewToStream_eq_some h
  obtain ⟨hnd, planes, hhandle, hlock, hlayout, -⟩ := admitted_eq_some hadmitted
  have horder : copied.layout.isNv21 = dst.isNv21 := by
    unfold Destination.isNv21
    rw [isNv21_destinationLayout hlayout, hhandle]
    rfl
  refine ⟨by rw [← horder, hmoves], horder, ?_,
    fun hdistinct => hdistinct hnd planes _ hhandle hlock hlayout⟩
  intro hdistinct hnd' planes' layout' hhandle' hlock' hlayout'
  obtain rfl := Option.some.inj (hhandle'.symm.trans hhandle)
  obtain rfl := Option.some.inj (hlock'.symm.trans hlock)
  obtain rfl := Option.some.inj (hlayout'.symm.trans hlayout)
  exact hdistinct

theorem dataCb_eq (h : dataCb memory index width height dst = (some copied, answer)) :
    copied.moves = moves width.toInt height.toInt dst.isNv21 ∧
      copied.layout.isNv21 = dst.isNv21 ∧
      (copied.layout.Distinct width height ↔ dst.Distinct width height) := by
  unfold dataCb at h
  split_ifs at h
  · cases h
  · cases h
  · obtain ⟨hmoves, horder, hdistinct⟩ := copyPreviewToStream_eq h
    refine ⟨hmoves.trans ?_, horder, hdistinct⟩
    cases dst.isNv21 <;> rfl

theorem toSize_stride (frame : ℕ) (width height : BitVec 32) (plane : Plane) :
    toSize ((frameLayout frame width.toInt height.toInt).stride plane) = width.toNat := by
  cases plane <;> exact toSize_toInt width

theorem base_luma (frame : ℕ) (width height : BitVec 32) :
    (frameLayout frame width.toInt height.toInt).base .luma = frame + 0 := rfl

theorem base_chroma (frame : ℕ) (width height : BitVec 32) :
    (frameLayout frame width.toInt height.toInt).base .chroma =
      frame + width.toNat * height.toNat % word := by
  show frame + toSize width.toInt * toSize height.toInt % word = _
  rw [toSize_toInt, toSize_toInt]

theorem rowsOf_luma (height : BitVec 32) :
    rowsOf height.toInt .luma = if height.toNat < 2 ^ 31 then height.toNat else 0 :=
  toNat_toInt height

theorem rowsOf_chroma (height : BitVec 32) :
    rowsOf height.toInt .chroma =
      if height.toNat + 1 < 2 ^ 31 then (height.toNat + 1) / 2 else 0 :=
  chromaHeight_toInt height

theorem columnsOf_luma (width : BitVec 32) (same : Bool) :
    columnsOf width.toInt same .luma = width.toNat :=
  toSize_toInt width

theorem columnsOf_chroma (width : BitVec 32) (same : Bool) :
    columnsOf width.toInt same .chroma = if same then width.toNat
      else 2 * ((if width.toNat < 2 ^ 31 then width.toNat else 0) / 2) := by
  show (if same then toSize width.toInt else 2 * (width.toInt.toNat / 2)) = _
  rw [toSize_toInt, toNat_toInt]

/-- A byte of a frame has one position. -/
theorem position_injective {same : Bool} (hsame : same = true ∨ width.toNat % 2 = 0)
    {plane plane' : Plane} {row row' column column' : ℕ} (hrow : row < pictureRows height plane)
    (hcolumn : column < width.toNat) (hrow' : row' < pictureRows height plane')
    (hcolumn' : column' < width.toNat)
    (h : position width height same plane row column =
      position width height same plane' row' column') :
    plane = plane' ∧ row = row' ∧ column = column' := by
  have hluma {row column : ℕ} (hrow : row < height.toNat) (hcolumn : column < width.toNat) :
      row * width.toNat + column < width.toNat * height.toNat := by
    have hsucc : (row + 1) * width.toNat ≤ height.toNat * width.toNat :=
      Nat.mul_le_mul_right _ hrow
    rw [Nat.add_mul, Nat.one_mul] at hsucc
    rw [Nat.mul_comm width.toNat]
    omega
  have hpair {column : ℕ} (hcolumn : column < width.toNat) :
      (if same then column else partner column) < width.toNat := by
    unfold partner
    split_ifs with hs
    · exact hcolumn
    · have heven := hsame.resolve_left hs
      omega
    · omega
  cases plane with
  | luma =>
    cases plane' with
    | luma =>
      obtain ⟨hrow, hcolumn⟩ := row_column_eq hcolumn hcolumn' h
      exact ⟨rfl, hrow, hcolumn⟩
    | chroma =>
      have hlt := hluma hrow hcolumn
      rw [position_luma, position_chroma] at h
      omega
  | chroma =>
    cases plane' with
    | luma =>
      have hlt := hluma hrow' hcolumn'
      rw [position_chroma, position_luma] at h
      omega
    | chroma =>
      rw [position_chroma, position_chroma, Nat.add_assoc, Nat.add_assoc] at h
      obtain ⟨hrow, hsource⟩ :=
        row_column_eq (hpair hcolumn) (hpair hcolumn') (Nat.add_left_cancel h)
      refine ⟨rfl, hrow, ?_⟩
      split_ifs at hsource
      · exact hsource
      · rw [← partner_partner column, hsource, partner_partner]

/-- The copy takes a whole frame that has room for its chroma rows. -/
structure Fits (size width height : ℕ) (same : Bool) : Prop where
  height_lt : height + 1 < 2 ^ 31
  size_le : width * height + width * ((height + 1) / 2) ≤ size
  order : same = true ∨ width % 2 = 0

/-- What is read is never what is written. -/
theorem separate_assignments (copied : Copied) (src : Layout) :
    Separate (copied.assignments src) := by
  intro t ht t' ht' heq
  obtain ⟨move, -, rfl⟩ := List.mem_map.mp ht
  obtain ⟨move', -, rfl⟩ := List.mem_map.mp ht'
  exact Cell.noConfusion heq

/-- A frame of no bytes is copied faithfully. -/
theorem faithful_of_empty (hmoves : copied.moves = moves width.toInt height.toInt dst.isNv21)
    (h : width.toNat = 0 ∨ height.toNat = 0) : Faithful memory index width height copied := by
  refine ⟨fun move hmove => ?_, fun contents plane row hrow column hcolumn => ?_⟩
  · rw [hmoves, mem_moves] at hmove
    obtain ⟨hrow, hcolumn, -⟩ := hmove
    exfalso
    cases hplane : move.plane with
    | luma =>
      rw [hplane, rowsOf_luma] at hrow
      rw [hplane, columnsOf_luma] at hcolumn
      split_ifs at hrow
      all_goals omega
    | chroma =>
      rw [hplane, rowsOf_chroma] at hrow
      rw [hplane, columnsOf_chroma] at hcolumn
      split_ifs at hrow hcolumn
      all_goals omega
  · cases plane with
    | luma =>
      rw [pictureRows_luma] at hrow
      omega
    | chroma =>
      rw [pictureRows_chroma] at hrow
      omega

/-- The sizes of a frame that fits, and not empty. -/
structure Sized (size : ℕ) (width height : BitVec 32) (same : Bool) : Prop where
  luma_lt : width.toNat * height.toNat < word
  width_lt : width.toNat < 2 ^ 31
  rows : ∀ plane, rowsOf height.toInt plane = pictureRows height plane
  columns : ∀ plane, columnsOf width.toInt same plane = width.toNat

theorem Fits.sized {size : ℕ} {same : Bool} (h : Fits size width.toNat height.toNat same)
    (hsize : size < word) (hheight : height.toNat ≠ 0) : Sized size width height same := by
  obtain ⟨hlt, hle, hsame⟩ := h
  have hluma : width.toNat * height.toNat < word := by omega
  have hwidthLt : width.toNat < 2 ^ 31 := by
    have hrows : width.toNat * 1 ≤ width.toNat * height.toNat :=
      Nat.mul_le_mul_left _ (by omega)
    have hchroma : width.toNat * 1 ≤ width.toNat * ((height.toNat + 1) / 2) :=
      Nat.mul_le_mul_left _ (by omega)
    unfold word at hsize
    omega
  refine ⟨hluma, hwidthLt, fun plane => ?_, fun plane => ?_⟩
  · cases plane with
    | luma =>
      rw [rowsOf_luma, if_pos (by omega)]
      rfl
    | chroma =>
      rw [rowsOf_chroma, if_pos hlt]
      rfl
  · cases plane with
    | luma => exact columnsOf_luma width same
    | chroma =>
      rw [columnsOf_chroma, if_pos hwidthLt]
      split_ifs with hnv21
      · rfl
      · have heven := hsame.resolve_left hnv21
        omega

/-- The end of a row is not behind the end of the last one. -/
theorem row_end_le {row rows : ℕ} (width : ℕ) (hrow : row < rows) :
    row * width + width ≤ width * rows := by
  have hsucc : (row + 1) * width ≤ rows * width := Nat.mul_le_mul_right _ hrow
  rw [Nat.add_mul, Nat.one_mul] at hsucc
  rwa [Nat.mul_comm width]

/-- A byte of a frame that fits is read at its position. -/
theorem address_frameLayout {size : ℕ} {same : Bool} (frame : ℕ)
    (hsized : Sized size width height same)
    (hfits : Fits size width.toNat height.toNat same) (hsize : size < word) {plane : Plane}
    {row column : ℕ} (hrow : row < pictureRows height plane) :
    (frameLayout frame width.toInt height.toInt).address plane row (sourceOf same plane column) =
      frame + position width height same plane row column := by
  have hle := hfits.size_le
  unfold Layout.address
  rw [toSize_stride]
  cases plane with
  | luma =>
    have hin := row_end_le width.toNat (show row < height.toNat from hrow)
    rw [base_luma, Nat.mod_eq_of_lt (by have hlt := hsized.luma_lt; omega)]
    rw [position_luma]
    unfold sourceOf
    dsimp only
    omega
  | chroma =>
    have hin := row_end_le width.toNat (show row < (height.toNat + 1) / 2 from hrow)
    rw [base_chroma, Nat.mod_eq_of_lt hsized.luma_lt, Nat.mod_eq_of_lt (by omega)]
    rw [position_chroma]
    unfold sourceOf
    dsimp only
    omega

/-- A frame that fits is copied faithfully, if no byte of the destination is written twice. -/
theorem faithful_of_fits (hmoves : copied.moves = moves width.toInt height.toInt dst.isNv21)
    (horder : copied.layout.isNv21 = dst.isNv21)
    (h : Fits memory.bufferSize.toNat width.toNat height.toNat dst.isNv21)
    (hdistinct : copied.layout.Distinct width height) :
    Faithful memory index width height copied := by
  by_cases hempty : width.toNat = 0 ∨ height.toNat = 0
  · exact faithful_of_empty hmoves hempty
  obtain ⟨hwidth, hheight⟩ := not_or.mp hempty
  have hsize : memory.bufferSize.toNat < word := memory.bufferSize.isLt
  have hsized := h.sized hsize hheight
  have hle := h.size_le
  have hvisible (move : Move) : move ∈ copied.moves ↔ move.row < pictureRows height move.plane ∧
      move.column < width.toNat ∧ move.source = sourceOf dst.isNv21 move.plane move.column := by
    rw [hmoves, mem_moves, hsized.rows, hsized.columns]
  refine ⟨fun move hmove => ?_, fun contents plane row hrow column hcolumn => ?_⟩
  · rw [hmoves] at hmove
    cases hplane : move.plane with
    | luma =>
      refine (moves_within_iff _ (base_luma _ _ _) hsize ?_).mpr ?_ move hmove hplane
      · rw [toSize_stride, columnsOf_luma]
        omega
      · have hlast := row_end_le width.toNat (show height.toNat - 1 < height.toNat by omega)
        rw [toSize_stride, hsized.columns, hsized.rows, pictureRows_luma]
        omega
    | chroma =>
      refine (moves_within_iff _ (base_chroma _ _ _) hsize ?_).mpr ?_ move hmove hplane
      · rw [toSize_stride, hsized.columns]
        omega
      · have hlast := row_end_le width.toNat
          (show (height.toNat + 1) / 2 - 1 < (height.toNat + 1) / 2 by omega)
        rw [toSize_stride, hsized.columns, hsized.rows, pictureRows_chroma,
          Nat.mod_eq_of_lt hsized.luma_lt]
        omega
  · have hmem : (⟨.buffer (copied.layout.address plane row column),
        .engine ((frameLayout (memory.frame index) width.toInt height.toInt).address plane row
          (sourceOf dst.isNv21 plane column))⟩ : Transfer Cell) ∈
        copied.assignments (frameLayout (memory.frame index) width.toInt height.toInt) :=
      List.mem_map.mpr ⟨⟨plane, row, column, sourceOf dst.isNv21 plane column⟩,
        (hvisible _).mpr ⟨hrow, hcolumn, rfl⟩, rfl⟩
    have hfunctional : Functional
        (copied.assignments (frameLayout (memory.frame index) width.toInt height.toInt)) := by
      intro t ht t' ht' heq
      obtain ⟨⟨plane, row, column, source⟩, hmove, rfl⟩ := List.mem_map.mp ht
      obtain ⟨⟨plane', row', column', source'⟩, hmove', rfl⟩ := List.mem_map.mp ht'
      obtain ⟨hrow, hcolumn, hsource⟩ := (hvisible _).mp hmove
      obtain ⟨hrow', hcolumn', hsource'⟩ := (hvisible _).mp hmove'
      dsimp only at hrow hcolumn hsource hrow' hcolumn' hsource' heq ⊢
      obtain ⟨rfl, rfl, rfl⟩ := hdistinct plane row hrow column hcolumn plane' row' hrow' column'
        hcolumn' (Cell.buffer.inj heq)
      rw [hsource, hsource']
    rw [transferAll_of_mem (separate_assignments _ _) hfunctional hmem, horder]
    exact congrArg (fun address => contents (.engine address))
      (address_frameLayout _ hsized h hsize hrow)

/-- A byte that has arrived was written to its address, from its position. -/
theorem Faithful.exists_move (h : Faithful memory index width height copied) {plane : Plane}
    {row column : ℕ} (hrow : row < pictureRows height plane) (hcolumn : column < width.toNat) :
    ∃ move ∈ copied.moves,
      copied.layout.address move.plane move.row move.column =
        copied.layout.address plane row column ∧
      (frameLayout (memory.frame index) width.toInt height.toInt).address move.plane move.row
          move.source =
        memory.frame index + position width height copied.layout.isNv21 plane row column := by
  have harrives (contents : Cell → BitVec 8) := h.arrives contents plane row hrow column hcolumn
  by_cases hwritten : ∃ t ∈ copied.assignments
      (frameLayout (memory.frame index) width.toInt height.toInt),
        t.dst = .buffer (copied.layout.address plane row column)
  · obtain ⟨t, ht, hdst, hlast⟩ := exists_transferAll_eq (separate_assignments _ _) hwritten
    obtain ⟨move, hmove, rfl⟩ := List.mem_map.mp ht
    refine ⟨move, hmove, Cell.buffer.inj hdst, ?_⟩
    -- the two positions are told apart by contents that differ there
    by_contra hne
    have hdiffers := harrives fun cell => if cell = .engine (memory.frame index +
      position width height copied.layout.isNv21 plane row column) then 1 else 0
    rw [hlast, if_pos rfl, if_neg fun heq => hne (Cell.engine.inj heq)] at hdiffers
    exact absurd hdiffers (by decide)
  · have hdiffers := harrives fun cell => if cell = .buffer
      (copied.layout.address plane row column) then 1 else 0
    rw [transferAll_of_not_mem fun t ht heq => hwritten ⟨t, ht, heq.symm⟩, if_pos rfl,
      if_neg Cell.noConfusion] at hdiffers
    exact absurd hdiffers (by decide)

/-- The luma plane of a frame that is copied faithfully is in the frame. -/
theorem Faithful.luma_le (h : Faithful memory index width height copied)
    (hwidth : width.toNat ≠ 0) (hheight : height.toNat ≠ 0) :
    width.toNat * height.toNat ≤ memory.bufferSize.toNat := by
  obtain ⟨move, hmove, -, hsource⟩ := h.exists_move
    (show height.toNat - 1 < pictureRows height .luma by rw [pictureRows_luma]; omega)
    (show width.toNat - 1 < width.toNat by omega)
  have hread := (h.inside move hmove).2
  have hrows : (height.toNat - 1) * width.toNat + width.toNat = width.toNat * height.toNat := by
    rw [← Nat.succ_mul, Nat.succ_eq_add_one, Nat.sub_add_cancel (by omega), Nat.mul_comm]
  rw [hsource, position_luma] at hread
  omega

/-- A byte of its last chroma row is read there, by the copy of the chroma plane. -/
theorem Faithful.chroma_read (h : Faithful memory index width height copied)
    (hmoves : copied.moves = moves width.toInt height.toInt dst.isNv21)
    (horder : copied.layout.isNv21 = dst.isNv21) (hwidth : width.toNat ≠ 0)
    (hheight : height.toNat ≠ 0) {column : ℕ} (hcolumn : column < width.toNat) :
    height.toNat + 1 < 2 ^ 31 ∧ (if dst.isNv21 then column else partner column) < width.toNat ∧
      width.toNat * height.toNat + ((height.toNat + 1) / 2 - 1) * width.toNat +
        (if dst.isNv21 then column else partner column) < memory.bufferSize.toNat := by
  have hsize : memory.bufferSize.toNat < word := memory.bufferSize.isLt
  have hluma := h.luma_le hwidth hheight
  obtain ⟨move, hmove, -, hsource⟩ := h.exists_move
    (show (height.toNat + 1) / 2 - 1 < pictureRows height .chroma by
      rw [pictureRows_chroma]; omega) hcolumn
  have hread := (h.inside move hmove).2
  rw [hsource, position_chroma, horder] at hread
  rw [position_chroma, horder] at hsource
  rw [hmoves, mem_moves] at hmove
  obtain ⟨hrow, hlt, hmoveSource⟩ := hmove
  have hpartner := hmoveSource ▸ sourceOf_lt hlt
  have hcolumns := columnsOf_le width dst.isNv21 move.plane
  unfold Layout.address at hsource
  rw [toSize_stride] at hsource
  cases hplane : move.plane with
  | luma =>
    -- what the luma rows read is before the chroma plane
    rw [hplane] at hsource hrow
    rw [rowsOf_luma] at hrow
    split_ifs at hrow
    · have hin := row_end_le width.toNat hrow
      rw [base_luma, Nat.mod_eq_of_lt (by omega)] at hsource
      omega
    · omega
  | chroma =>
    rw [hplane] at hsource hrow
    rw [rowsOf_chroma] at hrow
    split_ifs at hrow with hheightLt
    · have hle : move.row * width.toNat ≤ ((height.toNat + 1) / 2 - 1) * width.toNat :=
        Nat.mul_le_mul_right _ (by omega)
      have hmod := Nat.mod_le (move.row * width.toNat) word
      rw [base_chroma, Nat.mod_eq_of_lt (by omega)] at hsource
      exact ⟨hheightLt, by omega, by omega⟩
    · omega

/-- A frame that is copied faithfully fits. -/
theorem fits_of_faithful (hmoves : copied.moves = moves width.toInt height.toInt dst.isNv21)
    (horder : copied.layout.isNv21 = dst.isNv21) (hwidth : width.toNat ≠ 0)
    (hheight : height.toNat ≠ 0) (h : Faithful memory index width height copied) :
    Fits memory.bufferSize.toNat width.toNat height.toNat dst.isNv21 := by
  have hread {column : ℕ} (hcolumn : column < width.toNat) :=
    h.chroma_read hmoves horder hwidth hheight hcolumn
  have hlast := hread (show width.toNat - 1 < width.toNat by omega)
  have hrows : ((height.toNat + 1) / 2 - 1) * width.toNat + width.toNat =
      width.toNat * ((height.toNat + 1) / 2) := by
    rw [← Nat.succ_mul, Nat.succ_eq_add_one, Nat.sub_add_cancel (by omega), Nat.mul_comm]
  by_cases hnv21 : dst.isNv21 = true
  · simp only [if_pos hnv21] at hlast
    exact ⟨hlast.1, by omega, .inl hnv21⟩
  · simp only [if_neg hnv21] at hlast hread
    have heven : width.toNat % 2 = 0 := by
      have hpartner := hlast.2.1
      unfold partner at hpartner
      split_ifs at hpartner <;> omega
    -- the last byte of the row belongs to the column before the last
    have hpair := (hread (show width.toNat - 2 < width.toNat by omega)).2.2
    rw [partner, if_pos (by omega)] at hpair
    exact ⟨hlast.1, by omega, .inr heven⟩

/-- What arrives from two positions has two addresses. -/
theorem distinct_of_faithful (hnv21 : copied.layout.isNv21 = true ∨ width.toNat % 2 = 0)
    (h : Faithful memory index width height copied) : copied.layout.Distinct width height := by
  intro plane row hrow column hcolumn plane' row' hrow' column' hcolumn' haddress
  have harrives (contents : Cell → BitVec 8) := h.arrives contents plane row hrow column hcolumn
  have harrives' (contents : Cell → BitVec 8) :=
    h.arrives contents plane' row' hrow' column' hcolumn'
  apply position_injective hnv21 hrow hcolumn hrow' hcolumn'
  by_contra hne
  -- one address has the contents of both positions
  have hboth := (harrives fun cell => if cell = .engine (memory.frame index +
    position width height copied.layout.isNv21 plane row column) then 1 else 0).symm.trans
      ((congrArg _ (congrArg _ haddress)).trans (harrives' _))
  rw [if_pos rfl, if_neg fun heq => hne (Nat.add_left_cancel (Cell.engine.inj heq)).symm] at hboth
  exact absurd hboth (by decide)

/-- The planes of a buffer that gralloc keeps in memory and apart are distinct. -/
theorem distinct_of_inMemory {l : Layout} (hlt : height.toNat + 1 < 2 ^ 31)
    (hl : l.InMemory width height) (hstride : ∀ plane, width.toNat ≤ toSize (l.stride plane)) :
    l.Distinct width height := by
  have hrows (plane : Plane) : rowsOf height.toInt plane = pictureRows height plane := by
    cases plane with
    | luma =>
      rw [rowsOf_luma, if_pos (by omega)]
      rfl
    | chroma =>
      rw [rowsOf_chroma, if_pos hlt]
      rfl
  intro plane row hrow column hcolumn plane' row' hrow' column' hcolumn' haddress
  exact address_injective hl hstride ⟨by rwa [hrows], hcolumn⟩ ⟨by rwa [hrows], hcolumn'⟩ haddress

end

/-- A locked NV21 buffer of two columns. -/
def narrowBuffer (height : BitVec 32) : Destination where
  handle := some ⟨.exynosYCrCb420SpM, 2, height, 16, 16⟩
  gralloc := true
  lock := some ⟨4096, 8192⟩
  unlock := true

/-- One row of two bytes: the frame has three bytes, and four are read. -/
theorem dataCb_reads_outside :
    ∃ copied, dataCb ⟨65536, 3, 1⟩ 0 2 1 (narrowBuffer 1) = (some copied, true) ∧
      ¬ Faithful ⟨65536, 3, 1⟩ 0 2 1 copied := by
  refine ⟨_, rfl, fun h => ?_⟩
  obtain ⟨hmoves, horder, -⟩ :=
    @dataCb_eq ⟨65536, 3, 1⟩ 0 2 1 (narrowBuffer 1) _ true rfl
  have hfits := fits_of_faithful hmoves horder (by decide) (by decide) h
  exact absurd hfits.size_le (by decide)

/-- **A preview frame is copied faithfully** if it has no bytes, or if its chroma rows,
    rounded up, are in the frame, no last column is left over where the orders differ, and
    no byte of the destination is written over another. -/
theorem faithful_iff {memory : CameraMemory} {index width height : BitVec 32} {dst : Destination}
    {copied : Copied} {answer : Bool}
    (h : dataCb memory index width height dst = (some copied, answer)) :
    Faithful memory index width height copied ↔ width.toNat = 0 ∨ height.toNat = 0 ∨
      Fits memory.bufferSize.toNat width.toNat height.toNat dst.isNv21 ∧
        dst.Distinct width height := by
  obtain ⟨hmoves, horder, hdistinct⟩ := dataCb_eq h
  constructor
  · intro hfaithful
    by_cases hwidth : width.toNat = 0
    · exact .inl hwidth
    · by_cases hheight : height.toNat = 0
      · exact .inr (.inl hheight)
      · have hfits := fits_of_faithful hmoves horder hwidth hheight hfaithful
        exact .inr (.inr ⟨hfits,
          hdistinct.mp (distinct_of_faithful (horder ▸ hfits.order) hfaithful)⟩)
  · rintro (hwidth | hheight | ⟨hfits, hdst⟩)
    · exact faithful_of_empty hmoves (.inl hwidth)
    · exact faithful_of_empty hmoves (.inr hheight)
    · exact faithful_of_fits hmoves horder hfits (hdistinct.mpr hdst)

/-- Two rows of two bytes in a frame of six. -/
theorem faithful_iff_even :
    ∃ copied, dataCb ⟨65536, 6, 1⟩ 0 2 2 (narrowBuffer 2) = (some copied, true) ∧
      Faithful ⟨65536, 6, 1⟩ 0 2 2 copied := by
  refine ⟨_, rfl, ?_⟩
  have hcalled : dataCb ⟨65536, 6, 1⟩ 0 2 2 (narrowBuffer 2) = (some _, true) := rfl
  refine (faithful_iff hcalled).mpr (.inr (.inr ⟨⟨by decide, by decide, .inl rfl⟩, ?_⟩))
  intro hnd planes layout hhandle hlock hlayout
  obtain rfl := Option.some.inj hhandle
  obtain rfl := Option.some.inj hlock
  obtain rfl := Option.some.inj hlayout
  exact distinct_of_inMemory (by decide) ⟨fun plane => by cases plane <;> decide, by decide⟩
    fun plane => by cases plane <;> decide

/-- The chroma plane of a buffer with one row of 128 bytes before it begins in the fourth luma
    row. -/
example : ¬ Destination.Distinct ⟨some ⟨.exynosYCbCr420Spn, 2, 4, 128, 1⟩, true, some ⟨4096, 0⟩,
    true⟩ 2 4 := by
  intro h
  have hoverlap := h _ _ _ rfl rfl rfl .luma 3 (by decide) 0 (by decide) .chroma 0 (by decide) 0
    (by decide) (by decide)
  exact absurd hoverlap.1 (by decide)

end Pro5Android.Camera
