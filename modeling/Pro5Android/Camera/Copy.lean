import Pro5Android.Lib.Transfer
import Mathlib.Data.Int.Notation
import Mathlib.Data.List.Basic
import Mathlib.Order.Basic
import Mathlib.Tactic.SplitIfs
import Mathlib.Tactic.Linarith

/-!
# The copy of a frame into a stream buffer

`m86_copy_preview_to_stream` of `camera_m86_module.cpp` (lines 1122–1259), which its
three callers give the planes of a frame, and the layout that
`m86_preview_window_deliver` reads a gralloc buffer with (lines 1697–1732).

The module is a 32-bit one (`Android.mk`): a `size_t` has 32 bits, and an `int` is
reckoned as the integer it stands for. An addition that overflows wraps around. Addresses are natural
numbers; only their offsets are computed as `size_t`. What gralloc and the handle answer
is given with the destination.

Results:
* `mem_moves`: the bytes that the loops copy.
* `moves_within_iff`: when a plane is read inside a block.
-/

namespace Pro5Android.Camera

open Lib

/-! ## Machine integers -/

/-- `2^32`. -/
def word : ℕ := 2 ^ 32

/-- An `int` as a `size_t`. -/
def toSize (z : ℤ) : ℕ := (z % word).toNat

/-- The `int` that an operation leaves. -/
def wrapInt (z : ℤ) : ℤ := z.bmod word

section

variable (b : BitVec 32)

theorem toSize_toInt : toSize b.toInt = b.toNat := by
  unfold toSize word
  have hlt := b.isLt
  rw [BitVec.toInt_eq_toNat_cond]
  split_ifs
  all_goals omega

theorem toNat_toInt : b.toInt.toNat = if b.toNat < 2 ^ 31 then b.toNat else 0 := by
  have hlt := b.isLt
  rw [BitVec.toInt_eq_toNat_cond]
  split_ifs
  all_goals omega

end

theorem wrapInt_of_lt {z : ℤ} (hlow : -2 ^ 31 ≤ z) (hhigh : z < 2 ^ 31) : wrapInt z = z := by
  unfold wrapInt word
  exact Int.bmod_eq_of_le (by omega) (by omega)

/-! ## Layouts -/

/-- The formats that the switches tell apart. -/
inductive GrallocFormat
  | yCrCb420Sp
  | exynosYCrCb420SpM
  | exynosYCrCb420SpMFull
  | exynosYCbCr420SpM
  | exynosYCbCr420SpMPriv
  | exynosYCbCr420Spn
  | other
  deriving DecidableEq

/-- `private_handle_t`, what is read of it. -/
structure PrivateHandle where
  format : GrallocFormat
  width : BitVec 32
  height : BitVec 32
  stride : BitVec 32
  vstride : BitVec 32

/-- The addresses `planes[0]` and `planes[1]` of a lock that succeeds. -/
structure LockedPlanes where
  y : ℕ
  chroma : ℕ

/-- The two planes of a frame. -/
inductive Plane
  | luma
  | chroma
  deriving DecidableEq

/-- Where the bytes of a frame are. -/
structure Layout where
  y : ℕ
  chroma : ℕ
  yStride : ℤ
  chromaStride : ℤ
  isNv21 : Bool
  deriving DecidableEq

namespace Layout

def base (l : Layout) : Plane → ℕ
  | .luma => l.y
  | .chroma => l.chroma

def stride (l : Layout) : Plane → ℤ
  | .luma => l.yStride
  | .chroma => l.chromaStride

/-- `base + static_cast<size_t>(row) * stride + column`. -/
def address (l : Layout) (plane : Plane) (row column : ℕ) : ℕ :=
  l.base plane + row * toSize (l.stride plane) % word + column

end Layout

/-- The layout of a destination (lines 1184–1215), for a stream of a size; `none` is a
    format that is not supported. -/
def destinationLayout (hnd : PrivateHandle) (planes : LockedPlanes) (width height : ℤ) :
    Option Layout :=
  let yStride := if hnd.stride.toInt > 0 then hnd.stride.toInt else width
  let yVstride := if hnd.vstride.toInt > 0 then hnd.vstride.toInt else height
  match hnd.format with
  | .yCrCb420Sp =>
    some ⟨planes.y, planes.y + toSize yStride * toSize height % word, yStride, yStride, true⟩
  | .exynosYCrCb420SpM | .exynosYCrCb420SpMFull =>
    some ⟨planes.y, planes.chroma, yStride, yStride, true⟩
  | .exynosYCbCr420SpM | .exynosYCbCr420SpMPriv =>
    some ⟨planes.y, planes.chroma, yStride, yStride, false⟩
  | .exynosYCbCr420Spn =>
    some ⟨planes.y, planes.y + toSize yStride * toSize yVstride % word + 256, yStride, yStride,
      false⟩
  | .other => none

/-- The layout of a source in `m86_preview_window_deliver` (lines 1697–1723). -/
def sourceLayout (hnd : PrivateHandle) (planes : LockedPlanes) : Layout :=
  let yStride := if hnd.stride.toInt > 0 then hnd.stride.toInt else hnd.width.toInt
  let yVstride := if hnd.vstride.toInt > 0 then hnd.vstride.toInt else hnd.height.toInt
  let behind := planes.y + toSize yStride * toSize yVstride % word
  match hnd.format with
  | .yCrCb420Sp => ⟨planes.y, behind, yStride, yStride, true⟩
  | .exynosYCrCb420SpM | .exynosYCrCb420SpMFull =>
    ⟨planes.y, planes.chroma, yStride, yStride, true⟩
  | .exynosYCbCr420SpM | .exynosYCbCr420SpMPriv =>
    ⟨planes.y, planes.chroma, yStride, yStride, false⟩
  | .exynosYCbCr420Spn => ⟨planes.y, behind + 256, yStride, yStride, false⟩
  | .other => ⟨planes.y, behind, yStride, yStride, true⟩

/-! ## The copy -/

/-- The stream buffer of a request: its handle, if it is one of gralloc; whether the
    gralloc module is there; the planes, unless the lock fails; and whether unlocking
    succeeds. -/
structure Destination where
  handle : Option PrivateHandle
  gralloc : Bool
  lock : Option LockedPlanes
  unlock : Bool

/-- The copy of a byte within a row. -/
structure Move where
  plane : Plane
  row : ℕ
  column : ℕ
  source : ℕ
  deriving DecidableEq

/-- The loop over the luma rows (lines 1231–1234). -/
def lumaMoves (width height : ℤ) : List Move :=
  (List.range height.toNat).flatMap fun row =>
    (List.range (toSize width)).map fun column => ⟨.luma, row, column, column⟩

/-- `chroma_height`. -/
def chromaHeight (height : ℤ) : ℤ := (wrapInt (height + 1)).tdiv 2

theorem chromaHeight_toInt (b : BitVec 32) :
    (chromaHeight b.toInt).toNat = if b.toNat + 1 < 2 ^ 31 then (b.toNat + 1) / 2 else 0 := by
  have hlt := b.isLt
  have hlow := BitVec.le_toInt b
  have hhigh := BitVec.toInt_lt (x := b)
  have hint := BitVec.toInt_eq_toNat_cond b
  unfold chromaHeight
  by_cases hpositive : b.toNat + 1 < 2 ^ 31
  · rw [wrapInt_of_lt (by omega) (by omega), if_pos hpositive, hint, if_pos (by omega),
      Int.tdiv_eq_ediv_of_nonneg (by omega)]
    omega
  · rw [if_neg hpositive]
    have hwrap : wrapInt (b.toInt + 1) ≤ 0 := by
      by_cases hmax : b.toNat + 1 = 2 ^ 31
      · -- the addition overflows
        have hb : b.toInt + 1 = 2 ^ 31 := by omega
        rw [hb]
        decide
      · rw [wrapInt_of_lt (by omega) (by omega)]
        omega
    have hneg : 0 ≤ (-wrapInt (b.toInt + 1)).tdiv 2 := Int.tdiv_nonneg (by omega) (by omega)
    rw [Int.neg_tdiv] at hneg
    omega

/-- A chroma row: as it is, or pair by pair in the other order (lines 1240–1247). -/
def chromaRow (width : ℤ) (same : Bool) (row : ℕ) : List Move :=
  if same then (List.range (toSize width)).map fun column => ⟨.chroma, row, column, column⟩
  else (List.range (width.toNat / 2)).flatMap fun pair =>
    [⟨.chroma, row, 2 * pair, 2 * pair + 1⟩, ⟨.chroma, row, 2 * pair + 1, 2 * pair⟩]

/-- The loops (lines 1231–1248), for two orders that are the same or not. -/
def moves (width height : ℤ) (same : Bool) : List Move :=
  lumaMoves width height ++
    (List.range (chromaHeight height).toNat).flatMap (chromaRow width same)

/-- A copy that takes place: the layout of the destination and the bytes. -/
structure Copied where
  layout : Layout
  moves : List Move

/-- The layout of the destination, unless the copy is refused (lines 1144–1224). -/
def admitted (src : Layout) (width height : ℤ) (dst : Destination) : Option Layout :=
  match dst.handle with
  | none => none
  | some hnd =>
    if !dst.gralloc then none
    else if src.yStride < width ∨ src.chromaStride < width ∨ hnd.width.toInt < width ∨
        hnd.height.toInt < height then none
    else
      match dst.lock with
      | none => none
      | some planes =>
        match destinationLayout hnd planes width height with
        | none => none
        | some layout =>
          if layout.chroma = 0 ∨ layout.yStride < width ∨ layout.chromaStride < width then none
          else some layout

/-- `m86_copy_preview_to_stream` for a stream of a size: what is copied, and the result
    with which the request is answered. -/
def copyPreviewToStream (src : Layout) (width height : BitVec 32) (dst : Destination) :
    Option Copied × Bool :=
  match admitted src width.toInt height.toInt dst with
  | none => (none, false)
  | some layout =>
    (some ⟨layout, moves width.toInt height.toInt (layout.isNv21 == src.isNv21)⟩, dst.unlock)

/-- Whether the red chroma byte is first. -/
def GrallocFormat.isNv21 : GrallocFormat → Bool
  | .yCrCb420Sp | .exynosYCrCb420SpM | .exynosYCrCb420SpMFull => true
  | .exynosYCbCr420SpM | .exynosYCbCr420SpMPriv | .exynosYCbCr420Spn | .other => false

theorem isNv21_destinationLayout {hnd : PrivateHandle} {planes : LockedPlanes} {width height : ℤ}
    {layout : Layout} (h : destinationLayout hnd planes width height = some layout) :
    layout.isNv21 = hnd.format.isNv21 := by
  unfold destinationLayout at h
  cases hformat : hnd.format with
  | other =>
    rw [hformat] at h
    cases h
  | _ =>
    rw [hformat] at h
    obtain rfl := Option.some.inj h
    rfl

/-- What a copy that takes place has passed. -/
theorem admitted_eq_some {src layout : Layout} {width height : ℤ} {dst : Destination}
    (h : admitted src width height dst = some layout) :
    ∃ hnd planes, dst.handle = some hnd ∧ dst.lock = some planes ∧
      destinationLayout hnd planes width height = some layout ∧
      width ≤ src.yStride ∧ width ≤ src.chromaStride ∧ width ≤ hnd.width.toInt ∧
      height ≤ hnd.height.toInt ∧
      layout.chroma ≠ 0 ∧ width ≤ layout.yStride ∧ width ≤ layout.chromaStride := by
  unfold admitted at h
  split at h
  · cases h
  · next hnd hhandle =>
    split_ifs at h with hgralloc hsize
    split at h
    · cases h
    · next planes hlock =>
      split at h
      · cases h
      · next layout' hlayout =>
        split_ifs at h with hinvalid
        obtain rfl := Option.some.inj h
        simp only [not_or, not_lt] at hsize hinvalid
        exact ⟨hnd, planes, hhandle, hlock, hlayout, hsize.1, hsize.2.1, hsize.2.2.1, hsize.2.2.2,
          hinvalid.1, hinvalid.2.1, hinvalid.2.2⟩

/-- What is known where something is copied. -/
theorem copyPreviewToStream_eq_some {src : Layout} {width height : BitVec 32} {dst : Destination}
    {copied : Copied} {answer : Bool}
    (h : copyPreviewToStream src width height dst = (some copied, answer)) :
    admitted src width.toInt height.toInt dst = some copied.layout ∧
      copied.moves = moves width.toInt height.toInt (copied.layout.isNv21 == src.isNv21) := by
  unfold copyPreviewToStream at h
  split at h
  · cases h
  · next layout hadmitted =>
    obtain ⟨hcopied, -⟩ := Prod.mk.inj h
    obtain rfl := Option.some.inj hcopied
    exact ⟨hadmitted, rfl⟩

/-! ## What is copied -/

/-- The other byte of a chroma pair. -/
def partner (column : ℕ) : ℕ := if column % 2 = 0 then column + 1 else column - 1

/-- The number of columns of a chroma row that are copied. -/
def chromaColumns (width : ℤ) (same : Bool) : ℕ :=
  if same then toSize width else 2 * (width.toNat / 2)

/-- The rows of a plane. -/
def rowsOf (height : ℤ) : Plane → ℕ
  | .luma => height.toNat
  | .chroma => (chromaHeight height).toNat

/-- The columns of a plane that are copied. -/
def columnsOf (width : ℤ) (same : Bool) : Plane → ℕ
  | .luma => toSize width
  | .chroma => chromaColumns width same

/-- Where a byte of a plane comes from within its row. -/
def sourceOf (same : Bool) : Plane → ℕ → ℕ
  | .luma, column => column
  | .chroma, column => if same then column else partner column

theorem mem_chromaRow (width : ℤ) (same : Bool) (row : ℕ) (move : Move) :
    move ∈ chromaRow width same row ↔ move.plane = .chroma ∧ move.row = row ∧
      move.column < chromaColumns width same ∧ move.source = sourceOf same .chroma move.column := by
  obtain ⟨plane, row', column, source⟩ := move
  unfold chromaRow chromaColumns sourceOf
  cases same with
  | true =>
    simp only [if_true, List.mem_map, List.mem_range, Move.mk.injEq]
    constructor
    · rintro ⟨column, hcolumn, rfl, rfl, rfl, rfl⟩
      exact ⟨rfl, rfl, hcolumn, rfl⟩
    · rintro ⟨rfl, rfl, hcolumn, rfl⟩
      exact ⟨_, hcolumn, rfl, rfl, rfl, rfl⟩
  | false =>
    simp only [Bool.false_eq_true, if_false, List.mem_flatMap, List.mem_range, List.mem_cons,
      List.not_mem_nil, or_false, Move.mk.injEq]
    unfold partner
    constructor
    · rintro ⟨pair, hpair, ⟨rfl, rfl, rfl, rfl⟩ | ⟨rfl, rfl, rfl, rfl⟩⟩
      · exact ⟨rfl, rfl, by omega, by rw [if_pos (by omega)]⟩
      · exact ⟨rfl, rfl, by omega, by rw [if_neg (by omega), Nat.add_sub_cancel]⟩
    · rintro ⟨rfl, rfl, hcolumn, rfl⟩
      refine ⟨column / 2, by omega, ?_⟩
      by_cases heven : column % 2 = 0
      · rw [if_pos heven]
        exact .inl ⟨rfl, rfl, by omega, by omega⟩
      · rw [if_neg heven]
        exact .inr ⟨rfl, rfl, by omega, by omega⟩

/-- **The bytes that are copied.** -/
theorem mem_moves (width height : ℤ) (same : Bool) (move : Move) :
    move ∈ moves width height same ↔ move.row < rowsOf height move.plane ∧
      move.column < columnsOf width same move.plane ∧
      move.source = sourceOf same move.plane move.column := by
  unfold moves lumaMoves
  simp only [List.mem_append, List.mem_flatMap, List.mem_range, mem_chromaRow, List.mem_map]
  obtain ⟨plane, row, column, source⟩ := move
  cases plane with
  | luma =>
    constructor
    · rintro (⟨row', hrow, column', hcolumn, heq⟩ | ⟨_, _, hplane, _⟩)
      · obtain ⟨-, rfl, rfl, rfl⟩ := Move.mk.inj heq
        exact ⟨hrow, hcolumn, rfl⟩
      · cases hplane
    · rintro ⟨hrow, hcolumn, hsource⟩
      have hsource : source = column := hsource
      exact .inl ⟨row, hrow, column, hcolumn, by rw [hsource]⟩
  | chroma =>
    constructor
    · rintro (⟨_, _, _, _, heq⟩ | ⟨row', hrow, -, rfl, hcolumn, hsource⟩)
      · cases (Move.mk.inj heq).1
      · exact ⟨hrow, hcolumn, hsource⟩
    · rintro ⟨hrow, hcolumn, hsource⟩
      exact .inr ⟨row, hrow, rfl, rfl, hcolumn, hsource⟩

/-! ## What is read -/

section

variable {width height : ℤ} {same : Bool} {plane : Plane}

theorem partner_partner (column : ℕ) : partner (partner column) = column := by
  unfold partner
  split_ifs
  all_goals omega

theorem sourceOf_sourceOf (same : Bool) (plane : Plane) (column : ℕ) :
    sourceOf same plane (sourceOf same plane column) = column := by
  cases plane with
  | luma => rfl
  | chroma =>
    unfold sourceOf
    cases same with
    | true => rfl
    | false => exact partner_partner column

/-- A row is read where it is written. -/
theorem sourceOf_lt {column : ℕ} (h : column < columnsOf width same plane) :
    sourceOf same plane column < columnsOf width same plane := by
  cases plane with
  | luma => exact h
  | chroma =>
    cases same with
    | true => exact h
    | false =>
      have h : column < 2 * (width.toNat / 2) := h
      show partner column < 2 * (width.toNat / 2)
      unfold partner
      split_ifs
      all_goals omega

/-- The bytes that are read are the copied ones. -/
theorem exists_move_source (width : ℤ) (same : Bool) {row column : ℕ}
    (hrow : row < rowsOf height plane) (hcolumn : column < columnsOf width same plane) :
    ∃ move ∈ moves width height same, move.plane = plane ∧ move.row = row ∧
      move.source = column := by
  refine ⟨⟨plane, row, sourceOf same plane column, column⟩, ?_, rfl, rfl, rfl⟩
  rw [mem_moves]
  exact ⟨hrow, sourceOf_lt hcolumn, (sourceOf_sourceOf same plane column).symm⟩

/-- **A plane is read inside a block** if its last row is, computed without wrapping
    around. -/
theorem moves_within_iff (src : Layout) {block offset size : ℕ}
    (hbase : src.base plane = block + offset) (hsize : size < word)
    (hbound : size + toSize (src.stride plane) < word + columnsOf width same plane) :
    (∀ move ∈ moves width height same, move.plane = plane →
      block ≤ src.address plane move.row move.source ∧
        src.address plane move.row move.source < block + size) ↔
    rowsOf height plane = 0 ∨ columnsOf width same plane = 0 ∨
      offset + (rowsOf height plane - 1) * toSize (src.stride plane) +
        columnsOf width same plane ≤ size := by
  unfold Layout.address
  rw [hbase]
  by_cases hempty : rowsOf height plane = 0 ∨ columnsOf width same plane = 0
  · refine iff_of_true (fun move hmove hplane => ?_) ?_
    · rw [mem_moves, hplane] at hmove
      omega
    · exact hempty.elim .inl fun h => .inr (.inl h)
  · obtain ⟨hrows, hcolumns⟩ := not_or.mp hempty
    have hrowwise : (∀ move ∈ moves width height same, move.plane = plane →
        block ≤ block + offset + move.row * toSize (src.stride plane) % word + move.source ∧
          block + offset + move.row * toSize (src.stride plane) % word + move.source <
            block + size) ↔
        ∀ row < rowsOf height plane, offset + (row * toSize (src.stride plane) % word +
          columnsOf width same plane) ≤ size := by
      constructor
      · intro h row hrow
        obtain ⟨move, hmove, hplane, rfl, hsource⟩ :=
          exists_move_source width same hrow
            (show columnsOf width same plane - 1 < _ by omega)
        have hlast := (h move hmove hplane).2
        omega
      · intro h move hmove hplane
        rw [mem_moves, hplane] at hmove
        have hlast := h move.row hmove.1
        have hsource := sourceOf_lt hmove.2.1
        rw [← hmove.2.2] at hsource
        omega
    rw [hrowwise, or_iff_right hrows, or_iff_right hcolumns]
    by_cases hoffset : offset ≤ size
    · have hrowsWithin :
          (∀ row < rowsOf height plane, row * toSize (src.stride plane) % word +
            columnsOf width same plane ≤ size - offset) ↔ _ :=
        rows_within_iff _ _ (by omega) (by omega) (by omega)
      constructor
      · intro h
        have hlast := hrowsWithin.mp fun row hrow => by
          have hthis := h row hrow
          omega
        omega
      · intro h row hrow
        have hthis := hrowsWithin.mpr (by omega) row hrow
        omega
    · refine iff_of_false (fun h => ?_) (by omega)
      have hfirst := h 0 (by omega)
      omega

end

end Pro5Android.Camera
