import Pro5Android.Camera.Copy

/-!
# A buffer that is written and then read

A gralloc buffer is read with one switch and written with another
(`camera_m86_module.cpp`, lines 1697–1723 and 1184–1215). Where the two find the same
planes, a frame that is copied into a buffer and from there into another one arrives as
if it had been copied there directly.

Gralloc keeps the planes of the three buffers apart; that is what `Relayed` assumes
beside the copies being admitted.

Results:
* `readAlike_iff`: the buffers whose planes are found in the same places.
* `run_eq`: the memory after a copy.
* `chroma_read_elsewhere`: a buffer that is read in another place.
* `one_layout_iff`: the buffers that are found where they were written, and the frames that
  arrive over them.
-/

namespace Pro5Android.Camera

open Lib

/-! ## Buffers -/

/-- A locked gralloc buffer. -/
structure Buffer where
  handle : PrivateHandle
  planes : LockedPlanes

/-- The layout that `m86_preview_window_deliver` reads it with. -/
def Buffer.source (b : Buffer) : Layout := sourceLayout b.handle b.planes

def Buffer.destination (b : Buffer) : Destination := ⟨some b.handle, true, some b.planes, true⟩

/-- The chroma plane is found in the same place, with the same stride and order, when the
    buffer is read and when it is written for a stream of a size. -/
structure SameChroma (source layout : Layout) : Prop where
  chroma : source.chroma = layout.chroma
  chromaStride : source.chromaStride = layout.chromaStride
  isNv21 : source.isNv21 = layout.isNv21

/-- The two readings have the same stride, and the same chroma offset where it is
    computed. -/
structure ReadAlike (hnd : PrivateHandle) (width height : ℤ) : Prop where
  stride : 0 < hnd.stride.toInt ∨ hnd.width.toInt = width
  yCrCb420Sp : hnd.format = .yCrCb420Sp →
    toSize (if hnd.stride.toInt > 0 then hnd.stride.toInt else width) *
        toSize (if hnd.vstride.toInt > 0 then hnd.vstride.toInt else hnd.height.toInt) % word =
      toSize (if hnd.stride.toInt > 0 then hnd.stride.toInt else width) * toSize height % word
  exynosYCbCr420Spn : hnd.format = .exynosYCbCr420Spn → 0 < hnd.vstride.toInt ∨
    toSize (if hnd.stride.toInt > 0 then hnd.stride.toInt else width) *
        toSize hnd.height.toInt % word =
      toSize (if hnd.stride.toInt > 0 then hnd.stride.toInt else width) * toSize height % word

theorem stride_eq_iff (hnd : PrivateHandle) (width : ℤ) :
    (if hnd.stride.toInt > 0 then hnd.stride.toInt else hnd.width.toInt) =
      (if hnd.stride.toInt > 0 then hnd.stride.toInt else width) ↔
    0 < hnd.stride.toInt ∨ hnd.width.toInt = width := by
  by_cases hstride : hnd.stride.toInt > 0
  · rw [if_pos hstride, if_pos hstride]
    exact iff_of_true rfl (.inl hstride)
  · rw [if_neg hstride, if_neg hstride]
    exact (or_iff_right hstride).symm

/-- **The chroma plane is found in the same place** by buffers that are read alike. -/
theorem readAlike_iff {b : Buffer} {width height : ℤ} {layout : Layout}
    (h : destinationLayout b.handle b.planes width height = some layout) :
    SameChroma b.source layout ↔ ReadAlike b.handle width height := by
  obtain ⟨hnd, planes⟩ := b
  have hstride := stride_eq_iff hnd width
  unfold destinationLayout at h
  unfold Buffer.source sourceLayout
  dsimp only at h ⊢
  constructor
  · rintro ⟨hchroma, hchromaStride, -⟩
    cases hformat : hnd.format with
    | other =>
      rw [hformat] at h
      cases h
    | yCrCb420Sp =>
      rw [hformat] at h hchroma hchromaStride
      obtain rfl := Option.some.inj h
      have hequal := hstride.mp hchromaStride
      rw [hstride.mpr hequal] at hchroma
      exact ⟨hequal, fun _ => Nat.add_left_cancel hchroma,
        fun h => GrallocFormat.noConfusion (hformat.symm.trans h)⟩
    | exynosYCbCr420Spn =>
      rw [hformat] at h hchroma hchromaStride
      obtain rfl := Option.some.inj h
      have hequal := hstride.mp hchromaStride
      rw [hstride.mpr hequal] at hchroma
      refine ⟨hequal, fun h => GrallocFormat.noConfusion (hformat.symm.trans h), fun _ => ?_⟩
      by_cases hvstride : hnd.vstride.toInt > 0
      · exact .inl hvstride
      · rw [if_neg hvstride, if_neg hvstride] at hchroma
        exact .inr (Nat.add_left_cancel (Nat.add_right_cancel hchroma))
    | exynosYCrCb420SpM | exynosYCrCb420SpMFull | exynosYCbCr420SpM | exynosYCbCr420SpMPriv =>
      rw [hformat] at h hchroma hchromaStride
      obtain rfl := Option.some.inj h
      exact ⟨hstride.mp hchromaStride, fun h => GrallocFormat.noConfusion (hformat.symm.trans h),
        fun h => GrallocFormat.noConfusion (hformat.symm.trans h)⟩
  · rintro ⟨hequal, hsp, hspn⟩
    have hsame := hstride.mpr hequal
    cases hformat : hnd.format with
    | other =>
      rw [hformat] at h
      cases h
    | yCrCb420Sp =>
      rw [hformat] at h
      obtain rfl := Option.some.inj h
      refine ⟨?_, hsame, rfl⟩
      dsimp only
      rw [hsame, hsp hformat]
    | exynosYCbCr420Spn =>
      rw [hformat] at h
      obtain rfl := Option.some.inj h
      refine ⟨?_, hsame, rfl⟩
      dsimp only
      rw [hsame]
      by_cases hvstride : hnd.vstride.toInt > 0
      · rw [if_pos hvstride, if_pos hvstride]
      · rw [if_neg hvstride, if_neg hvstride, (hspn hformat).resolve_left hvstride]
    | exynosYCrCb420SpM | exynosYCrCb420SpMFull | exynosYCbCr420SpM | exynosYCbCr420SpMPriv =>
      rw [hformat] at h
      obtain rfl := Option.some.inj h
      exact ⟨rfl, hsame, rfl⟩

/-- The rest of the layout is then the same too. -/
theorem source_eq_of_sameChroma {b : Buffer} {width height : ℤ} {layout : Layout}
    (h : destinationLayout b.handle b.planes width height = some layout)
    (hsame : SameChroma b.source layout) : b.source = layout := by
  obtain ⟨hnd, planes⟩ := b
  obtain ⟨hchroma, hchromaStride, hnv21⟩ := hsame
  unfold destinationLayout at h
  unfold Buffer.source sourceLayout at hchroma hchromaStride hnv21 ⊢
  dsimp only at h hchroma hchromaStride hnv21 ⊢
  cases hformat : hnd.format with
  | other =>
    rw [hformat] at h
    cases h
  | _ =>
    rw [hformat] at h hchroma hchromaStride hnv21
    obtain rfl := Option.some.inj h
    rw [Layout.mk.injEq]
    exact ⟨rfl, hchroma, hchromaStride, hchromaStride, hnv21⟩

/-! ## Memory -/

namespace Layout

/-- The address behind the visible bytes of a plane. -/
def stop (l : Layout) (width height : BitVec 32) (plane : Plane) : ℕ :=
  l.base plane + (rowsOf height.toInt plane - 1) * toSize (l.stride plane) + width.toNat

/-- No byte of a plane of one layout is in a plane of the other. -/
def Apart (width height : BitVec 32) (l l' : Layout) : Prop :=
  ∀ p q, l.stop width height p ≤ l'.base q ∨ l'.stop width height q ≤ l.base p

/-- The planes of a layout are in memory, apart from each other. -/
structure InMemory (width height : BitVec 32) (l : Layout) : Prop where
  stop_le : ∀ plane, l.stop width height plane ≤ word
  apart : l.stop width height .luma ≤ l.base .chroma ∨ l.stop width height .chroma ≤ l.base .luma

end Layout

/-- A byte of a frame that can be seen. -/
structure Visible (width height : BitVec 32) (plane : Plane) (row column : ℕ) : Prop where
  row_lt : row < rowsOf height.toInt plane
  column_lt : column < width.toNat

section

variable {width height : BitVec 32} {l l' : Layout} {plane plane' : Plane}
  {row row' column column' : ℕ}

/-- The address of a visible byte does not wrap around. -/
theorem address_eq (hl : l.InMemory width height) (h : Visible width height plane row column) :
    l.address plane row column =
        l.base plane + row * toSize (l.stride plane) + column ∧
      l.address plane row column < l.stop width height plane := by
  have hstop := hl.stop_le plane
  obtain ⟨hrow, hcolumn⟩ := h
  have hrows : row * toSize (l.stride plane) ≤
      (rowsOf height.toInt plane - 1) * toSize (l.stride plane) :=
    Nat.mul_le_mul_right _ (by omega)
  unfold Layout.address
  unfold Layout.stop at hstop ⊢
  rw [Nat.mod_eq_of_lt (by omega)]
  omega

theorem base_le_address (hl : l.InMemory width height)
    (h : Visible width height plane row column) : l.base plane ≤ l.address plane row column := by
  rw [(address_eq hl h).1]
  omega

theorem address_ne_of_apart (hl : l.InMemory width height) (hl' : l'.InMemory width height)
    (hapart : l.Apart width height l') (h : Visible width height plane row column)
    (h' : Visible width height plane' row' column') :
    l.address plane row column ≠ l'.address plane' row' column' := by
  have hlow := base_le_address hl h
  have hhigh := (address_eq hl h).2
  have hlow' := base_le_address hl' h'
  have hhigh' := (address_eq hl' h').2
  have hapart := hapart plane plane'
  omega

/-- Two visible bytes of a layout have two addresses. -/
theorem address_injective (hl : l.InMemory width height)
    (hstride : ∀ plane, width.toNat ≤ toSize (l.stride plane))
    (h : Visible width height plane row column) (h' : Visible width height plane' row' column')
    (heq : l.address plane row column = l.address plane' row' column') :
    plane = plane' ∧ row = row' ∧ column = column' := by
  have hlow := base_le_address hl h
  have hlow' := base_le_address hl h'
  obtain ⟨haddress, hhigh⟩ := address_eq hl h
  obtain ⟨haddress', hhigh'⟩ := address_eq hl h'
  have hapart := hl.apart
  by_cases hplane : plane = plane'
  · subst hplane
    refine ⟨rfl, ?_⟩
    rw [haddress, haddress'] at heq
    have hsum : row * toSize (l.stride plane) + column =
        row' * toSize (l.stride plane) + column' := by omega
    exact row_column_eq (Nat.lt_of_lt_of_le h.column_lt (hstride plane))
      (Nat.lt_of_lt_of_le h'.column_lt (hstride plane)) hsum
  · exfalso
    cases plane with
    | luma =>
      cases plane' with
      | luma => exact hplane rfl
      | chroma => omega
    | chroma =>
      cases plane' with
      | luma => omega
      | chroma => exact hplane rfl

end

/-! ## A copy in memory -/

/-- The assignments of a copy from one layout to another. -/
def transfers (src dst : Layout) (ms : List Move) : List (Transfer ℕ) :=
  ms.map fun move => ⟨dst.address move.plane move.row move.column,
    src.address move.plane move.row move.source⟩

/-- The memory after a copy. -/
def Copied.run (copied : Copied) (src : Layout) (memory : ℕ → BitVec 8) : ℕ → BitVec 8 :=
  transferAll memory (transfers src copied.layout copied.moves)

section

variable {width height : BitVec 32} {src dst l : Layout} {same : Bool} {plane : Plane}
  {row column : ℕ} {memory : ℕ → BitVec 8}

theorem columnsOf_le (width : BitVec 32) (same : Bool) (plane : Plane) :
    columnsOf width.toInt same plane ≤ width.toNat := by
  have hint := toNat_toInt width
  cases plane with
  | luma => exact Nat.le_of_eq (toSize_toInt width)
  | chroma =>
    cases same with
    | true => exact Nat.le_of_eq (toSize_toInt width)
    | false =>
      show 2 * (width.toInt.toNat / 2) ≤ _
      split_ifs at hint
      all_goals omega

/-- A byte that is copied comes from one that can be seen. -/
theorem Visible.through (h : Visible width height plane row column)
    (hcolumn : column < columnsOf width.toInt same plane) :
    Visible width height plane row (sourceOf same plane column) :=
  ⟨h.row_lt, Nat.lt_of_lt_of_le (sourceOf_lt hcolumn) (columnsOf_le width same plane)⟩

theorem visible_of_mem_moves {move : Move} (h : move ∈ moves width.toInt height.toInt same) :
    Visible width height move.plane move.row move.column ∧
      Visible width height move.plane move.row move.source := by
  rw [mem_moves] at h
  obtain ⟨hrow, hcolumn, hsource⟩ := h
  have hvisible : Visible width height move.plane move.row move.column :=
    ⟨hrow, Nat.lt_of_lt_of_le hcolumn (columnsOf_le width same move.plane)⟩
  rw [hsource]
  exact ⟨hvisible, hvisible.through hcolumn⟩

/-- A buffer that is apart from the destination keeps its bytes. -/
theorem run_of_apart (hl : l.InMemory width height) (hdst : dst.InMemory width height)
    (hapart : l.Apart width height dst) (h : Visible width height plane row column) :
    (⟨dst, moves width.toInt height.toInt same⟩ : Copied).run src memory
      (l.address plane row column) = memory (l.address plane row column) := by
  refine transferAll_of_not_mem fun t ht => ?_
  obtain ⟨move, hmove, rfl⟩ := List.mem_map.mp ht
  exact address_ne_of_apart hl hdst hapart h (visible_of_mem_moves hmove).1

variable (hsrc : src.InMemory width height) (hdst : dst.InMemory width height)
  (hapart : src.Apart width height dst)
  (hstride : ∀ plane, width.toNat ≤ toSize (dst.stride plane))

include hsrc hdst hapart in
theorem separate_transfers :
    Separate (transfers src dst (moves width.toInt height.toInt same)) := by
  intro t ht t' ht'
  obtain ⟨move, hmove, rfl⟩ := List.mem_map.mp ht
  obtain ⟨move', hmove', rfl⟩ := List.mem_map.mp ht'
  exact address_ne_of_apart hsrc hdst hapart (visible_of_mem_moves hmove).2
    (visible_of_mem_moves hmove').1

include hdst hstride in
theorem functional_transfers :
    Functional (transfers src dst (moves width.toInt height.toInt same)) := by
  intro t ht t' ht' heq
  obtain ⟨move, hmove, rfl⟩ := List.mem_map.mp ht
  obtain ⟨move', hmove', rfl⟩ := List.mem_map.mp ht'
  obtain ⟨hplane, hrow, hcolumn⟩ := address_injective hdst hstride
    (visible_of_mem_moves hmove).1 (visible_of_mem_moves hmove').1 heq
  have hsource := ((mem_moves _ _ _ move).mp hmove).2.2
  have hsource' := ((mem_moves _ _ _ move').mp hmove').2.2
  dsimp only
  rw [hsource, hsource', hplane, hrow, hcolumn]

include hsrc hdst hapart hstride in
/-- **A byte that can be seen** comes from its place in the source, unless the column is
    left out. -/
theorem run_eq (h : Visible width height plane row column) :
    (⟨dst, moves width.toInt height.toInt same⟩ : Copied).run src memory
      (dst.address plane row column) =
    if column < columnsOf width.toInt same plane then
      memory (src.address plane row (sourceOf same plane column))
    else memory (dst.address plane row column) := by
  split_ifs with hcolumn
  · have hmem : (⟨dst.address plane row column,
        src.address plane row (sourceOf same plane column)⟩ : Transfer ℕ) ∈
        transfers src dst (moves width.toInt height.toInt same) := by
      refine List.mem_map.mpr ⟨⟨plane, row, column, sourceOf same plane column⟩, ?_, rfl⟩
      rw [mem_moves]
      exact ⟨h.row_lt, hcolumn, rfl⟩
    exact transferAll_of_mem (separate_transfers hsrc hdst hapart)
      (functional_transfers hdst hstride) hmem
  · refine transferAll_of_not_mem fun t ht heq => ?_
    obtain ⟨move, hmove, rfl⟩ := List.mem_map.mp ht
    obtain ⟨rfl, rfl, rfl⟩ := address_injective hdst hstride h (visible_of_mem_moves hmove).1 heq
    exact hcolumn ((mem_moves _ _ _ move).mp hmove).2.1

end

/-! ## The relay -/

/-- A frame of `a` can be copied into `b` and from there into `c`, and directly into `c`;
    the planes of the three buffers are in memory and apart. -/
structure Relayed (width height : BitVec 32) (a b c : Buffer) (toB fromB direct : Copied) :
    Prop where
  first : copyPreviewToStream a.source width height b.destination = (some toB, true)
  second : copyPreviewToStream b.source width height c.destination = (some fromB, true)
  straight : copyPreviewToStream a.source width height c.destination = (some direct, true)
  inMemory : ∀ l ∈ [a.source, toB.layout, direct.layout], l.InMemory width height
  apart : [a.source, toB.layout, direct.layout].Pairwise (Layout.Apart width height)

/-- The frame that arrives in `c` over `b` is the one that arrives directly. -/
def ArrivesAlike (width height : BitVec 32) (a b : Buffer) (toB fromB direct : Copied) : Prop :=
  ∀ (memory : ℕ → BitVec 8) (plane : Plane) (row column : ℕ),
    Visible width height plane row column →
      fromB.run b.source (toB.run a.source memory) (direct.layout.address plane row column) =
        direct.run a.source memory (direct.layout.address plane row column)

/-- No chroma byte is left out on the way to `b`. -/
def WholePairs (width height : BitVec 32) (a b : Buffer) : Prop :=
  width.toNat % 2 = 0 ∨ a.source.isNv21 = b.source.isNv21 ∨ rowsOf height.toInt .chroma = 0

section

variable {width height : BitVec 32} {plane : Plane} {row column : ℕ}

theorem toSize_of_nonneg {z : ℤ} (hlow : 0 ≤ z) (hhigh : z < word) : toSize z = z.toNat := by
  unfold toSize
  rw [Int.emod_eq_of_lt hlow hhigh]

/-- The two strides of a destination are one `int`. -/
theorem stride_destinationLayout {hnd : PrivateHandle} {planes : LockedPlanes} {height : ℤ}
    {layout : Layout} (h : destinationLayout hnd planes width.toInt height = some layout)
    (plane : Plane) : layout.stride plane = layout.yStride ∧ layout.yStride < 2 ^ 31 := by
  have hstride : (if hnd.stride.toInt > 0 then hnd.stride.toInt else width.toInt) < 2 ^ 31 := by
    split_ifs
    · exact BitVec.toInt_lt
    · exact BitVec.toInt_lt
  unfold destinationLayout at h
  cases hformat : hnd.format with
  | other =>
    rw [hformat] at h
    cases h
  | _ =>
    rw [hformat] at h
    obtain rfl := Option.some.inj h
    cases plane <;> exact ⟨rfl, hstride⟩

/-- What is known of a copy into a buffer. -/
theorem copied_eq {src : Layout} {b : Buffer} {copied : Copied} {answer : Bool}
    (h : copyPreviewToStream src width height b.destination = (some copied, answer)) :
    destinationLayout b.handle b.planes width.toInt height.toInt = some copied.layout ∧
      copied.moves = moves width.toInt height.toInt (copied.layout.isNv21 == src.isNv21) ∧
      width.toInt ≤ copied.layout.yStride := by
  obtain ⟨hadmitted, hmoves⟩ := copyPreviewToStream_eq_some h
  obtain ⟨hnd, planes, hhandle, hlock, hlayout, -, -, -, -, -, hstride, -⟩ :=
    admitted_eq_some hadmitted
  obtain rfl := Option.some.inj hhandle
  obtain rfl := Option.some.inj hlock
  exact ⟨hlayout, hmoves, hstride⟩

/-- The rows of a destination do not overlap. -/
theorem le_stride {src : Layout} {b : Buffer} {copied : Copied} {answer : Bool}
    (h : copyPreviewToStream src width height b.destination = (some copied, answer))
    (hwidth : width.toNat < 2 ^ 31) (plane : Plane) :
    width.toNat ≤ toSize (copied.layout.stride plane) := by
  obtain ⟨hlayout, -, hle⟩ := copied_eq h
  obtain ⟨hstride, hlt⟩ := stride_destinationLayout hlayout plane
  have hint : width.toInt = width.toNat := by
    rw [BitVec.toInt_eq_toNat_cond, if_pos (by omega)]
  rw [hstride, toSize_of_nonneg (by omega) (by unfold word; omega)]
  omega

/-- All the columns are copied, except where pairs are swapped and a column is left
    over. -/
theorem columnsOf_eq (hwidth : width.toNat < 2 ^ 31) {same : Bool}
    (h : plane = .luma ∨ same = true ∨ width.toNat % 2 = 0) :
    columnsOf width.toInt same plane = width.toNat := by
  cases plane with
  | luma => exact toSize_toInt width
  | chroma =>
    cases same with
    | true => exact toSize_toInt width
    | false =>
      show 2 * (width.toInt.toNat / 2) = _
      rw [toNat_toInt, if_pos hwidth]
      obtain h | h | h := h
      · cases h
      · cases h
      · omega

theorem columnsOf_swapped (hwidth : width.toNat < 2 ^ 31) (hodd : width.toNat % 2 ≠ 0) :
    columnsOf width.toInt false .chroma = width.toNat - 1 := by
  show 2 * (width.toInt.toNat / 2) = _
  rw [toNat_toInt, if_pos hwidth]
  omega

/-- Two copies swap the bytes of a pair as often as the direct one, up to twice. -/
theorem sourceOf_sourceOf_order (a b c : Bool) (plane : Plane) (column : ℕ) :
    sourceOf (b == a) plane (sourceOf (c == b) plane column) = sourceOf (c == a) plane column := by
  cases plane with
  | luma => rfl
  | chroma =>
    cases a <;> cases b <;> cases c <;> first | rfl | exact partner_partner column

/-- Three buffers of such rows are not in memory. -/
theorem width_lt {l l' l'' : Layout} (hl : l.InMemory width height)
    (hl' : l'.InMemory width height) (hl'' : l''.InMemory width height)
    (hapart : l.Apart width height l') (hapart' : l.Apart width height l'')
    (hapart'' : l'.Apart width height l'') : width.toNat < 2 ^ 31 := by
  have h (l : Layout) : l.base .luma + width.toNat ≤ l.stop width height .luma := by
    unfold Layout.stop
    omega
  have hstop := hl.stop_le .luma
  have hstop' := hl'.stop_le .luma
  have hstop'' := hl''.stop_le .luma
  have hluma := hapart .luma .luma
  have hluma' := hapart' .luma .luma
  have hluma'' := hapart'' .luma .luma
  have hl := h l
  have hl' := h l'
  have hl'' := h l''
  unfold word at hstop hstop' hstop''
  omega

theorem Layout.Apart.symm {l l' : Layout} (h : l.Apart width height l') :
    l'.Apart width height l :=
  fun p q => (h q p).symm

end

/-! ### The bytes that arrive -/

section

variable {width height : BitVec 32} {a b c : Buffer} {toB fromB direct : Copied}
  {plane : Plane} {row column : ℕ} {memory : ℕ → BitVec 8}

/-- The parts of a relay. -/
structure Parts (width height : BitVec 32) (a : Layout) (toB fromB direct : Copied) : Prop where
  inMemoryA : a.InMemory width height
  inMemoryB : toB.layout.InMemory width height
  inMemoryC : direct.layout.InMemory width height
  ab : a.Apart width height toB.layout
  ac : a.Apart width height direct.layout
  bc : toB.layout.Apart width height direct.layout
  width_lt : width.toNat < 2 ^ 31
  strideB : ∀ plane, width.toNat ≤ toSize (toB.layout.stride plane)
  strideC : ∀ plane, width.toNat ≤ toSize (direct.layout.stride plane)
  first : toB = ⟨toB.layout, moves width.toInt height.toInt (toB.layout.isNv21 == a.isNv21)⟩
  second : fromB = ⟨direct.layout,
    moves width.toInt height.toInt (direct.layout.isNv21 == toB.layout.isNv21)⟩
  straight : direct =
    ⟨direct.layout, moves width.toInt height.toInt (direct.layout.isNv21 == a.isNv21)⟩

theorem Relayed.parts (h : Relayed width height a b c toB fromB direct)
    (hb : b.source = toB.layout) : Parts width height a.source toB fromB direct := by
  obtain ⟨hfirst, hsecond, hstraight, hmemory, hapart⟩ := h
  simp only [List.mem_cons, List.not_mem_nil, or_false, forall_eq_or_imp, forall_eq] at hmemory
  obtain ⟨hA, hB, hC⟩ := hmemory
  simp only [List.pairwise_cons, List.mem_cons, List.not_mem_nil, or_false, forall_eq_or_imp,
    forall_eq, false_implies, implies_true, List.Pairwise.nil, and_true] at hapart
  obtain ⟨⟨hab, hac⟩, hbc⟩ := hapart
  have hwidth := width_lt hA hB hC hab hac hbc
  obtain ⟨-, hmovesB, -⟩ := copied_eq hfirst
  obtain ⟨hlayout, hmoves, -⟩ := copied_eq hsecond
  obtain ⟨hlayoutC, hmovesC, -⟩ := copied_eq hstraight
  have hlayouts : fromB.layout = direct.layout := Option.some.inj (hlayout.symm.trans hlayoutC)
  refine ⟨hA, hB, hC, hab, hac, hbc, hwidth, le_stride hfirst hwidth, le_stride hstraight hwidth,
    ?_, ?_, ?_⟩
  · rw [← hmovesB]
  · rw [← hb, ← hlayouts, ← hmoves]
  · rw [← hmovesC]

/-- A byte of `c` that arrives directly. -/
theorem Parts.direct_eq {a : Layout} (h : Parts width height a toB fromB direct)
    (hvisible : Visible width height plane row column) :
    direct.run a memory (direct.layout.address plane row column) =
      if column < columnsOf width.toInt (direct.layout.isNv21 == a.isNv21) plane then
        memory (a.address plane row
          (sourceOf (direct.layout.isNv21 == a.isNv21) plane column))
      else memory (direct.layout.address plane row column) := by
  have hdirect : direct.run a memory = Copied.run ⟨direct.layout, moves width.toInt height.toInt
      (direct.layout.isNv21 == a.isNv21)⟩ a memory := by rw [← h.straight]
  rw [hdirect]
  exact run_eq h.inMemoryA h.inMemoryC h.ac h.strideC hvisible

/-- A byte of `c` that arrives over `b`. -/
theorem Parts.relay_eq {a : Layout} (h : Parts width height a toB fromB direct)
    (hvisible : Visible width height plane row column) :
    fromB.run toB.layout (toB.run a memory) (direct.layout.address plane row column) =
      if column < columnsOf width.toInt (direct.layout.isNv21 == toB.layout.isNv21) plane then
        if sourceOf (direct.layout.isNv21 == toB.layout.isNv21) plane column <
            columnsOf width.toInt (toB.layout.isNv21 == a.isNv21) plane then
          memory (a.address plane row (sourceOf (direct.layout.isNv21 == a.isNv21) plane column))
        else memory (toB.layout.address plane row
          (sourceOf (direct.layout.isNv21 == toB.layout.isNv21) plane column))
      else memory (direct.layout.address plane row column) := by
  have hfirst : toB.run a memory = Copied.run ⟨toB.layout, moves width.toInt height.toInt
      (toB.layout.isNv21 == a.isNv21)⟩ a memory := by rw [← h.first]
  have hsecond (memory : ℕ → BitVec 8) : fromB.run toB.layout memory =
      Copied.run ⟨direct.layout, moves width.toInt height.toInt
        (direct.layout.isNv21 == toB.layout.isNv21)⟩ toB.layout memory := by rw [← h.second]
  rw [hsecond, run_eq h.inMemoryB h.inMemoryC h.bc h.strideC hvisible, hfirst]
  split_ifs with hcolumn hsource
  · rw [run_eq h.inMemoryA h.inMemoryB h.ab h.strideB (hvisible.through hcolumn),
      if_pos hsource, sourceOf_sourceOf_order]
  · rw [run_eq h.inMemoryA h.inMemoryB h.ab h.strideB (hvisible.through hcolumn),
      if_neg hsource]
  · exact run_of_apart h.inMemoryC h.inMemoryB h.bc.symm hvisible

/-- Frames whose pairs are whole arrive alike. -/
theorem Parts.arrives {a : Layout} (h : Parts width height a toB fromB direct)
    (hpairs : width.toNat % 2 = 0 ∨ a.isNv21 = toB.layout.isNv21 ∨
      rowsOf height.toInt .chroma = 0)
    (hvisible : Visible width height plane row column) :
    fromB.run toB.layout (toB.run a memory) (direct.layout.address plane row column) =
      direct.run a memory (direct.layout.address plane row column) := by
  rw [h.relay_eq hvisible, h.direct_eq hvisible]
  by_cases hfull : plane = .luma ∨ width.toNat % 2 = 0
  · have hcolumns (same : Bool) : columnsOf width.toInt same plane = width.toNat :=
      columnsOf_eq h.width_lt (hfull.elim .inl fun heven => .inr (.inr heven))
    have hsource : sourceOf (direct.layout.isNv21 == toB.layout.isNv21) plane column <
        width.toNat :=
      (hvisible.through (by rw [hcolumns]; exact hvisible.column_lt)).column_lt
    rw [hcolumns, hcolumns, hcolumns, if_pos hvisible.column_lt, if_pos hsource,
      if_pos hvisible.column_lt]
  · obtain ⟨hchroma, hodd⟩ := not_or.mp hfull
    have horder : a.isNv21 = toB.layout.isNv21 := by
      obtain heven | horder | hrows := hpairs
      · exact absurd heven hodd
      · exact horder
      · cases plane with
        | luma => exact absurd rfl hchroma
        | chroma => exact absurd hvisible.row_lt (by omega)
    have hcolumns : columnsOf width.toInt (toB.layout.isNv21 == a.isNv21) plane =
        width.toNat := by
      refine columnsOf_eq h.width_lt (.inr (.inl ?_))
      rw [horder, beq_self_eq_true]
    rw [hcolumns, ← horder]
    split_ifs with hcolumn hsource
    · rfl
    · exact absurd (hvisible.through hcolumn).column_lt hsource
    · rfl

/-- A last column that is left out on the way to `b` does not arrive as it would
    directly. -/
theorem Parts.exists_differs {a : Layout} (h : Parts width height a toB fromB direct)
    (hodd : width.toNat % 2 ≠ 0) (horder : a.isNv21 ≠ toB.layout.isNv21)
    (hrows : rowsOf height.toInt .chroma ≠ 0) :
    ∃ memory, fromB.run toB.layout (toB.run a memory)
        (direct.layout.address .chroma 0 (width.toNat - 1)) ≠
      direct.run a memory (direct.layout.address .chroma 0 (width.toNat - 1)) := by
  have hvisible : Visible width height .chroma 0 (width.toNat - 1) := ⟨by omega, by omega⟩
  have hab : (toB.layout.isNv21 == a.isNv21) = false := beq_eq_false_iff_ne.mpr horder.symm
  by_cases hbc : direct.layout.isNv21 = toB.layout.isNv21
  · -- what arrives is what `b` had, and directly the byte of `c` is left
    refine ⟨fun address =>
      if address = toB.layout.address .chroma 0 (width.toNat - 1) then 1 else 0, ?_⟩
    have hsource : sourceOf true .chroma (width.toNat - 1) = width.toNat - 1 := rfl
    have hne := address_ne_of_apart h.inMemoryC h.inMemoryB h.bc.symm hvisible hvisible
    rw [h.relay_eq hvisible, h.direct_eq hvisible, hbc, hab, beq_self_eq_true,
      columnsOf_eq h.width_lt (.inr (.inl rfl)), columnsOf_swapped h.width_lt hodd, hsource,
      if_pos hvisible.column_lt, if_neg (Nat.lt_irrefl _), if_neg (Nat.lt_irrefl _), if_neg hne,
      if_pos rfl]
    decide
  · -- the byte of `c` is left, and directly the one of `a` arrives
    have hca : direct.layout.isNv21 = a.isNv21 := by
      revert hbc horder
      cases direct.layout.isNv21 <;> cases toB.layout.isNv21 <;> cases a.isNv21 <;> decide
    refine ⟨fun address =>
      if address = direct.layout.address .chroma 0 (width.toNat - 1) then 1 else 0, ?_⟩
    have hsource : sourceOf true .chroma (width.toNat - 1) = width.toNat - 1 := rfl
    have hne := address_ne_of_apart h.inMemoryA h.inMemoryC h.ac hvisible hvisible
    rw [h.relay_eq hvisible, h.direct_eq hvisible, beq_eq_false_iff_ne.mpr hbc,
      columnsOf_swapped h.width_lt hodd, if_neg (Nat.lt_irrefl _), hca, beq_self_eq_true,
      columnsOf_eq h.width_lt (.inr (.inl rfl)), if_pos hvisible.column_lt, hsource, if_neg hne,
      if_pos rfl]
    decide

end

/-! ## One layout -/

/-- The chroma plane of a 1920×1080 buffer of 1088 rows. It is written for a stream of 1080
    rows behind these, and read behind the 1088. -/
def paddedBuffer : Buffer := ⟨⟨.yCrCb420Sp, 1920, 1080, 1920, 1088⟩, ⟨4096, 0⟩⟩

/-- A source that such a frame can be copied from. -/
def plainSource : Layout := ⟨16777216, 33554432, 1920, 1920, true⟩

theorem chroma_read_elsewhere :
    admitted plainSource (1920#32).toInt (1080#32).toInt paddedBuffer.destination =
        some ⟨4096, 4096 + 1920 * 1080, 1920, 1920, true⟩ ∧
      paddedBuffer.source = ⟨4096, 4096 + 1920 * 1088, 1920, 1920, true⟩ ∧
      ¬ SameChroma paddedBuffer.source ⟨4096, 4096 + 1920 * 1080, 1920, 1920, true⟩ := by
  refine ⟨by decide, by decide, fun h => ?_⟩
  have hchroma : (4096 + 1920 * 1088 : ℕ) = 4096 + 1920 * 1080 := h.chroma
  omega

/-- **A buffer has one layout** for the sizes at which it is read alike, and then a frame
    arrives over it as it would directly if no column of a pair is left over. -/
theorem one_layout_iff (b : Buffer) (width height : BitVec 32) :
    (∀ layout, destinationLayout b.handle b.planes width.toInt height.toInt = some layout →
      (SameChroma b.source layout ↔ ReadAlike b.handle width.toInt height.toInt)) ∧
    ∀ a c toB fromB direct, Relayed width height a b c toB fromB direct →
      (SameChroma b.source toB.layout ∧ ArrivesAlike width height a b toB fromB direct ↔
        ReadAlike b.handle width.toInt height.toInt ∧ WholePairs width height a b) := by
  refine ⟨fun layout h => readAlike_iff h, fun a c toB fromB direct h => ?_⟩
  obtain ⟨hlayout, -, -⟩ := copied_eq h.first
  rw [readAlike_iff hlayout]
  refine and_congr_right fun hread => ?_
  have hsource := source_eq_of_sameChroma hlayout ((readAlike_iff hlayout).mpr hread)
  have hparts := h.parts hsource
  unfold ArrivesAlike WholePairs
  rw [hsource]
  constructor
  · intro harrives
    by_contra hpairs
    obtain ⟨hodd, hpairs⟩ := not_or.mp hpairs
    obtain ⟨horder, hrows⟩ := not_or.mp hpairs
    obtain ⟨memory, hdiffers⟩ := hparts.exists_differs hodd horder hrows
    exact hdiffers (harrives memory .chroma 0 (width.toNat - 1) ⟨by omega, by omega⟩)
  · intro hpairs memory plane row column hvisible
    exact hparts.arrives hpairs hvisible

/-- A frame of two columns and rows that is relayed through the other order. -/
theorem one_layout_pair :
    ∃ a b c toB fromB direct, Relayed 2 2 a b c toB fromB direct ∧
      a.source.isNv21 ≠ b.source.isNv21 ∧ SameChroma b.source toB.layout ∧
      ArrivesAlike 2 2 a b toB fromB direct := by
  have hrelayed : Relayed 2 2 ⟨⟨.exynosYCbCr420SpM, 2, 2, 2, 2⟩, ⟨100, 200⟩⟩
      ⟨⟨.yCrCb420Sp, 2, 2, 2, 0⟩, ⟨300, 0⟩⟩ ⟨⟨.exynosYCbCr420SpM, 2, 2, 2, 2⟩, ⟨500, 600⟩⟩
      ⟨⟨300, 304, 2, 2, true⟩, moves 2 2 false⟩ ⟨⟨500, 600, 2, 2, false⟩, moves 2 2 false⟩
      ⟨⟨500, 600, 2, 2, false⟩, moves 2 2 true⟩ := by
    refine ⟨rfl, rfl, rfl, fun l hl => ?_, ?_⟩
    · simp only [List.mem_cons, List.not_mem_nil, or_false] at hl
      obtain rfl | rfl | rfl := hl
      all_goals exact ⟨fun plane => by cases plane <;> decide, by decide⟩
    · refine .cons (fun l hl => ?_) (.cons (fun l hl => ?_) (List.pairwise_singleton _ _))
      all_goals
        simp only [List.mem_cons, List.not_mem_nil, or_false] at hl
      · obtain rfl | rfl := hl
        all_goals exact fun p q => by cases p <;> cases q <;> decide
      · obtain rfl := hl
        exact fun p q => by cases p <;> cases q <;> decide
  have halike : ReadAlike ⟨.yCrCb420Sp, 2, 2, 2, 0⟩ (2#32).toInt (2#32).toInt :=
    ⟨.inl (by decide), fun _ => by decide, fun h => GrallocFormat.noConfusion h⟩
  obtain ⟨hsame, harrives⟩ :=
    ((one_layout_iff _ 2 2).2 _ _ _ _ _ hrelayed).mpr ⟨halike, .inl (by decide)⟩
  exact ⟨_, _, _, _, _, _, hrelayed, by decide, hsame, harrives⟩

end Pro5Android.Camera
