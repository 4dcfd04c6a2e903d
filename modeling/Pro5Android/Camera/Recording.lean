import Pro5Android.Camera.Device
import Pro5Android.Camera.PreviewFrame
import Mathlib.Data.List.Nodup

/-!
# The recording callback

`m86_data_timestamp_cb` of `camera_m86_module.cpp` (lines 1308–1402) gets a video frame of
the running engine as an entry of a callback heap. It clones the handle in the entry, takes
a video request, maps the two planes of the frame, copies them, and gives the entry back to
the engine.

What the callback does to the engine, to the address space and to the framework is a list
of effects. What the system calls answer is given beside the frame. A mapping has the
length that it was asked for; `mmap` refuses the length zero and never answers the null
address.

Results:
* `unmapped_perm`: the mappings are undone.
* `answered_eq`: the request is answered.
* `reads_within_iff`: when the planes are read inside their mappings.
* `clone_fails_unreleased`: an entry that is not given back.
* `balanced_iff`: the frames for which everything is balanced.
-/

namespace Pro5Android.Camera

open Lib

/-! ## The frame -/

/-- `native_handle_t`; its first two words are the descriptors of the planes. -/
structure NativeHandle where
  numFds : ℤ
  numInts : ℤ
  yFd : ℤ
  chromaFd : ℤ

/-- `VideoNativeHandleMetadata`: whether `eType` is `kMetadataBufferTypeNativeHandleSource`,
    and `pHandle`. -/
structure VideoMetadata where
  isHandleSource : Bool
  handle : Option NativeHandle

/-- `sizeof(VideoNativeHandleMetadata)`: a tag and a pointer. -/
def metadataSize : ℕ := 8

/-- A video frame of the engine. -/
structure VideoFrame where
  memory : CameraMemory
  index : BitVec 32
  metadata : VideoMetadata

/-- What is answered to the callback: the clone of the handle; the size of the stream of a
    request and its buffer; `st_size` of the two planes, unless `fstat` fails; and where
    `mmap` puts them. -/
structure CallbackAnswer where
  clone : Option NativeHandle
  size : StreamRequest → BitVec 32 × BitVec 32
  destination : StreamRequest → Destination
  fstat : Plane → Option ℤ
  mmap : Plane → Option { address : ℕ // 0 < address }

/-- A piece of the address space. -/
structure Block where
  address : ℕ
  length : ℕ
  deriving DecidableEq

inductive Effect
  | dequeue (request : StreamRequest)
  | map (plane : Plane) (block : Block)
  | copy (src : Layout) (copied : Copied)
  | unmap (plane : Plane) (block : Block)
  | answer (request : StreamRequest) (success : Bool)
  | release (entry : ℕ) (handle : NativeHandle)

/-! ## The callback -/

/-- `(z + 15) & ~15`. -/
def align16 (z : ℤ) : ℤ := wrapInt (z + 15) - wrapInt (z + 15) % 16

/-- `y_size` and `chroma_size`. -/
def planeSize (width height : ℤ) : Plane → ℕ
  | .luma => toSize (align16 width) * toSize (align16 height) % word
  | .chroma => toSize (align16 width) * toSize (align16 (chromaHeight height)) % word

/-- `fstat` succeeds, and the size is unknown or large enough. -/
def sizeValid (stat : Option ℤ) (size : ℕ) : Bool :=
  stat.any fun stSize => stSize = 0 ∨ size ≤ toSize stSize

/-- `sizes_valid`. -/
def CallbackAnswer.sizesValid (x : CallbackAnswer) (width height : ℤ) : Bool :=
  sizeValid (x.fstat .luma) (planeSize width height .luma) &&
    sizeValid (x.fstat .chroma) (planeSize width height .chroma)

/-- `src_y` and `src_chroma`; `none` is `MAP_FAILED`. -/
def CallbackAnswer.mapPlane (x : CallbackAnswer) (width height : ℤ) (plane : Plane) :
    Option Block :=
  if x.sizesValid width height ∧ planeSize width height plane ≠ 0 then
    (x.mmap plane).map fun address => ⟨address, planeSize width height plane⟩
  else none

/-- The layout of the mapped planes. -/
def recordingLayout (y chroma : Block) (width : ℤ) : Layout :=
  ⟨y.address, chroma.address, align16 width, align16 width, true⟩

/-- The effects of `m86_copy_preview_to_stream`. -/
def copyEffects (src : Layout) (width height : BitVec 32) (dst : Destination)
    (pending : StreamRequest) : List Effect :=
  let (copied, success) := copyPreviewToStream src width height dst
  (copied.map (Effect.copy src)).toList ++ [.answer pending success]

/-- What is done with a request (lines 1361–1399). -/
def serveVideo (x : CallbackAnswer) (pending : StreamRequest) : List Effect :=
  let (width, height) := x.size pending
  let y := x.mapPlane width.toInt height.toInt .luma
  let chroma := x.mapPlane width.toInt height.toInt .chroma
  let maps := (y.map (Effect.map .luma)).toList ++ (chroma.map (Effect.map .chroma)).toList
  match y, chroma with
  | some yBlock, some chromaBlock =>
    maps ++ copyEffects (recordingLayout yBlock chromaBlock width.toInt) width height
      (x.destination pending) pending ++ [.unmap .chroma chromaBlock, .unmap .luma yBlock]
  | _, _ =>
    maps ++ (y.map (Effect.unmap .luma)).toList ++ (chroma.map (Effect.unmap .chroma)).toList ++
      [.answer pending false]

/-- `m86_data_timestamp_cb` on a video frame; `metadata` is the address of its entry. -/
def dataTimestampCb (d : Device) (frame : VideoFrame) (x : CallbackAnswer) :
    List Effect × Device :=
  if frame.index.toNat ≥ frame.memory.numBuffers.toNat ∨
      frame.memory.bufferSize.toNat < metadataSize then ([], d)
  else
    let metadata := frame.memory.frame frame.index
    match frame.metadata.handle with
    | none => ([], d)
    | some sourceHandle =>
      if frame.metadata.isHandleSource = false ∨ sourceHandle.numFds < 2 ∨
          sourceHandle.numInts < 1 then ([], d)
      else
        match x.clone with
        | none => ([], d)
        | some releaseHandle =>
          match d.dequeueStreamRequest true with
          | none => ([.release metadata releaseHandle], d)
          | some (pending, d') =>
            (.dequeue pending :: serveVideo x pending ++ [.release metadata releaseHandle], d')

/-! ## Balance -/

namespace Effect

def dequeued : Effect → Option StreamRequest
  | .dequeue request => some request
  | _ => none

def answered : Effect → Option StreamRequest
  | .answer request _ => some request
  | _ => none

def mapped : Effect → Option (Plane × Block)
  | .map plane block => some (plane, block)
  | _ => none

def unmapped : Effect → Option (Plane × Block)
  | .unmap plane block => some (plane, block)
  | _ => none

def released : Effect → Option ℕ
  | .release entry _ => some entry
  | _ => none

end Effect

/-- Every byte that a copy reads is inside the mapping of its plane, which has been made and
    not undone. -/
def ReadsInside (log : List Effect) : Prop :=
  ∀ before src copied after, log = before ++ .copy src copied :: after →
    ∀ move ∈ copied.moves, ∃ block, .map move.plane block ∈ before ∧
      .unmap move.plane block ∉ before ∧
      block.address ≤ src.address move.plane move.row move.source ∧
      src.address move.plane move.row move.source < block.address + block.length

/-- The entry is given back once, what is mapped is unmapped once, the planes are read inside
    their mappings, and a request that is taken is answered once. -/
structure Balanced (entry : ℕ) (log : List Effect) : Prop where
  released : log.filterMap Effect.released = [entry]
  mappedOnce : (log.filterMap Effect.mapped).Nodup
  unmapped : (log.filterMap Effect.unmapped).Perm (log.filterMap Effect.mapped)
  inside : ReadsInside log
  answered : log.filterMap Effect.answered = log.filterMap Effect.dequeued

/-- The last row of each plane ends inside what is mapped. -/
def PlanesFit (width height : BitVec 32) (same : Bool) : Prop :=
  ∀ plane, rowsOf height.toInt plane = 0 ∨ columnsOf width.toInt same plane = 0 ∨
    (rowsOf height.toInt plane - 1) * toSize (align16 width.toInt) +
      columnsOf width.toInt same plane ≤ planeSize width.toInt height.toInt plane

/-- The entry is one of the heap. -/
structure VideoFrame.InHeap (frame : VideoFrame) : Prop where
  index_lt : frame.index.toNat < frame.memory.numBuffers.toNat
  size_le : metadataSize ≤ frame.memory.bufferSize.toNat

/-- The entry holds a handle of two planes. -/
def VideoFrame.WellFormed (frame : VideoFrame) : Prop :=
  frame.metadata.isHandleSource = true ∧
    ∃ handle, frame.metadata.handle = some handle ∧ 2 ≤ handle.numFds ∧ 1 ≤ handle.numInts

/-- The planes of a request that is copied are read inside what is mapped. -/
def CallbackAnswer.CopyFits (x : CallbackAnswer) (pending : StreamRequest) : Prop :=
  ∀ y chroma layout,
    x.mapPlane (x.size pending).1.toInt (x.size pending).2.toInt .luma = some y →
    x.mapPlane (x.size pending).1.toInt (x.size pending).2.toInt .chroma = some chroma →
    admitted (recordingLayout y chroma (x.size pending).1.toInt) (x.size pending).1.toInt
      (x.size pending).2.toInt (x.destination pending) = some layout →
    PlanesFit (x.size pending).1 (x.size pending).2 (x.destination pending).isNv21

/-! ### Sizes -/

section

variable {width height : BitVec 32}

theorem toSize_align16_le (b : BitVec 32) : toSize (align16 b.toInt) ≤ b.toNat + 15 := by
  have hwrap : wrapInt (b.toInt + 15) % word = (b.toInt + 15) % word := Int.bmod_emod
  have hint := BitVec.toInt_eq_toNat_cond b
  unfold toSize align16
  unfold word at hwrap ⊢
  split_ifs at hint
  all_goals omega

theorem toSize_align16_mod (z : ℤ) : toSize (align16 z) % 16 = 0 := by
  unfold toSize align16 word
  omega

/-- A plane is far enough below `2^32`. -/
theorem planeSize_le (width height : ℤ) (plane : Plane) :
    planeSize width height plane + 256 ≤ word := by
  have h (w z : ℤ) : toSize (align16 w) * toSize (align16 z) % word + 256 ≤ word := by
    obtain ⟨a, ha⟩ := Nat.dvd_of_mod_eq_zero (toSize_align16_mod w)
    obtain ⟨b, hb⟩ := Nat.dvd_of_mod_eq_zero (toSize_align16_mod z)
    have hproduct : 16 * a * (16 * b) = 256 * (a * b) := by
      rw [Nat.mul_mul_mul_comm]
    rw [ha, hb, hproduct]
    unfold word
    omega
  cases plane with
  | luma => exact h width height
  | chroma => exact h width (chromaHeight height)

theorem toSize_recordingLayout (y chroma : Block) (plane : Plane) :
    toSize ((recordingLayout y chroma width.toInt).stride plane) =
      toSize (align16 width.toInt) := by
  cases plane <;> rfl

/-- The stride exceeds the columns of a row that is copied by less than the alignment of a
    plane. -/
theorem align16_lt_columnsOf {same : Bool} {plane : Plane}
    (h : columnsOf width.toInt same plane ≠ 0) :
    toSize (align16 width.toInt) < columnsOf width.toInt same plane + 256 := by
  have hle := toSize_align16_le width
  cases plane with
  | luma =>
    rw [columnsOf_luma] at h ⊢
    omega
  | chroma =>
    rw [columnsOf_chroma] at h ⊢
    split_ifs at h ⊢
    all_goals omega

/-- **A plane is read inside its mapping** if its last row ends there. -/
theorem reads_within_iff (y chroma block : Block) (height : BitVec 32) (same : Bool)
    (plane : Plane)
    (hbase : (recordingLayout y chroma width.toInt).base plane = block.address)
    (hlength : block.length = planeSize width.toInt height.toInt plane) :
    (∀ move ∈ moves width.toInt height.toInt same, move.plane = plane →
      block.address ≤ (recordingLayout y chroma width.toInt).address plane move.row move.source ∧
        (recordingLayout y chroma width.toInt).address plane move.row move.source <
          block.address + block.length) ↔
    rowsOf height.toInt plane = 0 ∨ columnsOf width.toInt same plane = 0 ∨
      (rowsOf height.toInt plane - 1) * toSize (align16 width.toInt) +
        columnsOf width.toInt same plane ≤ planeSize width.toInt height.toInt plane := by
  have hsize := planeSize_le width.toInt height.toInt plane
  by_cases hcolumns : columnsOf width.toInt same plane = 0
  · refine iff_of_true (fun move hmove hplane => ?_) (.inr (.inl hcolumns))
    rw [mem_moves, hplane] at hmove
    omega
  · have hstride := align16_lt_columnsOf hcolumns
    rw [hlength, moves_within_iff _ (by rw [hbase, Nat.add_zero]) (by omega)
      (by rw [toSize_recordingLayout]; omega), toSize_recordingLayout, Nat.zero_add]

end

/-! ### Effects -/

section

variable {d : Device} {frame : VideoFrame} {x : CallbackAnswer} {pending : StreamRequest}
  {src : Layout} {width height : BitVec 32} {dst : Destination}

/-- The copy is refused, or it takes place; the request is answered in both cases. -/
theorem copyEffects_cases (src : Layout) (width height : BitVec 32) (dst : Destination)
    (pending : StreamRequest) :
    (admitted src width.toInt height.toInt dst = none ∧
      copyEffects src width height dst pending = [.answer pending false]) ∨
    ∃ copied success layout, admitted src width.toInt height.toInt dst = some layout ∧
      copied.moves = moves width.toInt height.toInt (dst.isNv21 == src.isNv21) ∧
      copyEffects src width height dst pending =
        [.copy src copied, .answer pending success] := by
  unfold copyEffects
  obtain hadmitted | ⟨layout, hadmitted⟩ := Option.eq_none_or_eq_some
    (admitted src width.toInt height.toInt dst)
  · refine .inl ⟨hadmitted, ?_⟩
    unfold copyPreviewToStream
    rw [hadmitted]
    rfl
  · have hcopied : copyPreviewToStream src width height dst =
        (some ⟨layout, moves width.toInt height.toInt (layout.isNv21 == src.isNv21)⟩,
          dst.unlock) := by
      unfold copyPreviewToStream
      rw [hadmitted]
    refine .inr ⟨_, dst.unlock, layout, hadmitted, (copyPreviewToStream_eq hcopied).1, ?_⟩
    rw [hcopied]
    rfl

/-- What is done with a request: both planes are mapped and the copy is tried, or one of
    them at most is mapped and the request fails. -/
theorem serveVideo_cases (x : CallbackAnswer) (pending : StreamRequest) :
    (∃ y chroma,
      x.mapPlane (x.size pending).1.toInt (x.size pending).2.toInt .luma = some y ∧
      x.mapPlane (x.size pending).1.toInt (x.size pending).2.toInt .chroma = some chroma ∧
      serveVideo x pending = [.map .luma y, .map .chroma chroma] ++
        copyEffects (recordingLayout y chroma (x.size pending).1.toInt) (x.size pending).1
          (x.size pending).2 (x.destination pending) pending ++
        [.unmap .chroma chroma, .unmap .luma y]) ∨
    ((∀ y chroma,
      x.mapPlane (x.size pending).1.toInt (x.size pending).2.toInt .luma = some y →
      x.mapPlane (x.size pending).1.toInt (x.size pending).2.toInt .chroma ≠ some chroma) ∧
      (serveVideo x pending = [.answer pending false] ∨
        ∃ plane block,
          serveVideo x pending = [.map plane block, .unmap plane block, .answer pending false])) := by
  unfold serveVideo
  dsimp only
  obtain hy | ⟨y, hy⟩ := Option.eq_none_or_eq_some
    (x.mapPlane (x.size pending).1.toInt (x.size pending).2.toInt .luma)
  · refine .inr ⟨fun y chroma h => ?_, ?_⟩
    · rw [hy] at h
      cases h
    · obtain hchroma | ⟨chroma, hchroma⟩ := Option.eq_none_or_eq_some
        (x.mapPlane (x.size pending).1.toInt (x.size pending).2.toInt .chroma)
      · rw [hy, hchroma]
        exact .inl rfl
      · rw [hy, hchroma]
        exact .inr ⟨.chroma, chroma, rfl⟩
  · obtain hchroma | ⟨chroma, hchroma⟩ := Option.eq_none_or_eq_some
      (x.mapPlane (x.size pending).1.toInt (x.size pending).2.toInt .chroma)
    · refine .inr ⟨fun y chroma _ h => ?_, ?_⟩
      · rw [hchroma] at h
        cases h
      · rw [hy, hchroma]
        exact .inr ⟨.luma, y, rfl⟩
    · refine .inl ⟨y, chroma, hy, hchroma, ?_⟩
      rw [hy, hchroma]
      rfl

/-- The mappings are undone, and the request is answered, in whatever way it is served. -/
structure Serves (pending : StreamRequest) (log : List Effect) : Prop where
  released : log.filterMap Effect.released = []
  dequeued : log.filterMap Effect.dequeued = []
  answered : log.filterMap Effect.answered = [pending]
  mappedOnce : (log.filterMap Effect.mapped).Nodup
  unmapped : (log.filterMap Effect.unmapped).Perm (log.filterMap Effect.mapped)

theorem serves_serveVideo (x : CallbackAnswer) (pending : StreamRequest) :
    Serves pending (serveVideo x pending) := by
  have hplanes (y chroma : Block) : [(Plane.luma, y), (Plane.chroma, chroma)].Nodup :=
    List.nodup_cons.mpr
      ⟨fun h => absurd (List.mem_singleton.mp h) fun h => Plane.noConfusion (Prod.mk.inj h).1,
        List.nodup_singleton _⟩
  obtain ⟨y, chroma, -, -, hlog⟩ | ⟨-, hlog | ⟨plane, block, hlog⟩⟩ := serveVideo_cases x pending
  · obtain ⟨-, hcopy⟩ | ⟨copied, success, layout, -, -, hcopy⟩ := copyEffects_cases
      (recordingLayout y chroma (x.size pending).1.toInt) (x.size pending).1
      (x.size pending).2 (x.destination pending) pending
    all_goals
      rw [hlog, hcopy]
      exact ⟨rfl, rfl, rfl, hplanes y chroma, .swap _ _ _⟩
  · rw [hlog]
    exact ⟨rfl, rfl, rfl, List.nodup_nil, .refl _⟩
  · rw [hlog]
    exact ⟨rfl, rfl, rfl, List.nodup_singleton _, .refl _⟩

/-! ### Reads -/

/-- Nothing is read where nothing is copied. -/
theorem readsInside_of_no_copy {log : List Effect} (h : ∀ src copied, .copy src copied ∉ log) :
    ReadsInside log := by
  intro before src copied after hlog
  refine absurd ?_ (h src copied)
  rw [hlog]
  exact List.mem_append_right _ List.mem_cons_self

/-- What is read where one copy is made. -/
theorem readsInside_iff_of_copy {before after : List Effect} {src : Layout} {copied : Copied}
    (hbefore : ∀ src copied, .copy src copied ∉ before)
    (hafter : ∀ src copied, .copy src copied ∉ after) :
    ReadsInside (before ++ .copy src copied :: after) ↔
      ∀ move ∈ copied.moves, ∃ block, .map move.plane block ∈ before ∧
        .unmap move.plane block ∉ before ∧
        block.address ≤ src.address move.plane move.row move.source ∧
        src.address move.plane move.row move.source < block.address + block.length := by
  constructor
  · intro h
    exact h before src copied after rfl
  · intro h before' src' copied' after' heq
    obtain ⟨rfl, hcopy, rfl⟩ :=
      (List.append_cons_inj_of_notMem (hbefore src' copied') (hafter src' copied')).mp heq
    obtain ⟨rfl, rfl⟩ := Effect.copy.inj hcopy
    exact h

/-- What is done before the copy. -/
def beforeCopy (pending : StreamRequest) (y chroma : Block) : List Effect :=
  [.dequeue pending, .map .luma y, .map .chroma chroma]

theorem map_mem_beforeCopy {y chroma block : Block} {plane : Plane} :
    .map plane block ∈ beforeCopy pending y chroma ↔
      plane = .luma ∧ block = y ∨ plane = .chroma ∧ block = chroma := by
  unfold beforeCopy
  simp only [List.mem_cons, reduceCtorEq, Effect.map.injEq, List.not_mem_nil, false_or, or_false]

theorem unmap_notMem_beforeCopy {y chroma block : Block} {plane : Plane} :
    .unmap plane block ∉ beforeCopy pending y chroma := by
  unfold beforeCopy
  simp only [List.mem_cons, reduceCtorEq, List.not_mem_nil, or_false, not_false_eq_true]

/-- The mapping of a plane is the one that was made for it. -/
theorem reads_mapped_iff (pending : StreamRequest) {y chroma : Block} {copied : Copied}
    {same : Bool}
    (hmoves : copied.moves = moves width.toInt height.toInt same)
    (hy : y.length = planeSize width.toInt height.toInt .luma)
    (hchroma : chroma.length = planeSize width.toInt height.toInt .chroma) :
    (∀ move ∈ copied.moves, ∃ block,
      .map move.plane block ∈ beforeCopy pending y chroma ∧
      .unmap move.plane block ∉ beforeCopy pending y chroma ∧
      block.address ≤ (recordingLayout y chroma width.toInt).address move.plane move.row
        move.source ∧
      (recordingLayout y chroma width.toInt).address move.plane move.row move.source <
        block.address + block.length) ↔ PlanesFit width height same := by
  rw [hmoves]
  have hluma := reads_within_iff y chroma y height same .luma rfl hy
  have hplane := reads_within_iff y chroma chroma height same .chroma rfl hchroma
  constructor
  · intro h plane
    cases plane with
    | luma =>
      refine hluma.mp fun move hmove hmovePlane => ?_
      obtain ⟨block, hmem, -, hinside⟩ := h move hmove
      rw [hmovePlane, map_mem_beforeCopy] at hmem
      rw [hmovePlane] at hinside
      obtain ⟨-, rfl⟩ | ⟨hne, -⟩ := hmem
      · exact hinside
      · exact Plane.noConfusion hne
    | chroma =>
      refine hplane.mp fun move hmove hmovePlane => ?_
      obtain ⟨block, hmem, -, hinside⟩ := h move hmove
      rw [hmovePlane, map_mem_beforeCopy] at hmem
      rw [hmovePlane] at hinside
      obtain ⟨hne, -⟩ | ⟨-, rfl⟩ := hmem
      · exact Plane.noConfusion hne
      · exact hinside
  · intro h move hmove
    cases hmovePlane : move.plane with
    | luma =>
      refine ⟨y, map_mem_beforeCopy.mpr (.inl ⟨rfl, rfl⟩), unmap_notMem_beforeCopy, ?_⟩
      exact hluma.mpr (h .luma) move hmove hmovePlane
    | chroma =>
      refine ⟨chroma, map_mem_beforeCopy.mpr (.inr ⟨rfl, rfl⟩), unmap_notMem_beforeCopy, ?_⟩
      exact hplane.mpr (h .chroma) move hmove hmovePlane

theorem length_of_mapPlane {plane : Plane} {block : Block} {w h : ℤ}
    (hmap : x.mapPlane w h plane = some block) : block.length = planeSize w h plane := by
  unfold CallbackAnswer.mapPlane at hmap
  split_ifs at hmap
  obtain ⟨address, -, rfl⟩ := Option.map_eq_some_iff.mp hmap
  rfl

/-- A request that is served reads inside its mappings if its planes fit. -/
theorem readsInside_serveVideo_iff (x : CallbackAnswer) (pending : StreamRequest)
    (entry : ℕ) (handle : NativeHandle) :
    ReadsInside (.dequeue pending :: serveVideo x pending ++ [.release entry handle]) ↔
      x.CopyFits pending := by
  unfold CallbackAnswer.CopyFits
  obtain ⟨y, chroma, hy, hchroma, hlog⟩ | ⟨hnone, hlog⟩ := serveVideo_cases x pending
  · obtain ⟨hadmitted, hcopy⟩ | ⟨copied, success, layout, hadmitted, hmoves, hcopy⟩ := copyEffects_cases
      (recordingLayout y chroma (x.size pending).1.toInt) (x.size pending).1
      (x.size pending).2 (x.destination pending) pending
    · -- the copy is refused
      refine iff_of_true (readsInside_of_no_copy fun src copied => ?_) ?_
      · rw [hlog, hcopy]
        simp
      · intro y' chroma' layout hy' hchroma' hadmitted'
        obtain rfl := Option.some.inj (hy.symm.trans hy')
        obtain rfl := Option.some.inj (hchroma.symm.trans hchroma')
        rw [hadmitted] at hadmitted'
        cases hadmitted'
    · have hsame : ((x.destination pending).isNv21 ==
          (recordingLayout y chroma (x.size pending).1.toInt).isNv21) =
          (x.destination pending).isNv21 := by
        show ((x.destination pending).isNv21 == true) = _
        rw [beq_true]
      rw [hsame] at hmoves
      have hreads := reads_mapped_iff pending hmoves (length_of_mapPlane hy)
        (length_of_mapPlane hchroma)
      have hsplit : (.dequeue pending :: serveVideo x pending ++ [.release entry handle] :
          List Effect) = beforeCopy pending y chroma ++
            .copy (recordingLayout y chroma (x.size pending).1.toInt) copied ::
            [.answer pending success, .unmap .chroma chroma, .unmap .luma y,
              .release entry handle] := by
        rw [hlog, hcopy]
        rfl
      rw [hsplit, readsInside_iff_of_copy (by simp [beforeCopy]) (by simp), hreads]
      constructor
      · intro hfit y' chroma' layout' hy' hchroma' hadmitted'
        exact hfit
      · intro hfit
        exact hfit y chroma layout hy hchroma hadmitted
  · refine iff_of_true (readsInside_of_no_copy fun src copied => ?_) ?_
    · obtain hlog | ⟨plane, block, hlog⟩ := hlog
      · rw [hlog]
        simp
      · rw [hlog]
        simp
    · intro y chroma layout hy hchroma
      exact absurd hchroma (hnone y chroma hy)

/-! ### Calls -/

/-- What the callback does with a frame: nothing, or it gives back the entry, after it has
    served a request if there is one. -/
theorem dataTimestampCb_cases (d : Device) (frame : VideoFrame) (x : CallbackAnswer) :
    (¬ (frame.InHeap ∧ frame.WellFormed ∧ x.clone.isSome = true) ∧
      (dataTimestampCb d frame x).1 = []) ∨
    (frame.InHeap ∧ frame.WellFormed ∧ ∃ handle, x.clone = some handle ∧
      ((d.dequeueStreamRequest true = none ∧ (dataTimestampCb d frame x).1 =
        [.release (frame.memory.frame frame.index) handle]) ∨
      ∃ pending d', d.dequeueStreamRequest true = some (pending, d') ∧
        (dataTimestampCb d frame x).1 = .dequeue pending :: serveVideo x pending ++
          [.release (frame.memory.frame frame.index) handle])) := by
  unfold dataTimestampCb
  dsimp only
  split_ifs with hheap
  · exact .inl ⟨fun h => absurd h.1.index_lt (by have hsize := h.1.size_le; omega), rfl⟩
  have hin : frame.InHeap := ⟨by omega, by omega⟩
  cases hhandle : frame.metadata.handle with
  | none =>
    refine .inl ⟨?_, rfl⟩
    rintro ⟨-, ⟨-, handle, hsome, -⟩, -⟩
    rw [hhandle] at hsome
    cases hsome
  | some source =>
    dsimp only
    split_ifs with hmalformed
    · refine .inl ⟨?_, rfl⟩
      rintro ⟨-, ⟨hsource, handle, hsome, hfds, hints⟩, -⟩
      obtain rfl := Option.some.inj (hhandle.symm.trans hsome)
      obtain hfalse | hfew | hfew := hmalformed
      · exact absurd (hfalse.symm.trans hsource) (by decide)
      · omega
      · omega
    · simp only [not_or, Bool.not_eq_false, not_lt] at hmalformed
      have hwell : frame.WellFormed :=
        ⟨hmalformed.1, source, hhandle, hmalformed.2.1, hmalformed.2.2⟩
      cases hclone : x.clone with
      | none => exact .inl ⟨fun h => absurd h.2.2 (by decide), rfl⟩
      | some handle =>
        refine .inr ⟨hin, hwell, handle, rfl, ?_⟩
        cases hdequeue : d.dequeueStreamRequest true with
        | none => exact .inl ⟨rfl, rfl⟩
        | some taken => exact .inr ⟨taken.1, taken.2, rfl, rfl⟩

/-- **The mappings are undone**, whatever is answered. -/
theorem unmapped_perm (d : Device) (frame : VideoFrame) (x : CallbackAnswer) :
    ((dataTimestampCb d frame x).1.filterMap Effect.mapped).Nodup ∧
      ((dataTimestampCb d frame x).1.filterMap Effect.unmapped).Perm
        ((dataTimestampCb d frame x).1.filterMap Effect.mapped) := by
  obtain ⟨-, hlog⟩ | ⟨-, -, handle, -, ⟨-, hlog⟩ | ⟨pending, d', -, hlog⟩⟩ :=
    dataTimestampCb_cases d frame x
  · rw [hlog]
    exact ⟨List.nodup_nil, .refl _⟩
  · rw [hlog]
    exact ⟨List.nodup_nil, .refl _⟩
  · have hserves := serves_serveVideo x pending
    rw [hlog, List.cons_append, List.filterMap_cons_none rfl, List.filterMap_cons_none rfl,
      List.filterMap_append, List.filterMap_append]
    show (_ ++ []).Nodup ∧ (_ ++ []).Perm (_ ++ [])
    rw [List.append_nil, List.append_nil]
    exact ⟨hserves.mappedOnce, hserves.unmapped⟩

/-- **A request that is taken is answered**, whatever is answered to the callback. -/
theorem answered_eq (d : Device) (frame : VideoFrame) (x : CallbackAnswer) :
    (dataTimestampCb d frame x).1.filterMap Effect.answered =
      (dataTimestampCb d frame x).1.filterMap Effect.dequeued := by
  obtain ⟨-, hlog⟩ | ⟨-, -, handle, -, ⟨-, hlog⟩ | ⟨pending, d', -, hlog⟩⟩ :=
    dataTimestampCb_cases d frame x
  · rw [hlog]
    rfl
  · rw [hlog]
    rfl
  · have hserves := serves_serveVideo x pending
    have hrelease : [Effect.release (frame.memory.frame frame.index) handle].filterMap
        Effect.answered = [] := rfl
    rw [hlog, List.cons_append, List.filterMap_cons_none rfl, List.filterMap_append,
      hserves.answered, hrelease]
    show _ = pending :: List.filterMap Effect.dequeued (_ ++ _)
    rw [List.filterMap_append, hserves.dequeued]
    rfl

theorem released_serveVideo (x : CallbackAnswer) (pending : StreamRequest) (entry : ℕ)
    (handle : NativeHandle) :
    List.filterMap Effect.released
      (.dequeue pending :: serveVideo x pending ++ [.release entry handle]) = [entry] := by
  rw [List.cons_append, List.filterMap_cons_none rfl, List.filterMap_append,
    (serves_serveVideo x pending).released]
  rfl

end

/-! ## The frames that are balanced -/

/-- A frame whose handle cannot be cloned. -/
def uncloned : CallbackAnswer where
  clone := none
  size := fun _ => (1920, 1080)
  destination := fun _ => narrowBuffer 1080
  fstat := fun _ => none
  mmap := fun _ => none

/-- The one entry of a heap, with a handle of two planes. -/
def recordedFrame : VideoFrame :=
  ⟨⟨65536, 8, 1⟩, 0, ⟨true, some ⟨2, 1, 20, 21⟩⟩⟩

/-- The entry of a frame whose handle cannot be cloned is not given back. -/
theorem clone_fails_unreleased :
    (dataTimestampCb (Device.opened 0) recordedFrame uncloned).1 = [] ∧
      ¬ Balanced (recordedFrame.memory.frame recordedFrame.index)
        (dataTimestampCb (Device.opened 0) recordedFrame uncloned).1 := by
  refine ⟨rfl, fun h => ?_⟩
  exact List.cons_ne_nil _ _ h.released.symm

/-- **A frame is balanced** if its entry is one of the heap, with a handle of two planes that
    is cloned, and the planes of the request that is copied fit. -/
theorem balanced_iff (d : Device) (frame : VideoFrame) (x : CallbackAnswer) :
    Balanced (frame.memory.frame frame.index) (dataTimestampCb d frame x).1 ↔
      frame.InHeap ∧ frame.WellFormed ∧ x.clone.isSome = true ∧
        ∀ pending d', d.dequeueStreamRequest true = some (pending, d') → x.CopyFits pending := by
  obtain ⟨hmapped, hunmapped⟩ := unmapped_perm d frame x
  have hanswered := answered_eq d frame x
  obtain ⟨hrefused, hlog⟩ | ⟨hheap, hwell, handle, hclone, ⟨hdequeue, hlog⟩ |
    ⟨pending, d', hdequeue, hlog⟩⟩ := dataTimestampCb_cases d frame x
  · refine iff_of_false (fun h => ?_) fun h => hrefused ⟨h.1, h.2.1, h.2.2.1⟩
    have hreleased := h.released
    rw [hlog] at hreleased
    exact List.cons_ne_nil _ _ hreleased.symm
  · refine iff_of_true ⟨?_, hmapped, hunmapped, ?_, hanswered⟩
      ⟨hheap, hwell, by rw [hclone]; rfl, fun pending d' h => ?_⟩
    · rw [hlog]
      rfl
    · rw [hlog]
      exact readsInside_of_no_copy fun src copied => by simp
    · rw [hdequeue] at h
      cases h
  · constructor
    · intro h
      refine ⟨hheap, hwell, by rw [hclone]; rfl, fun pending' d'' h' => ?_⟩
      obtain ⟨rfl, rfl⟩ := Prod.mk.inj (Option.some.inj (hdequeue.symm.trans h'))
      have hinside := h.inside
      rw [hlog] at hinside
      exact (readsInside_serveVideo_iff x pending _ handle).mp hinside
    · rintro ⟨-, -, -, hfits⟩
      refine ⟨?_, hmapped, hunmapped, ?_, hanswered⟩
      · rw [hlog]
        exact released_serveVideo x pending _ handle
      · rw [hlog]
        exact (readsInside_serveVideo_iff x pending _ handle).mpr (hfits pending d' hdequeue)

end Pro5Android.Camera
