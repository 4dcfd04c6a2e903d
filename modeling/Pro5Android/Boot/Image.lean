import Pro5Android.Python.Struct

/-!
# Classic Android boot images

The data model of `tools/repack-android-boot-image.py` (lines 14–93): the header
of a v0 image (`HEADER_FORMAT`, also in the other two tools), `align`, `pad` and
`BootImage.read`. An image is the header and the four components, each padded to
whole pages.

Results:
* `unpackHeader_bytes`, `bytes_unpackHeader`: a header and its 1632 bytes determine
  each other.
* `component_pad`: a padded component, selected by its offset and size.
* `component_align`: a component with zeros up to the next page is padded.
* `read_eq_ok_iff`: what `BootImage.read` has checked and returns.
* `read_layout`: what it makes of a header and components in padded pages.
-/

namespace Pro5Android.Boot

open Python

/-! ## Parts of a file -/

/-- The `size` bytes of `raw` from `offset` on, or what there is of them:
    `raw[offset : offset + size]`, and `seek(offset)` with `read(size)` of a file. -/
def component (raw : Bytes) (offset size : ℕ) : Bytes := (raw.drop offset).take size

theorem slice_eq_component (raw : Bytes) (offset size : ℕ) :
    slice raw offset (offset + size : ℕ) = component raw offset size := by
  rw [slice_natCast, component, List.drop_take, Nat.add_sub_cancel_left]

theorem length_component {raw : Bytes} {offset size : ℕ} (h : offset + size ≤ raw.length) :
    (component raw offset size).length = size := by
  rw [component, List.length_take, List.length_drop]
  omega

/-- The part `y` of `x ++ (y ++ z)`, selected by its position. -/
theorem component_append {x y : Bytes} (z : Bytes) {offset size : ℕ} (ho : offset = x.length)
    (hs : size = y.length) : component (x ++ (y ++ z)) offset size = y := by
  subst ho hs
  rw [component, List.drop_left, List.take_left]

/-- A part at the front. -/
theorem component_left {y : Bytes} (z : Bytes) {size : ℕ} (h : y.length = size) :
    component (y ++ z) 0 size = y := by
  subst h
  exact List.take_left

/-- A part behind `x`. -/
theorem component_right {x : Bytes} (y : Bytes) {offset : ℕ} (size : ℕ) (h : x.length ≤ offset) :
    component (x ++ y) offset size = component y (offset - x.length) size := by
  rw [component, component, List.drop_append, List.drop_eq_nil_of_le h, List.nil_append]

/-- Two neighbouring parts. -/
theorem component_append_component (raw : Bytes) (offset m n : ℕ) :
    component raw offset m ++ component raw (offset + m) n = component raw offset (m + n) := by
  rw [component, component, component, ← List.drop_drop, ← List.take_add]

theorem component_zero_append (raw : Bytes) (m n : ℕ) :
    component raw 0 m ++ component raw m n = component raw 0 (m + n) := by
  have happend := component_append_component raw 0 m n
  rwa [Nat.zero_add] at happend

/-! ## Pages -/

/-- `align` (lines 19–20). -/
def align (value pageSize : ℕ) : ℕ := (value + pageSize - 1) / pageSize * pageSize

/-- `pad` (lines 23–24). -/
def pad (value : Bytes) (alignment : ℕ) : Bytes :=
  value ++ zeros (align value.length alignment - value.length)

theorem le_align {pageSize : ℕ} (h : 0 < pageSize) (value : ℕ) : value ≤ align value pageSize := by
  have hmod := Nat.div_add_mod (value + pageSize - 1) pageSize
  have hlt := Nat.mod_lt (value + pageSize - 1) h
  rw [align, Nat.mul_comm]
  omega

/-- Whatever fits in one page takes one page. -/
theorem align_of_le {value pageSize : ℕ} (hpos : 0 < value) (h : value ≤ pageSize) :
    align value pageSize = pageSize := by
  have hone : (value + pageSize - 1) / pageSize = 1 := by
    apply Nat.div_eq_of_lt_le <;> omega
  rw [align, hone, Nat.one_mul]

theorem length_pad {pageSize : ℕ} (h : 0 < pageSize) (value : Bytes) :
    (pad value pageSize).length = align value.length pageSize := by
  have := le_align h value.length
  rw [pad, List.length_append, length_zeros]
  omega

/-- A padded component, selected by its offset and size. -/
theorem component_pad {x : Bytes} (y z : Bytes) {pageSize offset : ℕ} (h : offset = x.length) :
    component (x ++ (pad y pageSize ++ z)) offset y.length = y := by
  rw [pad, List.append_assoc]
  exact component_append _ h rfl

/-- A component followed by zeros up to the next page is padded. -/
theorem component_align {raw : Bytes} {pageSize offset size : ℕ} (hpos : 0 < pageSize)
    (hle : offset + align size pageSize ≤ raw.length)
    (hzero : component raw (offset + size) (align size pageSize - size) =
      zeros (align size pageSize - size)) :
    component raw offset (align size pageSize) = pad (component raw offset size) pageSize := by
  have hsize := le_align hpos size
  have hlen : (component raw offset size).length = size := length_component (by omega)
  rw [pad, hlen, ← hzero, component_append_component, Nat.add_sub_cancel' hsize]

/-! ## The header -/

/-- `BOOT_MAGIC`. -/
def bootMagic : Bytes := ascii "ANDROID!"

/-- `HEADER_SIZE`, the size of `<8s10I16s512s32s1024s`. -/
def headerSize : ℕ := 1632

/-- The fields of `HEADER_FORMAT`. -/
structure Header where
  magic : Bytes
  kernelSize : ℕ
  kernelAddr : ℕ
  ramdiskSize : ℕ
  ramdiskAddr : ℕ
  secondSize : ℕ
  secondAddr : ℕ
  tagsAddr : ℕ
  pageSize : ℕ
  dtSize : ℕ
  osVersionOrUnused : ℕ
  name : Bytes
  cmdline : Bytes
  imageId : Bytes
  extraCmdline : Bytes
  deriving DecidableEq

/-- The ten words, in order. -/
def Header.words (h : Header) : List ℕ :=
  [h.kernelSize, h.kernelAddr, h.ramdiskSize, h.ramdiskAddr, h.secondSize, h.secondAddr,
    h.tagsAddr, h.pageSize, h.dtSize, h.osVersionOrUnused]

/-- `struct.pack(HEADER_FORMAT, …)`; `none` is `struct.error`. -/
def packHeader (h : Header) : Option Bytes :=
  (h.words.mapM packU32).map fun words =>
    fixed 8 h.magic ++ words.flatten ++ fixed 16 h.name ++ fixed 512 h.cmdline ++
      fixed 32 h.imageId ++ fixed 1024 h.extraCmdline

/-- `struct.unpack_from(HEADER_FORMAT, raw)`, for at least `HEADER_SIZE` bytes. -/
def unpackHeader (raw : Bytes) : Header where
  magic := component raw 0 8
  kernelSize := readU32 (component raw 8 4)
  kernelAddr := readU32 (component raw 12 4)
  ramdiskSize := readU32 (component raw 16 4)
  ramdiskAddr := readU32 (component raw 20 4)
  secondSize := readU32 (component raw 24 4)
  secondAddr := readU32 (component raw 28 4)
  tagsAddr := readU32 (component raw 32 4)
  pageSize := readU32 (component raw 36 4)
  dtSize := readU32 (component raw 40 4)
  osVersionOrUnused := readU32 (component raw 44 4)
  name := component raw 48 16
  cmdline := component raw 64 512
  imageId := component raw 576 32
  extraCmdline := component raw 608 1024

/-- The fields have their widths. -/
structure Header.Fits (h : Header) : Prop where
  magic : h.magic.length = 8
  words : ∀ n ∈ h.words, n < 2 ^ 32
  name : h.name.length = 16
  cmdline : h.cmdline.length = 512
  imageId : h.imageId.length = 32
  extraCmdline : h.extraCmdline.length = 1024

theorem fits_unpackHeader {raw : Bytes} (h : headerSize ≤ raw.length) : (unpackHeader raw).Fits := by
  rw [headerSize] at h
  refine ⟨?_, ?_, ?_, ?_, ?_, ?_⟩
  · exact length_component (by omega)
  · simp only [Header.words, unpackHeader, List.forall_mem_cons, List.not_mem_nil, false_implies,
      implies_true, and_true]
    simp only [readU32_lt, and_self]
  · exact length_component (by omega)
  · exact length_component (by omega)
  · exact length_component (by omega)
  · exact length_component (by omega)

/-- The bytes of a header that fits. -/
def Header.bytes (h : Header) : Bytes :=
  h.magic ++ h.words.flatMap le32 ++ h.name ++ h.cmdline ++ h.imageId ++ h.extraCmdline

theorem packHeader_eq_some {h : Header} (hf : h.Fits) : packHeader h = some h.bytes := by
  rw [packHeader, mapM_packU32 hf.words, Option.map_some, fixed_eq_self hf.magic, fixed_eq_self hf.name,
    fixed_eq_self hf.cmdline, fixed_eq_self hf.imageId, fixed_eq_self hf.extraCmdline,
    Header.bytes, List.flatMap_def]

theorem length_bytes {h : Header} (hf : h.Fits) : h.bytes.length = headerSize := by
  simp [Header.bytes, Header.words, hf.magic, hf.name, hf.cmdline, hf.imageId, hf.extraCmdline,
    headerSize]

theorem component_le32 (n : ℕ) (z : Bytes) : component (le32 n ++ z) 0 4 = le32 n := rfl

theorem component_skip_le32 (n : ℕ) (z : Bytes) (offset size : ℕ) :
    component (le32 n ++ z) (offset + 4) size = component z offset size := rfl

/-- The header is read back from its bytes. -/
theorem unpackHeader_bytes {h : Header} (hf : h.Fits) (rest : Bytes) :
    unpackHeader (h.bytes ++ rest) = h := by
  obtain ⟨hmagic, hwords, hname, hcmdline, hid, hextra⟩ := hf
  have hbytes : h.bytes ++ rest = h.magic ++ (le32 h.kernelSize ++ (le32 h.kernelAddr ++
      (le32 h.ramdiskSize ++ (le32 h.ramdiskAddr ++ (le32 h.secondSize ++ (le32 h.secondAddr ++
      (le32 h.tagsAddr ++ (le32 h.pageSize ++ (le32 h.dtSize ++ (le32 h.osVersionOrUnused ++
      (h.name ++ (h.cmdline ++ (h.imageId ++ (h.extraCmdline ++ rest)))))))))))))) := by
    simp [Header.bytes, Header.words]
  have hread : ∀ n ∈ h.words, readU32 (le32 n) = n := by
    intro n hn
    have := readU32_le32 (hwords n hn) []
    rwa [List.append_nil] at this
  simp only [Header.words, List.forall_mem_cons] at hread
  rw [hbytes, unpackHeader]
  -- each field is reached by walking over the ones before it
  simp (disch := omega) only [component_right, component_left, component_le32,
    component_skip_le32, hmagic, hname, hcmdline, hid, Nat.reduceSub, hread]

/-- The bytes of the header of a file. -/
theorem bytes_unpackHeader {raw : Bytes} (h : headerSize ≤ raw.length) :
    (unpackHeader raw).bytes = component raw 0 headerSize := by
  rw [headerSize] at h
  have hword : ∀ offset, offset + 4 ≤ 1632 →
      le32 (readU32 (component raw offset 4)) = component raw offset 4 :=
    fun offset hle => le32_readU32 (length_component (by omega))
  simp (disch := norm_num) only [Header.bytes, Header.words, unpackHeader, List.flatMap_cons,
    List.flatMap_nil, List.append_nil, hword, ← List.append_assoc,
    component_zero_append, Nat.reduceAdd, headerSize]

/-! ## Reading an image -/

/-- `BootImage` (lines 27–42). -/
structure BootImage where
  kernel : Bytes
  ramdisk : Bytes
  second : Bytes
  dt : Bytes
  kernelAddr : ℕ
  ramdiskAddr : ℕ
  secondAddr : ℕ
  tagsAddr : ℕ
  pageSize : ℕ
  osVersionOrUnused : ℕ
  name : Bytes
  cmdline : Bytes
  imageId : Bytes
  extraCmdline : Bytes
  deriving DecidableEq

/-- The exceptions `BootImage.read` raises, with what their messages name. -/
inductive ReadError
  /-- `truncated boot image header` -/
  | truncatedHeader
  /-- `invalid boot image magic` -/
  | invalidMagic
  /-- `invalid page size {page_size}` -/
  | invalidPageSize (pageSize : ℕ)
  /-- `truncated payload ({len(raw)} < {end_offset})` -/
  | truncatedPayload (length endOffset : ℕ)
  deriving DecidableEq

namespace Header

variable (h : Header)

/-- `ramdisk_offset` (line 70); the kernel is at `page_size`. -/
def ramdiskOffset : ℕ := h.pageSize + align h.kernelSize h.pageSize

/-- `second_offset` (line 71). -/
def secondOffset : ℕ := h.ramdiskOffset + align h.ramdiskSize h.pageSize

/-- `dt_offset` (line 72). -/
def dtOffset : ℕ := h.secondOffset + align h.secondSize h.pageSize

/-- `end_offset` (line 73). -/
def endOffset : ℕ := h.dtOffset + align h.dtSize h.pageSize

/-- The page size is a power of two of at least the header size (line 66). -/
def PageOk : Prop := headerSize ≤ h.pageSize ∧ h.pageSize &&& (h.pageSize - 1) = 0

instance : Decidable h.PageOk := inferInstanceAs (Decidable (_ ∧ _))

/-- The image that `read` returns for a file with this header. -/
def image (raw : Bytes) : BootImage where
  kernel := component raw h.pageSize h.kernelSize
  ramdisk := component raw h.ramdiskOffset h.ramdiskSize
  second := component raw h.secondOffset h.secondSize
  dt := component raw h.dtOffset h.dtSize
  kernelAddr := h.kernelAddr
  ramdiskAddr := h.ramdiskAddr
  secondAddr := h.secondAddr
  tagsAddr := h.tagsAddr
  pageSize := h.pageSize
  osVersionOrUnused := h.osVersionOrUnused
  name := h.name
  cmdline := h.cmdline
  imageId := h.imageId
  extraCmdline := h.extraCmdline

end Header

/-- `BootImage.read` (lines 44–93). -/
def BootImage.read (raw : Bytes) : Except ReadError BootImage :=
  if raw.length < headerSize then .error .truncatedHeader
  else
    let h := unpackHeader raw
    if h.magic ≠ bootMagic then .error .invalidMagic
    else if ¬ h.PageOk then .error (.invalidPageSize h.pageSize)
    else if h.endOffset > raw.length then .error (.truncatedPayload raw.length h.endOffset)
    else .ok (h.image raw)

/-- What `read` has checked of a file. -/
structure Readable (raw : Bytes) : Prop where
  header_le : headerSize ≤ raw.length
  magic : (unpackHeader raw).magic = bootMagic
  page : (unpackHeader raw).PageOk
  end_le : (unpackHeader raw).endOffset ≤ raw.length

theorem read_eq_ok_iff {raw : Bytes} {image : BootImage} :
    BootImage.read raw = .ok image ↔ Readable raw ∧ image = (unpackHeader raw).image raw := by
  rw [BootImage.read]
  constructor
  · intro h
    dsimp only at h
    split_ifs at h with hlen hmagic hpage hend
    refine ⟨⟨by omega, not_not.mp hmagic, hpage, by omega⟩, ?_⟩
    exact (Except.ok.inj h).symm
  · rintro ⟨⟨hlen, hmagic, hpage, hend⟩, rfl⟩
    dsimp only
    rw [if_neg (by omega), if_neg (not_not.mpr hmagic), if_neg (not_not.mpr hpage),
      if_neg (by omega)]

theorem Header.PageOk.pos {h : Header} (hp : h.PageOk) : 0 < h.pageSize :=
  lt_of_lt_of_le (by decide) hp.1

/-! ## Padded pages -/

/-- `b"".join(pad(component, base.page_size) for component in …)` for the header
    and the four components. -/
def layout (header kernel ramdisk second dt : Bytes) (pageSize : ℕ) : Bytes :=
  [header, kernel, ramdisk, second, dt].flatMap fun part => pad part pageSize

/-- The header with the sizes of these components. -/
def Header.sized (h : Header) (kernel ramdisk second dt : Bytes) : Header :=
  { h with
    kernelSize := kernel.length
    ramdiskSize := ramdisk.length
    secondSize := second.length
    dtSize := dt.length }

theorem layout_eq (header kernel ramdisk second dt : Bytes) (pageSize : ℕ) :
    layout header kernel ramdisk second dt pageSize =
      pad header pageSize ++ (pad kernel pageSize ++ (pad ramdisk pageSize ++
        (pad second pageSize ++ (pad dt pageSize ++ [])))) := rfl

section

variable {h : Header} {kernel ramdisk second dt : Bytes}

theorem unpackHeader_layout (hf : (h.sized kernel ramdisk second dt).Fits) :
    unpackHeader
        (layout (h.sized kernel ramdisk second dt).bytes kernel ramdisk second dt h.pageSize) =
      h.sized kernel ramdisk second dt := by
  rw [layout_eq, pad, List.append_assoc]
  exact unpackHeader_bytes hf _

/-- The first page. -/
theorem length_pad_header (hf : (h.sized kernel ramdisk second dt).Fits) (hp : h.PageOk) :
    (pad (h.sized kernel ramdisk second dt).bytes h.pageSize).length = h.pageSize := by
  rw [length_pad hp.pos, length_bytes hf, align_of_le (by decide) hp.1]

theorem length_layout (hf : (h.sized kernel ramdisk second dt).Fits) (hp : h.PageOk) :
    (layout (h.sized kernel ramdisk second dt).bytes kernel ramdisk second dt h.pageSize).length =
      (h.sized kernel ramdisk second dt).endOffset := by
  simp only [layout_eq, List.length_append, length_pad_header hf hp, length_pad hp.pos,
    List.length_nil]
  simp only [Header.endOffset, Header.dtOffset, Header.secondOffset, Header.ramdiskOffset,
    Header.sized]
  omega

/-- A header and components in padded pages are read back. -/
theorem read_layout (hf : (h.sized kernel ramdisk second dt).Fits) (hm : h.magic = bootMagic)
    (hp : h.PageOk) :
    BootImage.read
        (layout (h.sized kernel ramdisk second dt).bytes kernel ramdisk second dt h.pageSize) =
      .ok { h.image [] with kernel := kernel, ramdisk := ramdisk, second := second, dt := dt } := by
  have hpos := hp.pos
  have hheader := length_pad_header hf hp
  have hunpack := unpackHeader_layout hf
  have hlen := length_layout hf hp
  set s := h.sized kernel ramdisk second dt with hs
  rw [read_eq_ok_iff, hunpack]
  refine ⟨⟨?_, ?_, ?_, ?_⟩, ?_⟩
  · rw [layout_eq, List.length_append, hheader]
    exact hp.1.trans (Nat.le_add_right _ _)
  · rw [hunpack]
    exact hm
  · rw [hunpack]
    exact hp
  · rw [hunpack, hlen]
  · have hkernel : component (layout s.bytes kernel ramdisk second dt h.pageSize) s.pageSize
        kernel.length = kernel := by
      rw [layout_eq]
      exact component_pad _ _ hheader.symm
    have hramdisk : component (layout s.bytes kernel ramdisk second dt h.pageSize) s.ramdiskOffset
        ramdisk.length = ramdisk := by
      rw [layout_eq, ← List.append_assoc]
      apply component_pad
      rw [List.length_append, hheader, length_pad hpos]
      rfl
    have hsecond : component (layout s.bytes kernel ramdisk second dt h.pageSize) s.secondOffset
        second.length = second := by
      rw [layout_eq, ← List.append_assoc, ← List.append_assoc]
      apply component_pad
      rw [List.length_append, List.length_append, hheader, length_pad hpos, length_pad hpos]
      rfl
    have hdt : component (layout s.bytes kernel ramdisk second dt h.pageSize) s.dtOffset
        dt.length = dt := by
      rw [layout_eq, ← List.append_assoc, ← List.append_assoc, ← List.append_assoc]
      apply component_pad
      rw [List.length_append, List.length_append, List.length_append, hheader, length_pad hpos,
        length_pad hpos, length_pad hpos]
      rfl
    rw [Header.image, Header.image]
    show _ = BootImage.mk _ _ _ _ _ _ _ _ _ _ _ _ _ _
    rw [show s.kernelSize = kernel.length from rfl, show s.ramdiskSize = ramdisk.length from rfl,
      show s.secondSize = second.length from rfl, show s.dtSize = dt.length from rfl,
      hkernel, hramdisk, hsecond, hdt]
    rfl

end

end Pro5Android.Boot
