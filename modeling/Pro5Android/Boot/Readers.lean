import Pro5Android.Boot.Inspect

/-!
# The three readers of a boot image

The layout of an image is derived three times: by `BootImage.read` of the
repacker from the page size and the running sum of padded sizes, by
`ramdisk_from_boot_image` of `tools/rewrite-newc-ramdisk.py` (lines 41–58) as far
as the ramdisk, and by the inspector from the padded header size.

Results:
* `payloads_eq`: the inspector's offsets are those of `BootImage.read`.
* `inspect_eq_of_read`: a run of the inspector on an image that `BootImage.read`
  accepts.
* `noTruncation_inspect`: that run reports no truncation.
* `boot_readers_agree`: all three read the same components.
-/

namespace Pro5Android.Boot

open Python Newc

/-! ## The rewriter's reader -/

/-- The exceptions of `ramdisk_from_boot_image`. -/
inductive RamdiskError
  /-- `truncated classic boot header` -/
  | truncatedHeader
  /-- `invalid classic boot magic` -/
  | invalidMagic
  /-- `invalid page size {page_size}` -/
  | invalidPageSize (pageSize : ℕ)
  /-- `truncated ramdisk component` -/
  | truncatedRamdisk
  deriving DecidableEq

/-- `ramdisk_from_boot_image` (lines 41–58). -/
def ramdiskFromBootImage (payload : Bytes) : Except RamdiskError Bytes :=
  if payload.length < headerSize then .error .truncatedHeader
  else
    let unpacked := unpackHeader payload
    if unpacked.magic ≠ bootMagic then .error .invalidMagic
    else if unpacked.pageSize < headerSize ∨ unpacked.pageSize &&& (unpacked.pageSize - 1) ≠ 0 then
      .error (.invalidPageSize unpacked.pageSize)
    else
      let ramdiskOffset := unpacked.pageSize + align unpacked.kernelSize unpacked.pageSize
      let ramdiskEnd := ramdiskOffset + unpacked.ramdiskSize
      if ramdiskEnd > payload.length then .error .truncatedRamdisk
      else .ok (slice payload ramdiskOffset ramdiskEnd)

/-- The ramdisk ends before the image does. -/
theorem Header.PageOk.ramdisk_le {h : Header} (hp : h.PageOk) :
    h.ramdiskOffset + h.ramdiskSize ≤ h.endOffset := by
  have hramdisk := le_align hp.pos h.ramdiskSize
  unfold Header.endOffset Header.dtOffset Header.secondOffset
  omega

theorem ramdiskFromBootImage_of_readable {raw : Bytes} (h : Readable raw) :
    ramdiskFromBootImage raw = .ok ((unpackHeader raw).image raw).ramdisk := by
  obtain ⟨hsize, hmagic, hpage, hend⟩ := h
  have hramdisk := hpage.ramdisk_le
  have hoff : (unpackHeader raw).pageSize +
      align (unpackHeader raw).kernelSize (unpackHeader raw).pageSize =
        (unpackHeader raw).ramdiskOffset := rfl
  unfold ramdiskFromBootImage
  dsimp only
  rw [if_neg (by omega), if_neg (not_not.mpr hmagic), if_neg, hoff, if_neg (by omega)]
  · congr 1
    exact slice_eq_component _ _ _
  · rintro (hlt | hpow)
    · exact absurd hpage.1 (by omega)
    · exact hpow hpage.2

/-! ## The inspector's reader -/

/-- The padded header takes one page. -/
theorem Header.PageOk.align_headerSize {h : Header} (hp : h.PageOk) :
    align headerSize h.pageSize = h.pageSize := align_of_le (by decide) hp.1

theorem Header.PageOk.inspected {h : Header} (hp : h.PageOk) : h.InspectedPageOk :=
  ⟨le_trans (by decide) hp.1, hp.2⟩

theorem Header.PageOk.packedSize_eq {h : Header} (hp : h.PageOk) : h.packedSize = h.endOffset := by
  show align headerSize h.pageSize + align h.kernelSize h.pageSize +
    align h.ramdiskSize h.pageSize + align h.secondSize h.pageSize + align h.dtSize h.pageSize = _
  rw [hp.align_headerSize]
  rfl

/-- The components of an image as payloads. -/
def BootImage.payloads (image : BootImage) : Payloads :=
  ⟨image.kernel, image.ramdisk, image.second, image.dt⟩

theorem payloads_eq {h : Header} (hp : h.PageOk) (raw : Bytes) :
    h.payloads raw = (h.image raw).payloads := by
  rw [Header.payloads, hp.align_headerSize]
  rfl

/-- The sizes of the components fit in 32 bits, as the header's fields. -/
theorem small_payloads (raw : Bytes) :
    let p := (unpackHeader raw).payloads raw
    Small p.kernel p.ramdisk p.second p.dt := by
  have hle : ∀ offset word, (component raw offset (readU32 word)).length < 2 ^ 32 := by
    intro offset word
    rw [component]
    exact lt_of_le_of_lt (List.length_take_le _ _) (readU32_lt _)
  exact ⟨hle _ _, hle _ _, hle _ _, hle _ _⟩

/-- The scheme with or without an empty device tree. -/
def Scheme.ofFlag (includeEmptyDt : Bool) : Scheme :=
  if includeEmptyDt then .allSections else .conditionalDtb

theorem Payloads.imageId_eq {p : Payloads} (h : Small p.kernel p.ramdisk p.second p.dt)
    (sha1 : Digest 20) (includeEmptyDt : Bool) :
    p.imageId sha1 includeEmptyDt =
      some (schemeId sha1 p.kernel p.ramdisk p.second p.dt (.ofFlag includeEmptyDt)) := by
  rw [Payloads.imageId, idMessage_eq h, Option.map_some, schemeId]
  cases includeEmptyDt <;> rfl

/-- The scheme of an image with a valid page size, as the inspector finds it
    (lines 316–335). -/
def imageIdScheme (sha1 : Digest 20) (raw : Bytes) : Option InspectedScheme := do
  let h := unpackHeader raw
  let conditional ← (h.payloads raw).imageId sha1 false
  let allSections ← (h.payloads raw).imageId sha1 true
  return inspectedScheme h.imageId conditional allSections

/-- The identifier of an image's payloads under a scheme. -/
def Payloads.schemeId (p : Payloads) (sha1 : Digest 20) (scheme : Scheme) : Bytes :=
  Boot.schemeId sha1 p.kernel p.ramdisk p.second p.dt scheme

theorem imageId_payloads (sha1 : Digest 20) (raw : Bytes) (includeEmptyDt : Bool) :
    ((unpackHeader raw).payloads raw).imageId sha1 includeEmptyDt =
      some (((unpackHeader raw).payloads raw).schemeId sha1 (.ofFlag includeEmptyDt)) :=
  Payloads.imageId_eq (small_payloads raw) sha1 includeEmptyDt

theorem imageIdScheme_eq (sha1 : Digest 20) (raw : Bytes) :
    imageIdScheme sha1 raw =
      some (inspectedScheme (unpackHeader raw).imageId
        (((unpackHeader raw).payloads raw).schemeId sha1 .conditionalDtb)
        (((unpackHeader raw).payloads raw).schemeId sha1 .allSections)) := by
  rw [imageIdScheme, imageId_payloads, imageId_payloads]
  rfl

/-- What the inspector collects before it looks into the ramdisk, for a valid page
    size. -/
def imageFailures (sha1 : Digest 20) (opts : Options) (raw : Bytes) : List Failure :=
  let h := unpackHeader raw
  let p := h.payloads raw
  (if raw.length < h.packedSize then [.truncatedPayload raw.length h.packedSize] else []) ++
    (if opts.expectValidImageId = true ∧ imageIdScheme sha1 raw = some .unrecognized then
      [.unrecognizedImageId h.imageId (p.schemeId sha1 .conditionalDtb)
        (p.schemeId sha1 .allSections)] else []) ++
    headerFailures opts h (ramdiskCompression p.ramdisk) raw.length

/-- What the inspector needs to look at the payloads. -/
structure Inspectable (host : Host) (opts : Options) (raw : Bytes) : Prop where
  extraction : opts.ExtractionOk host
  header_le : headerSize ≤ raw.length
  magic : (unpackHeader raw).magic = bootMagic
  page : (unpackHeader raw).InspectedPageOk

/-- A run on an image with a valid page size. -/
theorem inspect_eq {host : Host} {opts : Options} {raw : Bytes} (h : Inspectable host opts raw) :
    inspect host opts raw =
      let ramdisk := ((unpackHeader raw).payloads raw).ramdisk
      inspectRamdisk host opts (ramdiskCompression ramdisk) ramdisk
        (imageFailures host.sha1 opts raw) := by
  have hlen : ¬ raw.length < headerSize := Nat.not_lt.mpr h.header_le
  unfold inspect
  dsimp only
  rw [if_neg (not_not.mpr h.extraction), if_neg hlen, if_neg (not_not.mpr h.magic),
    if_neg (not_not.mpr h.page), imageId_payloads, imageId_payloads]
  dsimp only
  rw [imageFailures, imageIdScheme_eq]
  simp only [Option.some.injEq]
  rfl

/-! ## Agreement -/

/-- A failure that says the image is truncated. -/
def Failure.IsTruncation : Failure → Prop
  | .truncatedPayload _ _ => True
  | _ => False

/-- A list of failures none of which is one. -/
def NoTruncation (failures : List Failure) : Prop := ∀ f ∈ failures, ¬ f.IsTruncation

theorem noTruncation_append {failures failures' : List Failure} :
    NoTruncation (failures ++ failures') ↔ NoTruncation failures ∧ NoTruncation failures' :=
  List.forall_mem_append

theorem noTruncation_singleton {f : Failure} : NoTruncation [f] ↔ ¬ f.IsTruncation :=
  List.forall_mem_singleton

theorem noTruncation_ite {c : Prop} [Decidable c] {f : Failure} (h : ¬ f.IsTruncation) :
    NoTruncation (if c then [f] else []) := by
  intro g hg
  rw [List.mem_singleton.mp (List.mem_ite_nil_right.mp hg).2]
  exact h

theorem noTruncation_flatMap {α : Type} {l : List α} {report : α → List Failure}
    (h : ∀ x, NoTruncation (report x)) : NoTruncation (l.flatMap report) := by
  intro f hf
  obtain ⟨x, -, hf⟩ := List.mem_flatMap.mp hf
  exact h x f hf

theorem noTruncation_headerFailures (opts : Options) (h : Header) (compression : Compression)
    (imageSize : ℕ) : NoTruncation (headerFailures opts h compression imageSize) := by
  unfold headerFailures
  simp only [noTruncation_append]
  refine ⟨⟨⟨?_, ?_⟩, ?_⟩, ?_⟩
  · apply noTruncation_flatMap
    rintro ⟨name, actual, _ | expected⟩
    · exact List.forall_mem_nil _
    · exact noTruncation_ite id
  · exact noTruncation_ite id
  · cases opts.expectRamdiskCompression with
    | none => exact List.forall_mem_nil _
    | some expected => exact noTruncation_ite id
  · cases opts.maxSize with
    | none => exact List.forall_mem_nil _
    | some maxSize => exact noTruncation_ite id

theorem noTruncation_fileFailures (host : Host) (opts : Options) (entries : List (Path × Bytes))
    (item : Path × Option Bytes) : NoTruncation (fileFailures host opts entries item) := by
  unfold fileFailures
  cases entries.lookup item.1 with
  | none => exact noTruncation_singleton.mpr id
  | some content =>
    apply noTruncation_append.mpr
    refine ⟨noTruncation_ite id, ?_⟩
    cases item.2 with
    | none => exact List.forall_mem_nil _
    | some expected => exact noTruncation_ite id

theorem noTruncation_extractionFailures (entries : List (Path × Bytes)) (item : Path × HostPath) :
    NoTruncation (extractionFailures entries item) := by
  unfold extractionFailures
  cases entries.lookup item.1 with
  | none => exact noTruncation_singleton.mpr id
  | some content => exact List.forall_mem_nil _

theorem failures_finish (failures : List Failure) (extracted : List (HostPath × Bytes)) :
    (finish failures extracted).failures = failures := by
  unfold finish
  split_ifs with h
  · exact h.symm
  · rfl

/-- The ramdisk checks report no truncation of their own. -/
theorem noTruncation_inspectRamdisk {failures : List Failure} (h : NoTruncation failures)
    (host : Host) (opts : Options) (compression : Compression) (ramdisk : Bytes) :
    NoTruncation (inspectRamdisk host opts compression ramdisk failures).failures := by
  unfold inspectRamdisk
  split_ifs
  · rwa [failures_finish]
  · cases ramdiskEntries host compression ramdisk with
    | raised => exact List.forall_mem_nil _
    | failed =>
      dsimp only
      rw [failures_finish, noTruncation_append]
      exact ⟨h, noTruncation_singleton.mpr id⟩
    | entries entries =>
      dsimp only
      rw [failures_finish]
      simp only [noTruncation_append]
      exact ⟨⟨⟨h, noTruncation_flatMap (noTruncation_fileFailures host opts entries)⟩,
        noTruncation_flatMap fun item => noTruncation_ite id⟩,
        noTruncation_flatMap (noTruncation_extractionFailures entries)⟩
  · rw [failures_finish, noTruncation_append]
    exact ⟨h, noTruncation_singleton.mpr id⟩

/-- No run reports that an image `BootImage.read` accepts is truncated. -/
theorem noTruncation_inspect {raw : Bytes} (h : Readable raw) (host : Host) (opts : Options) :
    NoTruncation (inspect host opts raw).failures := by
  by_cases hx : opts.ExtractionOk host
  · rw [inspect_eq ⟨hx, h.header_le, h.magic, h.page.inspected⟩]
    apply noTruncation_inspectRamdisk
    have hle : ¬ raw.length < (unpackHeader raw).packedSize := by
      rw [h.page.packedSize_eq]
      exact Nat.not_lt.mpr h.end_le
    unfold imageFailures
    dsimp only
    rw [if_neg hle, List.nil_append, noTruncation_append]
    exact ⟨noTruncation_ite id, noTruncation_headerFailures _ _ _ _⟩
  · unfold inspect
    rw [if_pos hx]
    exact List.forall_mem_nil _

/-- **The three readers agree** on every image that `BootImage.read` accepts: the
    rewriter takes its ramdisk, and the inspector accepts its page size, reads its
    four components and reports no truncation. -/
theorem boot_readers_agree {raw : Bytes} {image : BootImage} (h : BootImage.read raw = .ok image) :
    ramdiskFromBootImage raw = .ok image.ramdisk ∧
      (unpackHeader raw).InspectedPageOk ∧
      (unpackHeader raw).payloads raw = image.payloads ∧
      (unpackHeader raw).packedSize ≤ raw.length ∧
      ∀ host opts, NoTruncation (inspect host opts raw).failures := by
  obtain ⟨hread, rfl⟩ := read_eq_ok_iff.mp h
  refine ⟨ramdiskFromBootImage_of_readable hread, hread.page.inspected, payloads_eq hread.page raw,
    ?_, noTruncation_inspect hread⟩
  rw [hread.page.packedSize_eq]
  exact hread.end_le

/-- A hash function with the values of a table. -/
def Digest.ofTable {n : ℕ} (table : List (Bytes × Bytes)) : Digest n where
  digest message := fixed n ((table.lookup message).getD [])
  length_digest _ := length_fixed n _

/-- A header with pages of 2048 bytes and no more than an identifier. -/
def bareHeader (imageId : Bytes) : Header where
  magic := bootMagic
  kernelSize := 0
  kernelAddr := 0
  ramdiskSize := 0
  ramdiskAddr := 0
  secondSize := 0
  secondAddr := 0
  tagsAddr := 0
  pageSize := 2048
  dtSize := 0
  osVersionOrUnused := 0
  name := zeros 16
  cmdline := zeros 512
  imageId := imageId
  extraCmdline := zeros 1024

/-- A file with this header, a kernel and a ramdisk. -/
def bareImage (imageId kernel ramdisk : Bytes) : Bytes :=
  layout ((bareHeader imageId).sized kernel ramdisk [] []).bytes kernel ramdisk [] []
    (bareHeader imageId).pageSize

theorem fits_bareHeader {imageId kernel ramdisk : Bytes} (hid : imageId.length = 32)
    (hkernel : kernel.length < 2 ^ 32) (hramdisk : ramdisk.length < 2 ^ 32) :
    ((bareHeader imageId).sized kernel ramdisk [] []).Fits := by
  refine ⟨rfl, ?_, length_zeros 16, length_zeros 512, hid, length_zeros 1024⟩
  simp only [Header.words, Header.sized, bareHeader, List.forall_mem_cons, List.length_nil,
    List.not_mem_nil, false_implies, implies_true, and_true]
  omega

theorem pageOk_bareHeader (imageId : Bytes) : (bareHeader imageId).PageOk := by
  show headerSize ≤ 2048 ∧ 2048 &&& (2048 - 1) = 0
  decide

theorem read_bareImage {imageId kernel ramdisk : Bytes} (hid : imageId.length = 32)
    (hkernel : kernel.length < 2 ^ 32) (hramdisk : ramdisk.length < 2 ^ 32) :
    BootImage.read (bareImage imageId kernel ramdisk) =
      .ok { (bareHeader imageId).image [] with kernel := kernel, ramdisk := ramdisk } :=
  read_layout (fits_bareHeader hid hkernel hramdisk) rfl (pageOk_bareHeader imageId)

/-- The readers on an image with a kernel of one byte and a ramdisk of two. -/
theorem boot_readers_agree_bare :
    ramdiskFromBootImage (bareImage (zeros 32) [1] [2, 3]) = .ok [2, 3] ∧
      (unpackHeader (bareImage (zeros 32) [1] [2, 3])).InspectedPageOk ∧
      (unpackHeader (bareImage (zeros 32) [1] [2, 3])).payloads (bareImage (zeros 32) [1] [2, 3]) =
        ⟨[1], [2, 3], [], []⟩ ∧
      (unpackHeader (bareImage (zeros 32) [1] [2, 3])).packedSize ≤
        (bareImage (zeros 32) [1] [2, 3]).length ∧
      ∀ host opts, NoTruncation (inspect host opts (bareImage (zeros 32) [1] [2, 3])).failures :=
  boot_readers_agree (read_bareImage (length_zeros 32) (by decide) (by decide))

end Pro5Android.Boot
