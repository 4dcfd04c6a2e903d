import Pro5Android.Boot.Repack
import Pro5Android.Newc.Inspector
import Pro5Android.Python.Dict

/-!
# The inspector

`main` of `tools/inspect-android-boot-image.py` (lines 226–502), as the build runs
it to gate an image: it collects failures, prints them, and writes the requested
extractions only if there are none. The decompressors, the hash functions and the
file system are parameters. The report on standard output is left out.
-/

namespace Pro5Android.Boot

open Python Newc

/-! ## The arguments -/

/-- The names `main` gives to ramdisk compressions (lines 282, 344–351). -/
inductive Compression
  | gzip | lzma | xz | lz4 | unknown
  deriving DecidableEq

/-- A path of the host. -/
abbrev HostPath := Bytes

/-- The parsed arguments (lines 161–223): every repeatable option is the list of
    its values; a hash is its 64 hexadecimal digits, and the file names of a
    directory expectation are sorted. -/
structure Options where
  expectPageSize : Option ℤ
  expectKernelAddr : Option ℤ
  expectRamdiskAddr : Option ℤ
  expectSecondAddr : Option ℤ
  expectTagsAddr : Option ℤ
  expectSecondSize : Option ℤ
  expectDtSize : Option ℤ
  expectValidImageId : Bool
  expectEmptyCmdline : Bool
  expectRamdiskCompression : Option Compression
  expectRamdiskElf : List Path
  expectRamdiskFile : List Path
  expectRamdiskFileSha256 : List (Path × Bytes)
  expectRamdiskDirectoryFiles : List (Path × List Bytes)
  extractRamdiskFile : List (Path × HostPath)
  maxSize : Option ℤ

/-- What `gzip.decompress` or `lzma.decompress` does: `rejected` is an exception
    that `main` catches, `raised` one that it does not. -/
inductive Decompressed
  | archive (bytes : Bytes) | rejected | raised

/-- The libraries and the file system `main` runs with. `sha256` is the
    hexadecimal digest. -/
structure Host where
  sha1 : Digest 20
  sha256 : Bytes → Bytes
  gzip : Bytes → Decompressed
  lzma : Bytes → Decompressed
  resolve : HostPath → HostPath
  exists_ : HostPath → Bool
  parentIsDir : HostPath → Bool

/-! ## Components -/

/-- The payloads as the inspector reads them. -/
structure Payloads where
  kernel : Bytes
  ramdisk : Bytes
  second : Bytes
  dt : Bytes
  deriving DecidableEq

namespace Header

variable (h : Header)

/-- `packed_size` (lines 294–296). -/
def packedSize : ℕ :=
  [h.kernelSize, h.ramdiskSize, h.secondSize, h.dtSize].foldl
    (fun packedSize componentSize => packedSize + align componentSize h.pageSize)
    (align headerSize h.pageSize)

/-- The payloads at the inspector's offsets (lines 301–315). -/
def payloads (raw : Bytes) : Payloads :=
  let ramdiskOffset := align headerSize h.pageSize + align h.kernelSize h.pageSize
  let kernelOffset := align headerSize h.pageSize
  let secondOffset := ramdiskOffset + align h.ramdiskSize h.pageSize
  let dtOffset := secondOffset + align h.secondSize h.pageSize
  { kernel := component raw kernelOffset h.kernelSize
    ramdisk := component raw ramdiskOffset h.ramdiskSize
    second := component raw secondOffset h.secondSize
    dt := component raw dtOffset h.dtSize }

/-- The inspector's test of the page size (line 290). -/
def InspectedPageOk : Prop := 512 ≤ h.pageSize ∧ h.pageSize &&& (h.pageSize - 1) = 0

instance : Decidable h.InspectedPageOk := inferInstanceAs (Decidable (_ ∧ _))

end Header

/-- `boot_image_id` of the inspector (lines 31–45). -/
def Payloads.imageId (p : Payloads) (sha1 : Digest 20) (includeEmptyDt : Bool) : Option Bytes :=
  (idMessage p.kernel p.ramdisk p.second p.dt (decide (p.dt ≠ []) || includeEmptyDt)).map
    fun message => ljust (sha1.digest message) 32

/-- `image_id_scheme` (lines 289, 330–335). -/
inductive InspectedScheme
  | unavailable | conditionalDtb | allSections | unrecognized
  deriving DecidableEq

/-- The scheme of an image, from the two calculated identifiers. -/
def inspectedScheme (imageId conditional allSections : Bytes) : InspectedScheme :=
  if imageId = conditional then .conditionalDtb
  else if imageId = allSections then .allSections
  else .unrecognized

/-- `ramdisk_compression` (lines 343–351), from `ramdisk_payload[:8]`. -/
def ramdiskCompression (ramdisk : Bytes) : Compression :=
  let magic := ramdisk.take 8
  if [0x1f, 0x8b].isPrefixOf magic then .gzip
  else if [0x5d, 0x00, 0x00].isPrefixOf magic then .lzma
  else if [0xfd, 0x37, 0x7a, 0x58, 0x5a, 0x00].isPrefixOf magic then .xz
  else if [0x04, 0x22, 0x4d, 0x18].isPrefixOf magic ∨ [0x02, 0x21, 0x4c, 0x18].isPrefixOf magic then
    .lz4
  else .unknown

/-- The bytes `decode_c_string` decodes (lines 48–49); the text is empty just if
    they are. -/
def cString (value : Bytes) : Bytes := value.takeWhile (· ≠ 0)

/-- The bytes of `cmdline` (line 277). -/
def Header.fullCmdline (h : Header) : Bytes := cString h.cmdline ++ cString h.extraCmdline

/-! ## The ramdisk -/

/-- The ramdisk's entries: `failed` is an exception that `main` catches. -/
inductive RamdiskEntries
  | entries (entries : List (Path × Bytes)) | failed | raised

/-- Decompression and `parse_newc_archive` (lines 401–408). -/
def ramdiskEntries (host : Host) (compression : Compression) (ramdisk : Bytes) : RamdiskEntries :=
  match if compression = .gzip then host.gzip ramdisk else host.lzma ramdisk with
  | .rejected => .failed
  | .raised => .raised
  | .archive bytes =>
    match parseNewcArchive bytes with
    | .ok entries => .entries entries
    | .error .indexError => .raised
    | .error _ => .failed

/-- The lexicographic order of texts, for `sorted`. -/
def textLe : Bytes → Bytes → Bool
  | [], _ => true
  | _ :: _, [] => false
  | a :: s, b :: t => a < b || (a == b && textLe s t)

/-- `actual_files` of a directory (lines 433–441). -/
def directoryFiles (entries : List (Path × Bytes)) (directory : Path) : List Bytes :=
  let pre := directory ++ ascii "/"
  ((entries.map Prod.fst).filter fun name =>
    pre.isPrefixOf name && !(removePrefix pre name).contains 47).map (removePrefix pre)
    |>.mergeSort textLe

/-! ## Failures -/

/-- The failures `main` collects, with what their messages name. -/
inductive Failure
  | invalidPageSize (pageSize : ℕ)
  | truncatedPayload (fileSize calculated : ℕ)
  | unrecognizedImageId (header conditionalDtb allSections : Bytes)
  | field (name : String) (expected : ℤ) (found : ℕ)
  | cmdline (found : Bytes)
  | compression (expected found : Compression)
  | exceedsLimit (imageSize : ℕ) (maxSize : ℤ)
  | inspectionUnsupported
  | unparsable (compression : Compression)
  | fileAbsent (path : Path)
  | notElf (path : Path)
  | fileHash (path : Path) (expected found : Bytes)
  | directoryFiles (path : Path) (expected found : List Bytes)
  deriving DecidableEq

namespace Options

variable (opts : Options)

/-- `extraction_paths` (lines 228–230). -/
def extractionPaths : List Path := opts.extractRamdiskFile.map Prod.fst

/-- `extraction_outputs` (lines 233–235). -/
def extractionOutputs (host : Host) : List HostPath :=
  opts.extractRamdiskFile.map fun e => host.resolve e.2

/-- The tests of the extraction arguments (lines 231–244); they raise. -/
def ExtractionOk (host : Host) : Prop :=
  opts.extractionPaths.Nodup ∧ (opts.extractionOutputs host).Nodup ∧
    ∀ output ∈ opts.extractionOutputs host,
      host.exists_ output = false ∧ host.parentIsDir output = true

instance (host : Host) : Decidable (opts.ExtractionOk host) :=
  inferInstanceAs (Decidable (_ ∧ _))

/-- `requested_ramdisk_files` (lines 381–390). -/
def requestedRamdiskFiles : OrderedDict Path (Option Bytes) :=
  let requested := OrderedDict.ofPairs (opts.expectRamdiskFile.map fun path => (path, none))
  let requested := requested.update
    (OrderedDict.ofPairs (opts.expectRamdiskElf.map fun path => (path, none)))
  let requested := requested.update
    (OrderedDict.ofPairs (opts.expectRamdiskFileSha256.map fun e => (e.1, some e.2)))
  requested.update (OrderedDict.ofPairs (opts.extractionPaths.map fun path => (path, none)))

/-- `requested_ramdisk_directories` (line 391). -/
def requestedRamdiskDirectories : OrderedDict Path (List Bytes) :=
  OrderedDict.ofPairs opts.expectRamdiskDirectoryFiles

/-- `expected_fields` (lines 353–361). -/
def expectedFields (h : Header) : List (String × ℕ × Option ℤ) :=
  [("page_size", h.pageSize, opts.expectPageSize),
    ("kernel_addr", h.kernelAddr, opts.expectKernelAddr),
    ("ramdisk_addr", h.ramdiskAddr, opts.expectRamdiskAddr),
    ("second_addr", h.secondAddr, opts.expectSecondAddr),
    ("tags_addr", h.tagsAddr, opts.expectTagsAddr),
    ("second_size", h.secondSize, opts.expectSecondSize),
    ("dt_size", h.dtSize, opts.expectDtSize)]

end Options

/-- The check of one expected field (lines 362–366). -/
def fieldFailures (field : String × ℕ × Option ℤ) : List Failure :=
  match field with
  | (name, actual, some expected) =>
    if (actual : ℤ) ≠ expected then [.field name expected actual] else []
  | (_, _, none) => []

/-- The check of the compression (lines 369–376). -/
def compressionFailures (compression : Compression) : Option Compression → List Failure
  | some expected => if compression ≠ expected then [.compression expected compression] else []
  | none => []

/-- The check of the size (lines 377–378). -/
def sizeFailures (imageSize : ℕ) : Option ℤ → List Failure
  | some maxSize => if (imageSize : ℤ) > maxSize then [.exceedsLimit imageSize maxSize] else []
  | none => []

/-- The checks of the header and the size (lines 362–378). -/
def headerFailures (opts : Options) (h : Header) (compression : Compression) (imageSize : ℕ) :
    List Failure :=
  (opts.expectedFields h).flatMap fieldFailures ++
    (if opts.expectEmptyCmdline = true ∧ h.fullCmdline ≠ [] then [.cmdline h.fullCmdline] else []) ++
    compressionFailures compression opts.expectRamdiskCompression ++
    sizeFailures imageSize opts.maxSize

/-- The check of one requested file (lines 411–429). -/
def fileFailures (host : Host) (opts : Options) (entries : List (Path × Bytes))
    (item : Path × Option Bytes) : List Failure :=
  match entries.lookup item.1 with
  | none => [.fileAbsent item.1]
  | some content =>
    (if item.1 ∈ opts.expectRamdiskElf ∧ ¬ [0x7f, 0x45, 0x4c, 0x46].isPrefixOf content then
      [.notElf item.1] else []) ++
    (match item.2 with
      | some expected =>
        if host.sha256 content ≠ expected then [.fileHash item.1 expected (host.sha256 content)]
        else []
      | none => [])

/-- The check of one requested directory (lines 430–450). -/
def directoryFailures (entries : List (Path × Bytes)) (item : Path × List Bytes) : List Failure :=
  if directoryFiles entries item.1 ≠ item.2 then
    [.directoryFiles item.1 item.2 (directoryFiles entries item.1)] else []

/-- The check of one extraction (lines 451–454). -/
def extractionFailures (entries : List (Path × Bytes)) (item : Path × HostPath) : List Failure :=
  match entries.lookup item.1 with
  | none => [.fileAbsent item.1]
  | some _ => []

/-- `extracted_ramdisk_files` (lines 451–458), without the paths inside. -/
def extractedFiles (opts : Options) (entries : List (Path × Bytes)) : List (HostPath × Bytes) :=
  opts.extractRamdiskFile.filterMap fun item =>
    (entries.lookup item.1).map fun content => (item.2, content)

/-! ## The run -/

/-- How a run ends: with an exception that nobody catches, or with an exit status,
    the reported failures and the written files. -/
inductive Run
  | raised
  | exit (status : ℕ) (failures : List Failure) (written : List (HostPath × Bytes))

namespace Run

/-- The exit status of the process. -/
def status : Run → ℕ
  | .raised => 1
  | .exit status _ _ => status

/-- The failures reported on standard error. -/
def failures : Run → List Failure
  | .raised => []
  | .exit _ failures _ => failures

/-- The files written. -/
def written : Run → List (HostPath × Bytes)
  | .raised => []
  | .exit _ _ written => written

end Run

/-- The end of `main` (lines 495–502). -/
def finish (failures : List Failure) (extracted : List (HostPath × Bytes)) : Run :=
  if failures = [] then .exit 0 [] extracted else .exit 1 failures []

/-- The ramdisk checks and the end of `main` (lines 380–502). -/
def inspectRamdisk (host : Host) (opts : Options) (compression : Compression) (ramdisk : Bytes)
    (failures : List Failure) : Run :=
  if opts.requestedRamdiskFiles.items = [] ∧ opts.requestedRamdiskDirectories.items = [] then
    finish failures []
  else if compression ∉ [.gzip, .lzma, .xz] then finish (failures ++ [.inspectionUnsupported]) []
  else
    match ramdiskEntries host compression ramdisk with
    | .raised => .raised
    | .failed => finish (failures ++ [.unparsable compression]) []
    | .entries entries =>
      finish
        (failures ++ opts.requestedRamdiskFiles.items.flatMap (fileFailures host opts entries) ++
          opts.requestedRamdiskDirectories.items.flatMap (directoryFailures entries) ++
          opts.extractRamdiskFile.flatMap (extractionFailures entries))
        (extractedFiles opts entries)

/-- `main` (lines 226–502). -/
def inspect (host : Host) (opts : Options) (raw : Bytes) : Run :=
  if ¬ opts.ExtractionOk host then .raised
  else if raw.length < headerSize then .exit 1 [] []
  else
    let h := unpackHeader raw
    if h.magic ≠ bootMagic then .exit 1 [] []
    else if ¬ h.InspectedPageOk then
      inspectRamdisk host opts .unknown []
        (.invalidPageSize h.pageSize :: headerFailures opts h .unknown raw.length)
    else
      let p := h.payloads raw
      match p.imageId host.sha1 false, p.imageId host.sha1 true with
      | some conditional, some allSections =>
        let compression := ramdiskCompression p.ramdisk
        inspectRamdisk host opts compression p.ramdisk
          ((if raw.length < h.packedSize then [.truncatedPayload raw.length h.packedSize] else []) ++
            (if opts.expectValidImageId = true ∧
                inspectedScheme h.imageId conditional allSections = .unrecognized then
              [.unrecognizedImageId h.imageId conditional allSections] else []) ++
            headerFailures opts h compression raw.length)
      | _, _ => .raised

end Pro5Android.Boot
