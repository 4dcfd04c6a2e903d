import Pro5Android.Boot.Readers

/-!
# What the inspector's exit status says

An expectation of the command line holds of an image or not; the inspector should
exit with status 0 only if all of them hold. It merges the expectations about files
of the ramdisk into one dictionary from paths to hashes, and the directories into
another, so a later assignment to a path takes the place of an earlier one: a hash
is dropped when the same path is also extracted (lines 388–390) or has a later hash,
an inventory when the same directory has a later one (lines 387, 391).

Results:
* `get?_requestedRamdiskFiles`: which assignment of a path is left.
* `inspect_ok_iff`: exit status 0 stands for the checks of the image and for the
  expectations that the merge kept.
* `inspect_sound_iff`: the inspector is sound just if no dropped expectation fails
  on an image that passes everything else.
* `inspect_sound_of_kept`: it is sound where nothing is dropped.
-/

namespace Pro5Android.Boot

open Python Newc

/-! ## Expectations -/

/-- One expectation of the command line. -/
inductive Expectation
  | pageSize (n : ℤ)
  | kernelAddr (n : ℤ)
  | ramdiskAddr (n : ℤ)
  | secondAddr (n : ℤ)
  | tagsAddr (n : ℤ)
  | secondSize (n : ℤ)
  | dtSize (n : ℤ)
  | validImageId
  | emptyCmdline
  | compression (expected : Compression)
  | maxSize (n : ℤ)
  | ramdiskFile (path : Path)
  | ramdiskElf (path : Path)
  | ramdiskFileSha256 (path : Path) (hash : Bytes)
  | ramdiskDirectoryFiles (path : Path) (files : List Bytes)
  deriving DecidableEq

namespace Options

variable (opts : Options)

/-- The expectations about the header and the size. -/
def headerExpectations : List Expectation :=
  opts.expectPageSize.toList.map .pageSize ++ opts.expectKernelAddr.toList.map .kernelAddr ++
    opts.expectRamdiskAddr.toList.map .ramdiskAddr ++ opts.expectSecondAddr.toList.map .secondAddr ++
    opts.expectTagsAddr.toList.map .tagsAddr ++ opts.expectSecondSize.toList.map .secondSize ++
    opts.expectDtSize.toList.map .dtSize ++
    (if opts.expectEmptyCmdline then [.emptyCmdline] else []) ++
    opts.expectRamdiskCompression.toList.map .compression ++ opts.maxSize.toList.map .maxSize

/-- The expectations about the files of the ramdisk. -/
def ramdiskExpectations : List Expectation :=
  opts.expectRamdiskFile.map .ramdiskFile ++ opts.expectRamdiskElf.map .ramdiskElf ++
    (opts.expectRamdiskFileSha256.map fun e => .ramdiskFileSha256 e.1 e.2) ++
    (opts.expectRamdiskDirectoryFiles.map fun e => .ramdiskDirectoryFiles e.1 e.2)

/-- All expectations of the command line. -/
def expectations : List Expectation :=
  opts.headerExpectations ++ (if opts.expectValidImageId then [.validImageId] else []) ++
    opts.ramdiskExpectations

end Options

/-- The files of the ramdisk of an image, if it is compressed in a supported way and
    can be read. -/
def ramdiskInventory (host : Host) (raw : Bytes) : Option (List (Path × Bytes)) :=
  let ramdisk := ((unpackHeader raw).payloads raw).ramdisk
  let compression := ramdiskCompression ramdisk
  if compression ∈ [.gzip, .lzma, .xz] then
    match ramdiskEntries host compression ramdisk with
    | .entries entries => some entries
    | _ => none
  else none

/-- The ramdisk has a file at `path` whose content is `ok`. -/
def HasFile (host : Host) (raw : Bytes) (path : Path) (ok : Bytes → Prop) : Prop :=
  ∃ entries content, ramdiskInventory host raw = some entries ∧
    entries.lookup path = some content ∧ ok content

/-- The content starts like an ELF file. -/
def IsElf (content : Bytes) : Prop := [0x7f, 0x45, 0x4c, 0x46].isPrefixOf content = true

/-- The expectation holds of the image. -/
def Expectation.Holds (host : Host) (raw : Bytes) : Expectation → Prop
  | .pageSize n => ((unpackHeader raw).pageSize : ℤ) = n
  | .kernelAddr n => ((unpackHeader raw).kernelAddr : ℤ) = n
  | .ramdiskAddr n => ((unpackHeader raw).ramdiskAddr : ℤ) = n
  | .secondAddr n => ((unpackHeader raw).secondAddr : ℤ) = n
  | .tagsAddr n => ((unpackHeader raw).tagsAddr : ℤ) = n
  | .secondSize n => ((unpackHeader raw).secondSize : ℤ) = n
  | .dtSize n => ((unpackHeader raw).dtSize : ℤ) = n
  | .validImageId => imageIdScheme host.sha1 raw ≠ some .unrecognized
  | .emptyCmdline => (unpackHeader raw).fullCmdline = []
  | .compression expected => ramdiskCompression ((unpackHeader raw).payloads raw).ramdisk = expected
  | .maxSize n => (raw.length : ℤ) ≤ n
  | .ramdiskFile path => HasFile host raw path fun _ => True
  | .ramdiskElf path => HasFile host raw path IsElf
  | .ramdiskFileSha256 path hash => HasFile host raw path fun content => host.sha256 content = hash
  | .ramdiskDirectoryFiles path files =>
    ∃ entries, ramdiskInventory host raw = some entries ∧ directoryFiles entries path = files

/-- The merge keeps the expectation. -/
def Expectation.Kept (opts : Options) : Expectation → Prop
  | .ramdiskFileSha256 path hash =>
    path ∉ opts.extractionPaths ∧ Dict.ofPairs opts.expectRamdiskFileSha256 path = some hash
  | .ramdiskDirectoryFiles path files =>
    Dict.ofPairs opts.expectRamdiskDirectoryFiles path = some files
  | _ => True

/-- What a run checks besides the expectations. -/
structure Checked (host : Host) (opts : Options) (raw : Bytes) : Prop extends
    Inspectable host opts raw where
  packed_le : (unpackHeader raw).packedSize ≤ raw.length
  extracted : ∀ path ∈ opts.extractionPaths, HasFile host raw path fun _ => True

/-! ## The header -/

theorem fieldFailures_eq_nil (host : Host) {name : String} {actual : ℕ} {expected : Option ℤ}
    {k : ℤ → Expectation} {raw : Bytes}
    (hkind : ∀ n, (k n).Holds host raw ↔ (actual : ℤ) = n) :
    fieldFailures (name, actual, expected) = [] ↔
      ∀ e ∈ expected.toList.map k, e.Holds host raw := by
  cases expected with
  | none => simp [fieldFailures]
  | some n => simp [fieldFailures, hkind]

/-- The checks of the header and the size find nothing just if the expectations
    about them hold. -/
theorem headerFailures_eq_nil (host : Host) {opts : Options} {raw : Bytes} :
    headerFailures opts (unpackHeader raw)
        (ramdiskCompression ((unpackHeader raw).payloads raw).ramdisk) raw.length = [] ↔
      ∀ e ∈ opts.headerExpectations, e.Holds host raw := by
  have hcmdline : (if opts.expectEmptyCmdline = true ∧ (unpackHeader raw).fullCmdline ≠ [] then
      [Failure.cmdline (unpackHeader raw).fullCmdline] else []) = [] ↔
        ∀ e ∈ (if opts.expectEmptyCmdline then [Expectation.emptyCmdline] else []),
          e.Holds host raw := by
    cases opts.expectEmptyCmdline <;> simp [Expectation.Holds]
  have hcompression : ∀ compression, ramdiskCompression ((unpackHeader raw).payloads raw).ramdisk =
      compression → (compressionFailures compression opts.expectRamdiskCompression = [] ↔
        ∀ e ∈ opts.expectRamdiskCompression.toList.map Expectation.compression,
          e.Holds host raw) := by
    rintro compression rfl
    cases opts.expectRamdiskCompression <;> simp [compressionFailures, Expectation.Holds]
  have hsize : sizeFailures raw.length opts.maxSize = [] ↔
      ∀ e ∈ opts.maxSize.toList.map Expectation.maxSize, e.Holds host raw := by
    cases opts.maxSize <;> simp [sizeFailures, Expectation.Holds]
  unfold headerFailures Options.headerExpectations Options.expectedFields
  simp only [List.flatMap_cons, List.flatMap_nil, List.append_nil, List.append_eq_nil_iff,
    List.forall_mem_append]
  rw [hcmdline, hcompression _ rfl, hsize, fieldFailures_eq_nil host (k := .pageSize) fun _ => Iff.rfl,
    fieldFailures_eq_nil host (k := .kernelAddr) fun _ => Iff.rfl,
    fieldFailures_eq_nil host (k := .ramdiskAddr) fun _ => Iff.rfl,
    fieldFailures_eq_nil host (k := .secondAddr) fun _ => Iff.rfl,
    fieldFailures_eq_nil host (k := .tagsAddr) fun _ => Iff.rfl,
    fieldFailures_eq_nil host (k := .secondSize) fun _ => Iff.rfl,
    fieldFailures_eq_nil host (k := .dtSize) fun _ => Iff.rfl]
  simp only [and_assoc]

/-- The checks before the ramdisk's find nothing just if the payloads are there, and
    the identifier is recognised if it should be. -/
theorem imageFailures_eq_nil {host : Host} {opts : Options} {raw : Bytes} :
    imageFailures host.sha1 opts raw = [] ↔
      (unpackHeader raw).packedSize ≤ raw.length ∧
        (∀ e ∈ opts.headerExpectations, e.Holds host raw) ∧
        ∀ e ∈ (if opts.expectValidImageId then [Expectation.validImageId] else []),
          e.Holds host raw := by
  have hid : (if opts.expectValidImageId = true ∧ imageIdScheme host.sha1 raw = some .unrecognized then
      [Failure.unrecognizedImageId (unpackHeader raw).imageId
        (((unpackHeader raw).payloads raw).schemeId host.sha1 .conditionalDtb)
        (((unpackHeader raw).payloads raw).schemeId host.sha1 .allSections)] else []) = [] ↔
        ∀ e ∈ (if opts.expectValidImageId then [Expectation.validImageId] else []),
          e.Holds host raw := by
    cases opts.expectValidImageId <;> simp [Expectation.Holds]
  unfold imageFailures
  dsimp only
  rw [List.append_eq_nil_iff, List.append_eq_nil_iff, headerFailures_eq_nil host, hid]
  simp only [ite_eq_right_iff, List.cons_ne_nil, imp_false, Nat.not_lt]
  tauto

/-! ## The merge -/

/-- Which assignment of a path is left: that of an extraction, else the last hash,
    else that of an ELF file or a file. -/
theorem get?_requestedRamdiskFiles (opts : Options) (path : Path) :
    opts.requestedRamdiskFiles.get? path =
      if path ∈ opts.extractionPaths then some none
      else ((Dict.ofPairs opts.expectRamdiskFileSha256 path).map some).or
        (if path ∈ opts.expectRamdiskElf ∨ path ∈ opts.expectRamdiskFile then some none
          else none) := by
  unfold Options.requestedRamdiskFiles
  dsimp only
  rw [OrderedDict.get?_update, OrderedDict.get?_update, OrderedDict.get?_update,
    OrderedDict.get?_ofPairs, OrderedDict.get?_ofPairs, OrderedDict.get?_ofPairs,
    OrderedDict.get?_ofPairs, Dict.ofPairs_const, Dict.ofPairs_const, Dict.ofPairs_const,
    Dict.ofPairs_map]
  split_ifs <;> simp_all

/-- What the run requires of a requested file. -/
def FileOk (host : Host) (opts : Options) (raw : Bytes) (item : Path × Option Bytes) : Prop :=
  HasFile host raw item.1 fun content =>
    (item.1 ∈ opts.expectRamdiskElf → IsElf content) ∧
      ∀ hash, item.2 = some hash → host.sha256 content = hash

theorem HasFile.imp {host : Host} {raw : Bytes} {path : Path} {ok ok' : Bytes → Prop}
    (h : HasFile host raw path ok) (himp : ∀ content, ok content → ok' content) :
    HasFile host raw path ok' := by
  obtain ⟨entries, content, hentries, hlookup, hok⟩ := h
  exact ⟨entries, content, hentries, hlookup, himp content hok⟩

/-- A file has one content. -/
theorem HasFile.and {host : Host} {raw : Bytes} {path : Path} {ok ok' : Bytes → Prop}
    (h : HasFile host raw path ok) (h' : HasFile host raw path ok') :
    HasFile host raw path fun content => ok content ∧ ok' content := by
  obtain ⟨entries, content, hentries, hlookup, hok⟩ := h
  obtain ⟨entries', content', hentries', hlookup', hok'⟩ := h'
  obtain rfl := Option.some.inj (hentries.symm.trans hentries')
  obtain rfl := Option.some.inj (hlookup.symm.trans hlookup')
  exact ⟨entries, content, hentries, hlookup, hok, hok'⟩

/-- The expectations about the ramdisk that the merge keeps, and the extractions. -/
def RamdiskOk (host : Host) (opts : Options) (raw : Bytes) : Prop :=
  (∀ e ∈ opts.ramdiskExpectations, e.Kept opts → e.Holds host raw) ∧
    ∀ path ∈ opts.extractionPaths, HasFile host raw path fun _ => True

theorem ramdiskOk_iff {host : Host} {opts : Options} {raw : Bytes} :
    RamdiskOk host opts raw ↔
      (∀ path ∈ opts.expectRamdiskFile, HasFile host raw path fun _ => True) ∧
      (∀ path ∈ opts.expectRamdiskElf, HasFile host raw path IsElf) ∧
      (∀ path hash, path ∉ opts.extractionPaths →
        Dict.ofPairs opts.expectRamdiskFileSha256 path = some hash →
          HasFile host raw path fun content => host.sha256 content = hash) ∧
      (∀ path files, Dict.ofPairs opts.expectRamdiskDirectoryFiles path = some files →
        (Expectation.ramdiskDirectoryFiles path files).Holds host raw) ∧
      ∀ path ∈ opts.extractionPaths, HasFile host raw path fun _ => True := by
  unfold RamdiskOk Options.ramdiskExpectations
  simp only [List.forall_mem_append, List.forall_mem_map]
  constructor
  · rintro ⟨⟨⟨⟨hfile, helf⟩, hhash⟩, hdirectory⟩, hextracted⟩
    refine ⟨fun path hp => hfile path hp trivial, fun path hp => helf path hp trivial, ?_, ?_,
      hextracted⟩
    · intro path hash hpath hlast
      exact hhash (path, hash) (Dict.mem_of_ofPairs hlast) ⟨hpath, hlast⟩
    · intro path files hlast
      exact hdirectory (path, files) (Dict.mem_of_ofPairs hlast) hlast
  · rintro ⟨hfile, helf, hhash, hdirectory, hextracted⟩
    exact ⟨⟨⟨⟨fun path hp _ => hfile path hp, fun path hp _ => helf path hp⟩,
      fun e _ hkept => hhash e.1 e.2 hkept.1 hkept.2⟩, fun e _ hkept => hdirectory e.1 e.2 hkept⟩,
      hextracted⟩

/-- The two dictionaries ask for the kept expectations and the extractions, no more
    and no less. -/
theorem requested_iff {host : Host} {opts : Options} {raw : Bytes} :
    ((∀ item ∈ opts.requestedRamdiskFiles.items, FileOk host opts raw item) ∧
      ∀ item ∈ opts.requestedRamdiskDirectories.items,
        (Expectation.ramdiskDirectoryFiles item.1 item.2).Holds host raw) ↔
      RamdiskOk host opts raw := by
  rw [ramdiskOk_iff]
  have hitems : ∀ {path value}, (path, value) ∈ opts.requestedRamdiskFiles.items ↔
      opts.requestedRamdiskFiles.get? path = some value := OrderedDict.mem_items
  have hdirectories : ∀ {path files}, (path, files) ∈ opts.requestedRamdiskDirectories.items ↔
      Dict.ofPairs opts.expectRamdiskDirectoryFiles path = some files := by
    intro path files
    rw [OrderedDict.mem_items, Options.requestedRamdiskDirectories, OrderedDict.get?_ofPairs]
  have hsome : ∀ path, path ∈ opts.expectRamdiskFile ∨ path ∈ opts.expectRamdiskElf ∨
      path ∈ opts.extractionPaths → ∃ value, (path, value) ∈ opts.requestedRamdiskFiles.items := by
    intro path hpath
    simp only [hitems, get?_requestedRamdiskFiles]
    split_ifs with hextracted hlisted
    · exact ⟨_, rfl⟩
    · cases Dict.ofPairs opts.expectRamdiskFileSha256 path with
      | some hash => exact ⟨_, rfl⟩
      | none => exact ⟨_, rfl⟩
    · tauto
  constructor
  · rintro ⟨hfiles, hdirs⟩
    have hpresent : ∀ path, path ∈ opts.expectRamdiskFile ∨ path ∈ opts.expectRamdiskElf ∨
        path ∈ opts.extractionPaths → HasFile host raw path fun content =>
          path ∈ opts.expectRamdiskElf → IsElf content := by
      intro path hpath
      obtain ⟨value, hvalue⟩ := hsome path hpath
      exact (hfiles _ hvalue).imp fun content hok => hok.1
    refine ⟨fun path hp => (hpresent path (.inl hp)).imp fun _ _ => trivial,
      fun path hp => (hpresent path (.inr (.inl hp))).imp fun _ hok => hok hp, ?_,
      fun path files hlast => hdirs (path, files) (hdirectories.mpr hlast),
      fun path hp => (hpresent path (.inr (.inr hp))).imp fun _ _ => trivial⟩
    intro path hash hpath hlast
    have hvalue : (path, some hash) ∈ opts.requestedRamdiskFiles.items := by
      rw [hitems, get?_requestedRamdiskFiles, if_neg hpath, hlast]
      rfl
    exact (hfiles _ hvalue).imp fun content hok => hok.2 hash rfl
  · rintro ⟨hfile, helf, hhash, hdirectory, hextracted⟩
    refine ⟨?_, fun item hitem => hdirectory _ _ (hdirectories.mp hitem)⟩
    rintro ⟨path, value⟩ hitem
    rw [hitems, get?_requestedRamdiskFiles] at hitem
    -- the file is there with the hash that is left, and an ELF file if it should be
    have hkept : HasFile host raw path fun content =>
        ∀ hash, value = some hash → host.sha256 content = hash := by
      by_cases hpath : path ∈ opts.extractionPaths
      · rw [if_pos hpath] at hitem
        obtain rfl := Option.some.inj hitem
        exact (hextracted path hpath).imp fun _ _ hash h => (Option.some_ne_none hash h.symm).elim
      · rw [if_neg hpath] at hitem
        cases hlast : Dict.ofPairs opts.expectRamdiskFileSha256 path with
        | some hash =>
          rw [hlast] at hitem
          obtain rfl := Option.some.inj hitem
          apply (hhash path hash hpath hlast).imp
          intro content hok _ h
          rwa [← Option.some.inj h]
        | none =>
          rw [hlast, Option.map_none, Option.none_or] at hitem
          split_ifs at hitem with hlisted
          obtain rfl := Option.some.inj hitem
          have hpresent : HasFile host raw path fun _ => True := by
            rcases hlisted with hp | hp
            · exact (helf path hp).imp fun _ _ => trivial
            · exact hfile path hp
          exact hpresent.imp fun _ _ hash h => (Option.some_ne_none hash h.symm).elim
    by_cases hp : path ∈ opts.expectRamdiskElf
    · exact ((helf path hp).and hkept).imp fun _ hok => ⟨fun _ => hok.1, hok.2⟩
    · exact hkept.imp fun _ hok => ⟨fun h => absurd h hp, hok⟩

/-- An extraction is a request. -/
theorem requested_of_extraction {opts : Options} {item : Path × HostPath}
    (h : item ∈ opts.extractRamdiskFile) : (item.1, none) ∈ opts.requestedRamdiskFiles.items := by
  have hpath : item.1 ∈ opts.extractionPaths := List.mem_map_of_mem h
  rw [OrderedDict.mem_items, get?_requestedRamdiskFiles, if_pos hpath]

/-! ## The run -/

theorem status_finish {failures : List Failure} {extracted : List (HostPath × Bytes)} :
    (finish failures extracted).status = 0 ↔ failures = [] := by
  unfold finish
  split_ifs with h
  · exact iff_of_true rfl h
  · exact iff_of_false Nat.one_ne_zero h

theorem written_finish {failures : List Failure} {extracted : List (HostPath × Bytes)}
    (h : failures ≠ []) : (finish failures extracted).written = [] := by
  rw [finish, if_neg h]
  rfl

theorem fileFailures_eq_nil {host : Host} {opts : Options} {raw : Bytes}
    {entries : List (Path × Bytes)} (h : ramdiskInventory host raw = some entries)
    (item : Path × Option Bytes) :
    fileFailures host opts entries item = [] ↔ FileOk host opts raw item := by
  have hok : FileOk host opts raw item ↔ ∃ content, entries.lookup item.1 = some content ∧
      (item.1 ∈ opts.expectRamdiskElf → IsElf content) ∧
        ∀ hash, item.2 = some hash → host.sha256 content = hash := by
    unfold FileOk HasFile
    rw [h]
    simp
  rw [hok]
  unfold fileFailures
  cases entries.lookup item.1 with
  | none => simp
  | some content =>
    dsimp only
    rw [List.append_eq_nil_iff]
    have helf : (if item.1 ∈ opts.expectRamdiskElf ∧ ¬ [0x7f, 0x45, 0x4c, 0x46].isPrefixOf content then
        [Failure.notElf item.1] else []) = [] ↔ (item.1 ∈ opts.expectRamdiskElf → IsElf content) := by
      simp [IsElf]
    rw [helf]
    cases item.2 <;> simp

theorem directoryFailures_eq_nil {host : Host} {raw : Bytes} {entries : List (Path × Bytes)}
    (h : ramdiskInventory host raw = some entries) (item : Path × List Bytes) :
    directoryFailures entries item = [] ↔
      (Expectation.ramdiskDirectoryFiles item.1 item.2).Holds host raw := by
  unfold directoryFailures Expectation.Holds
  rw [h]
  simp

theorem extractionFailures_eq_nil {host : Host} {opts : Options} {raw : Bytes}
    {entries : List (Path × Bytes)} (h : ramdiskInventory host raw = some entries)
    {item : Path × HostPath} (hfile : FileOk host opts raw (item.1, none)) :
    extractionFailures entries item = [] := by
  obtain ⟨entries', content, hentries, hlookup, -⟩ := hfile
  obtain rfl := Option.some.inj (h.symm.trans hentries)
  have hlookup : entries.lookup item.1 = some content := hlookup
  rw [extractionFailures, hlookup]

/-- With anything requested, a ramdisk that cannot be read fails. -/
theorem not_requested_ok {host : Host} {opts : Options} {raw : Bytes}
    (hnone : ramdiskInventory host raw = none)
    (hrequested : ¬ (opts.requestedRamdiskFiles.items = [] ∧
      opts.requestedRamdiskDirectories.items = [])) :
    ¬ ((∀ item ∈ opts.requestedRamdiskFiles.items, FileOk host opts raw item) ∧
      ∀ item ∈ opts.requestedRamdiskDirectories.items,
        (Expectation.ramdiskDirectoryFiles item.1 item.2).Holds host raw) := by
  rintro ⟨hfiles, hdirectories⟩
  apply hrequested
  constructor
  · apply List.eq_nil_iff_forall_not_mem.mpr
    intro item hitem
    obtain ⟨entries, -, hentries, -⟩ := hfiles item hitem
    exact nomatch hnone.symm.trans hentries
  · apply List.eq_nil_iff_forall_not_mem.mpr
    intro item hitem
    obtain ⟨entries, hentries, -⟩ := hdirectories item hitem
    exact nomatch hnone.symm.trans hentries

/-- The end of a run has status 0 just if nothing was found before and the two
    dictionaries are satisfied. -/
theorem inspectRamdisk_ok_iff {host : Host} {opts : Options} {raw : Bytes} {failures : List Failure} :
    (inspectRamdisk host opts (ramdiskCompression ((unpackHeader raw).payloads raw).ramdisk)
        ((unpackHeader raw).payloads raw).ramdisk failures).status = 0 ↔
      failures = [] ∧ RamdiskOk host opts raw := by
  rw [← requested_iff]
  unfold inspectRamdisk
  have hinventory : ramdiskInventory host raw =
      if ramdiskCompression ((unpackHeader raw).payloads raw).ramdisk ∈ [.gzip, .lzma, .xz] then
        match ramdiskEntries host (ramdiskCompression ((unpackHeader raw).payloads raw).ramdisk)
          ((unpackHeader raw).payloads raw).ramdisk with
        | .entries entries => some entries
        | _ => none
      else none := rfl
  by_cases hrequested :
      opts.requestedRamdiskFiles.items = [] ∧ opts.requestedRamdiskDirectories.items = []
  · rw [if_pos hrequested, status_finish, hrequested.1, hrequested.2]
    simp
  rw [if_neg hrequested]
  by_cases hcompression :
      ramdiskCompression ((unpackHeader raw).payloads raw).ramdisk ∈ [.gzip, .lzma, .xz]
  · rw [if_pos hcompression] at hinventory
    rw [if_neg (not_not.mpr hcompression)]
    cases hentries : ramdiskEntries host
        (ramdiskCompression ((unpackHeader raw).payloads raw).ramdisk)
        ((unpackHeader raw).payloads raw).ramdisk with
    | raised =>
      rw [hentries] at hinventory
      exact iff_of_false Nat.one_ne_zero fun h => not_requested_ok hinventory hrequested h.2
    | failed =>
      rw [hentries] at hinventory
      apply iff_of_false
      · rw [status_finish]
        simp
      · exact fun h => not_requested_ok hinventory hrequested h.2
    | entries entries =>
      rw [hentries] at hinventory
      dsimp only
      rw [status_finish]
      simp only [List.append_eq_nil_iff, List.flatMap_eq_nil_iff, fileFailures_eq_nil hinventory,
        directoryFailures_eq_nil hinventory]
      constructor
      · rintro ⟨⟨⟨hnil, hfiles⟩, hdirectories⟩, -⟩
        exact ⟨hnil, hfiles, hdirectories⟩
      · rintro ⟨hnil, hfiles, hdirectories⟩
        exact ⟨⟨⟨hnil, hfiles⟩, hdirectories⟩, fun item hitem =>
          extractionFailures_eq_nil hinventory (hfiles _ (requested_of_extraction hitem))⟩
  · rw [if_neg hcompression] at hinventory
    rw [if_pos hcompression]
    apply iff_of_false
    · rw [status_finish]
      simp
    · exact fun h => not_requested_ok hinventory hrequested h.2

/-- Failures of before are never forgotten. -/
theorem failures_eq_nil_of_ok {host : Host} {opts : Options} {compression : Compression}
    {ramdisk : Bytes} {failures : List Failure}
    (h : (inspectRamdisk host opts compression ramdisk failures).status = 0) : failures = [] := by
  unfold inspectRamdisk at h
  split_ifs at h
  · exact status_finish.mp h
  · cases hentries : ramdiskEntries host compression ramdisk with
    | raised =>
      rw [hentries] at h
      exact nomatch h
    | failed =>
      rw [hentries] at h
      exact (List.append_eq_nil_iff.mp (status_finish.mp h)).1
    | entries entries =>
      rw [hentries] at h
      have hnil := status_finish.mp h
      simp only [List.append_eq_nil_iff] at hnil
      exact hnil.1.1.1
  · exact (List.append_eq_nil_iff.mp (status_finish.mp h)).1

/-- The ways a run starts. -/
theorem inspect_cases (host : Host) (opts : Options) (raw : Bytes) :
    inspect host opts raw = .raised ∨ inspect host opts raw = .exit 1 [] [] ∨
      (∃ failures, failures ≠ [] ∧
        inspect host opts raw = inspectRamdisk host opts .unknown [] failures) ∨
      Inspectable host opts raw := by
  unfold inspect
  dsimp only
  by_cases hextraction : opts.ExtractionOk host
  · rw [if_neg (not_not.mpr hextraction)]
    by_cases hlen : raw.length < headerSize
    · exact .inr (.inl (if_pos hlen))
    · rw [if_neg hlen]
      by_cases hmagic : (unpackHeader raw).magic = bootMagic
      · rw [if_neg (not_not.mpr hmagic)]
        by_cases hpage : (unpackHeader raw).InspectedPageOk
        · exact .inr (.inr (.inr ⟨hextraction, Nat.not_lt.mp hlen, hmagic, hpage⟩))
        · exact .inr (.inr (.inl ⟨_, List.cons_ne_nil _ _, if_pos hpage⟩))
      · exact .inr (.inl (if_pos hmagic))
  · exact .inl (if_pos hextraction)

theorem ok_of_written_finish {failures : List Failure} {extracted : List (HostPath × Bytes)}
    (h : (finish failures extracted).written ≠ []) : (finish failures extracted).status = 0 := by
  by_contra hs
  exact h (written_finish fun hnil => hs (status_finish.mpr hnil))

theorem ok_of_written_inspectRamdisk {host : Host} {opts : Options} {compression : Compression}
    {ramdisk : Bytes} {failures : List Failure}
    (h : (inspectRamdisk host opts compression ramdisk failures).written ≠ []) :
    (inspectRamdisk host opts compression ramdisk failures).status = 0 := by
  unfold inspectRamdisk at h ⊢
  split_ifs at h ⊢
  · exact ok_of_written_finish h
  · cases hentries : ramdiskEntries host compression ramdisk with
    | raised =>
      rw [hentries] at h
      exact absurd rfl h
    | failed =>
      rw [hentries] at h
      exact ok_of_written_finish h
    | entries entries =>
      rw [hentries] at h
      exact ok_of_written_finish h
  · exact ok_of_written_finish h

/-- Files are written at the end of a run that found nothing. -/
theorem ok_of_written {host : Host} {opts : Options} {raw : Bytes}
    (h : (inspect host opts raw).written ≠ []) : (inspect host opts raw).status = 0 := by
  rcases inspect_cases host opts raw with heq | heq | ⟨failures, -, heq⟩ | hinspectable
  · rw [heq] at h
    exact absurd rfl h
  · rw [heq] at h
    exact absurd rfl h
  · rw [heq] at h ⊢
    exact ok_of_written_inspectRamdisk h
  · rw [inspect_eq hinspectable] at h ⊢
    exact ok_of_written_inspectRamdisk h

theorem inspectable_of_ok {host : Host} {opts : Options} {raw : Bytes}
    (h : (inspect host opts raw).status = 0) : Inspectable host opts raw := by
  rcases inspect_cases host opts raw with heq | heq | ⟨failures, hne, heq⟩ | hinspectable
  · rw [heq] at h
    exact nomatch h
  · rw [heq] at h
    exact nomatch h
  · rw [heq] at h
    exact absurd (failures_eq_nil_of_ok h) hne
  · exact hinspectable

/-- The merge concerns the ramdisk only. -/
theorem kept_of_header {opts : Options} : ∀ e ∈ opts.headerExpectations ++
    (if opts.expectValidImageId then [Expectation.validImageId] else []), e.Kept opts := by
  intro e he
  have hflag : ∀ {flag : Bool} {e' : Expectation}, e ∈ (if flag then [e'] else []) → e = e' := by
    intro flag e' h
    exact List.mem_singleton.mp (List.mem_ite_nil_right.mp h).2
  have hoption : ∀ {α : Type} {x : Option α} {f : α → Expectation}, e ∈ x.toList.map f →
      ∃ a, e = f a := by
    intro α x f h
    obtain ⟨a, -, heq⟩ := List.mem_map.mp h
    exact ⟨a, heq.symm⟩
  unfold Options.headerExpectations at he
  simp only [List.mem_append] at he
  rcases he with (((((((((h | h) | h) | h) | h) | h) | h) | h) | h) | h) | h
  case inl.inl.inl.inr | inr =>
    rw [hflag h]
    exact trivial
  all_goals
    obtain ⟨a, rfl⟩ := hoption h
    exact trivial

/-- The kept expectations in the order of the checks. -/
theorem kept_holds_iff {host : Host} {opts : Options} {raw : Bytes} :
    (∀ e ∈ opts.expectations, e.Kept opts → e.Holds host raw) ↔
      ((∀ e ∈ opts.headerExpectations, e.Holds host raw) ∧
        ∀ e ∈ (if opts.expectValidImageId then [Expectation.validImageId] else []),
          e.Holds host raw) ∧
      ∀ e ∈ opts.ramdiskExpectations, e.Kept opts → e.Holds host raw := by
  rw [Options.expectations, List.forall_mem_append,
    and_congr_left' (forall₂_congr fun e he => imp_iff_right (kept_of_header e he)),
    List.forall_mem_append]

/-- **What exit status 0 stands for.** -/
theorem inspect_ok_iff {host : Host} {opts : Options} {raw : Bytes} :
    (inspect host opts raw).status = 0 ↔
      Checked host opts raw ∧ ∀ e ∈ opts.expectations, e.Kept opts → e.Holds host raw := by
  rw [kept_holds_iff]
  constructor
  · intro h
    have hinspectable := inspectable_of_ok h
    rw [inspect_eq hinspectable] at h
    obtain ⟨hnil, hramdisk, hextracted⟩ := inspectRamdisk_ok_iff.mp h
    obtain ⟨hpacked, hheader, hid⟩ := imageFailures_eq_nil.mp hnil
    exact ⟨⟨hinspectable, hpacked, hextracted⟩, ⟨hheader, hid⟩, hramdisk⟩
  · rintro ⟨⟨hinspectable, hpacked, hextracted⟩, ⟨hheader, hid⟩, hramdisk⟩
    rw [inspect_eq hinspectable]
    exact inspectRamdisk_ok_iff.mpr
      ⟨imageFailures_eq_nil.mpr ⟨hpacked, hheader, hid⟩, hramdisk, hextracted⟩

/-! ## Soundness -/

/-- Exit status 0 stands for all expectations, and where one fails no extraction is
    written. -/
def Sound (host : Host) (opts : Options) (raw : Bytes) : Prop :=
  ((inspect host opts raw).status = 0 → ∀ e ∈ opts.expectations, e.Holds host raw) ∧
    ((∃ e ∈ opts.expectations, ¬ e.Holds host raw) → (inspect host opts raw).written = [])

theorem sound_of_ok {host : Host} {opts : Options} {raw : Bytes}
    (h : (inspect host opts raw).status = 0 → ∀ e ∈ opts.expectations, e.Holds host raw) :
    Sound host opts raw := by
  refine ⟨h, ?_⟩
  rintro ⟨e, he, hfails⟩
  by_contra hw
  exact hfails (h (ok_of_written hw) e he)

/-- With nothing dropped the inspector is sound on every image. -/
theorem inspect_sound_of_kept {host : Host} {opts : Options}
    (h : ∀ e ∈ opts.expectations, e.Kept opts) (raw : Bytes) : Sound host opts raw :=
  sound_of_ok fun hok e he => (inspect_ok_iff.mp hok).2 e he (h e he)

/-- **When the inspector is sound**: just if no expectation that the merge dropped
    fails on an image that passes everything else. -/
theorem inspect_sound_iff (host : Host) (opts : Options) (raw : Bytes) :
    Sound host opts raw ↔
      ¬ (Checked host opts raw ∧
        (∀ e ∈ opts.expectations, e.Kept opts → e.Holds host raw) ∧
        ∃ e ∈ opts.expectations, ¬ e.Kept opts ∧ ¬ e.Holds host raw) := by
  constructor
  · rintro ⟨hstatus, -⟩ ⟨hchecked, hkept, e, he, -, hfails⟩
    exact hfails (hstatus (inspect_ok_iff.mpr ⟨hchecked, hkept⟩) e he)
  · intro hdropped
    apply sound_of_ok
    intro h e he
    obtain ⟨hchecked, hkept⟩ := inspect_ok_iff.mp h
    by_contra hfails
    exact hdropped ⟨hchecked, hkept, e, he, fun hk => hfails (hkept e he hk), hfails⟩

/-- The gzip stream of `fileArchive`. -/
def fileRamdisk : Bytes :=
  [0x1f, 0x8b, 0x08, 0x00, 0x00, 0x00, 0x00, 0x00, 0x02, 0x03, 0x33, 0x30, 0x37, 0x30, 0x37, 0x30,
    0x34, 0x00, 0x03, 0x47, 0x27, 0x10, 0x69, 0x61, 0xe8, 0x68, 0x62, 0x80, 0x1d, 0x18, 0xa2,
    0xf1, 0x8d, 0x0c, 0x88, 0x03, 0x70, 0x75, 0x89, 0x0c, 0x19, 0x99, 0x0c, 0x0c, 0x06, 0x48,
    0x76, 0x12, 0x04, 0xc4, 0xaa, 0x43, 0x07, 0x49, 0x30, 0x46, 0x48, 0x90, 0xa3, 0xa7, 0x8f,
    0x6b, 0x90, 0xa2, 0xa2, 0x22, 0x03, 0x03, 0xcc, 0x6e, 0x00, 0x39, 0xa5, 0x82, 0x9a, 0xf6,
    0x00, 0x00, 0x00]

/-- The libraries on the inputs that occur, in a directory without an `out`. -/
def fileHost : Host where
  sha1 := .ofTable
    [(idPrefix [1] fileRamdisk [],
        [0x0c, 0x43, 0xa7, 0x25, 0x34, 0x53, 0x7b, 0x2d, 0x0a, 0x91, 0x71, 0x7b, 0x59, 0x69, 0x29,
          0xfb, 0x8f, 0x96, 0x58, 0x98]),
      (idPrefix [1] fileRamdisk [] ++ le32 0,
        [0x71, 0x0e, 0x67, 0x74, 0x11, 0xb3, 0x1e, 0x1b, 0x24, 0xc5, 0xaa, 0xe0, 0xab, 0x35, 0x3b,
          0x27, 0xee, 0xe8, 0x3f, 0x57])]
  sha256 message := if message = ascii "hi" then
    ascii "8f434346648f6b96df89dda901c5176b10a6d83961dd3c1ac88b59b2dc327aa4" else []
  gzip stream := if stream = fileRamdisk then .archive fileArchive.serialize else .rejected
  lzma _ := .rejected
  resolve := id
  exists_ _ := false
  parentIsDir _ := true

/-- `--expect-ramdisk-file-sha256 a=00… --extract-ramdisk-file a=out`. -/
def droppingOptions : Options where
  expectPageSize := none
  expectKernelAddr := none
  expectRamdiskAddr := none
  expectSecondAddr := none
  expectTagsAddr := none
  expectSecondSize := none
  expectDtSize := none
  expectValidImageId := true
  expectEmptyCmdline := false
  expectRamdiskCompression := none
  expectRamdiskElf := []
  expectRamdiskFile := []
  expectRamdiskFileSha256 := [(ascii "a", List.replicate 64 48)]
  expectRamdiskDirectoryFiles := []
  extractRamdiskFile := [(ascii "a", ascii "out")]
  maxSize := none

/-- An image with this ramdisk. -/
def fileImage : Bytes :=
  bareImage (schemeId fileHost.sha1 [1] fileRamdisk [] [] .conditionalDtb) [1] fileRamdisk

theorem read_fileImage : BootImage.read fileImage =
    .ok { (bareHeader (schemeId fileHost.sha1 [1] fileRamdisk [] [] .conditionalDtb)).image [] with
      kernel := [1]
      ramdisk := fileRamdisk } :=
  read_bareImage (length_schemeId _ _ _ _ _ _) (by decide) (by decide)

theorem payloads_fileImage :
    (unpackHeader fileImage).payloads fileImage = ⟨[1], fileRamdisk, [], []⟩ := by
  obtain ⟨hreadable, himage⟩ := read_eq_ok_iff.mp read_fileImage
  rw [payloads_eq hreadable.page, ← himage]
  rfl

/-- The ramdisk of the image has the file `a` with the two bytes `hi`. -/
theorem ramdiskInventory_fileImage :
    ramdiskInventory fileHost fileImage = some [(ascii "a", ascii "hi")] := by
  have hparse : parseNewcArchive fileArchive.serialize = .ok (inventory fileArchive.entries) := by
    have hread := parseNewcArchive_of_parse gate_fileArchive.parsed
    rwa [if_pos (by decide)] at hread
  have hgzip : fileHost.gzip fileRamdisk = .archive fileArchive.serialize := by
    show (if fileRamdisk = fileRamdisk then Decompressed.archive fileArchive.serialize
      else .rejected) = _
    exact if_pos rfl
  have hcompression : ramdiskCompression fileRamdisk = .gzip := by decide
  unfold ramdiskInventory ramdiskEntries
  rw [payloads_fileImage]
  dsimp only
  rw [hcompression, if_pos (by decide), if_pos rfl, hgzip]
  dsimp only
  rw [hparse]
  decide

theorem imageIdScheme_fileImage : imageIdScheme fileHost.sha1 fileImage = some .conditionalDtb := by
  have hid : ((unpackHeader fileImage).image fileImage).imageId =
      schemeId fileHost.sha1 [1] fileRamdisk [] [] .conditionalDtb := by
    rw [← (read_eq_ok_iff.mp read_fileImage).2]
    rfl
  have hheader : (unpackHeader fileImage).imageId =
      ((unpackHeader fileImage).image fileImage).imageId := by
    rw [Header.image]
  rw [imageIdScheme_eq, payloads_fileImage, hheader, hid, inspectedScheme, Payloads.schemeId,
    if_pos rfl]

/-- The file that is extracted has another hash than the expected one, and the run
    ends with status 0. -/
theorem inspect_unsound : ¬ ∀ host opts raw, Sound host opts raw := by
  intro hall
  obtain ⟨hreadable, -⟩ := read_eq_ok_iff.mp read_fileImage
  have hpath : ascii "a" ∈ droppingOptions.extractionPaths := by decide
  have hinspectable : Inspectable fileHost droppingOptions fileImage :=
    ⟨by decide, hreadable.header_le, hreadable.magic, hreadable.page.inspected⟩
  have hpacked : (unpackHeader fileImage).packedSize ≤ fileImage.length := by
    rw [hreadable.page.packedSize_eq]
    exact hreadable.end_le
  have hextracted : ∀ path ∈ droppingOptions.extractionPaths,
      HasFile fileHost fileImage path fun _ => True := by
    intro path hp
    obtain rfl : path = ascii "a" := List.mem_singleton.mp hp
    exact ⟨_, ascii "hi", ramdiskInventory_fileImage, rfl, trivial⟩
  have hkept : ∀ e ∈ droppingOptions.expectations, e.Kept droppingOptions →
      e.Holds fileHost fileImage := by
    intro e he hk
    rcases List.mem_cons.mp he with rfl | he
    · rw [Expectation.Holds, imageIdScheme_fileImage]
      decide
    · obtain rfl := List.mem_singleton.mp he
      exact absurd hpath hk.1
  have hstatus := (hall fileHost droppingOptions fileImage).1
    (inspect_ok_iff.mpr ⟨⟨hinspectable, hpacked, hextracted⟩, hkept⟩)
  obtain ⟨entries, content, hentries, hlookup, hhash⟩ :=
    hstatus (.ramdiskFileSha256 (ascii "a") (List.replicate 64 48)) (by decide)
  obtain rfl := Option.some.inj (ramdiskInventory_fileImage.symm.trans hentries)
  obtain rfl : ascii "hi" = content := Option.some.inj hlookup
  revert hhash
  decide

end Pro5Android.Boot
