import Pro5Android.Boot.Readers

/-!
# The repack round trip

A run of the repacker, read back by `BootImage.read` and by the inspector. Under
one scheme an empty device tree contributes nothing to the identifier and under the
other its length, so the identifier tells the schemes apart as long as SHA-1 tells
two different messages apart.

Results:
* `repack_eq_ok`: the output of a run on a readable base.
* `detectImageIdScheme_schemeId`, `inspectedScheme_schemeId`: the scheme that is
  recognised.
* `repack_identity`: a run without replacements on a zero-padded base.
* `repack_round_trip`: all of it.
-/

namespace Pro5Android.Boot

open Python

/-! ## The output -/

/-- The replacement files are shorter than 2^32 bytes. -/
structure RepackArguments.Short (args : RepackArguments) : Prop where
  kernel : ∀ payload, args.kernel = .file payload → payload.length < 2 ^ 32
  ramdisk : ∀ payload, args.ramdisk = some payload → payload.length < 2 ^ 32
  second : ∀ payload, args.second = some payload → payload.length < 2 ^ 32
  dt : ∀ payload, args.dt = some payload → payload.length < 2 ^ 32

/-- The components of an image that is read are those of its size fields. -/
theorem small_of_read {raw : Bytes} {image : BootImage} (h : BootImage.read raw = .ok image) :
    Small image.kernel image.ramdisk image.second image.dt := by
  obtain ⟨hread, rfl⟩ := read_eq_ok_iff.mp h
  have hsmall := small_payloads raw
  rwa [payloads_eq hread.page] at hsmall

theorem length_getD {payload : Option Bytes} {original : Bytes} (horiginal : original.length < 2 ^ 32)
    (hpayload : ∀ p, payload = some p → p.length < 2 ^ 32) :
    (payload.getD original).length < 2 ^ 32 := by
  cases payload with
  | none => exact horiginal
  | some p => exact hpayload p rfl

theorem length_select {source : KernelSource} {base : BootImage} {kernel : Bytes}
    (hbase : base.kernel.length < 2 ^ 32) (hfile : ∀ p, source = .file p → p.length < 2 ^ 32)
    (h : source.select base = .ok kernel) : kernel.length < 2 ^ 32 := by
  cases source with
  | base =>
    obtain rfl := Except.ok.inj h
    exact hbase
  | file payload =>
    obtain rfl := Except.ok.inj h
    exact hfile _ rfl
  | image raw =>
    cases hread : BootImage.read raw with
    | error e => simp [KernelSource.select, readImage, hread, Except.mapError, Except.map] at h
    | ok image =>
      simp only [KernelSource.select, readImage, hread, Except.mapError, Except.map,
        Except.ok.injEq] at h
      rw [← h]
      exact (small_of_read hread).kernel

/-- The components of the output are small. -/
theorem small_repacked {args : RepackArguments} {raw kernel : Bytes} {base : BootImage}
    (hread : BootImage.read raw = .ok base) (hshort : args.Short)
    (hkernel : args.kernel.select base = .ok kernel) :
    Small kernel (args.ramdisk.getD base.ramdisk) (args.second.getD base.second)
      (args.dt.getD base.dt) := by
  have hsmall := small_of_read hread
  exact ⟨length_select hsmall.kernel hshort.kernel hkernel, length_getD hsmall.ramdisk hshort.ramdisk,
    length_getD hsmall.second hshort.second, length_getD hsmall.dt hshort.dt⟩

/-- The header the repacker writes is the base's, but for the sizes and the
    identifier. -/
theorem sized_header {raw imageId kernel ramdisk second dt : Bytes} {base : BootImage}
    (hread : BootImage.read raw = .ok base) :
    (base.header imageId).sized kernel ramdisk second dt =
      { (unpackHeader raw).sized kernel ramdisk second dt with imageId := imageId } := by
  obtain ⟨hreadable, rfl⟩ := read_eq_ok_iff.mp hread
  have hmagic := hreadable.magic
  simp only [BootImage.header, Header.image, Header.sized, hmagic]

theorem fits_sized_header {raw imageId kernel ramdisk second dt : Bytes} {base : BootImage}
    (hread : BootImage.read raw = .ok base) (hsmall : Small kernel ramdisk second dt)
    (hid : imageId.length = 32) : ((base.header imageId).sized kernel ramdisk second dt).Fits := by
  rw [sized_header hread]
  obtain ⟨hmagic, hwords, hname, hcmdline, -, hextra⟩ :=
    fits_unpackHeader (read_eq_ok_iff.mp hread).1.header_le
  refine ⟨hmagic, ?_, hname, hcmdline, hid, hextra⟩
  simp only [Header.words, List.forall_mem_cons] at hwords
  simp only [Header.words, Header.sized, List.forall_mem_cons, hsmall.kernel, hsmall.ramdisk,
    hsmall.second, hsmall.dt, hwords, List.not_mem_nil, false_implies, implies_true, and_true]

/-- The file with the base's header, these components and their identifier. -/
def repacked (sha1 : Digest 20) (base : BootImage) (kernel ramdisk second dt : Bytes)
    (scheme : Scheme) : Bytes :=
  layout
    ((base.header (schemeId sha1 kernel ramdisk second dt scheme)).sized kernel ramdisk second dt).bytes
    kernel ramdisk second dt base.pageSize

/-- **The output of a run** on a readable base, with a scheme. -/
theorem repack_eq_ok {sha1 : Digest 20} {args : RepackArguments} {raw kernel : Bytes}
    {base : BootImage} {scheme : Scheme} (hread : BootImage.read raw = .ok base)
    (hshort : args.Short) (hkernel : args.kernel.select base = .ok kernel)
    (hscheme : args.scheme sha1 base = .ok scheme) :
    repack sha1 args raw =
      .ok (repacked sha1 base kernel (args.ramdisk.getD base.ramdisk)
        (args.second.getD base.second) (args.dt.getD base.dt) scheme) := by
  have hsmall := small_repacked hread hshort hkernel
  have hpack := packHeader_eq_some (fits_sized_header hread hsmall
    (length_schemeId sha1 kernel (args.ramdisk.getD base.ramdisk) (args.second.getD base.second)
      (args.dt.getD base.dt) scheme))
  have hbase : readImage raw = .ok base := by rw [readImage, hread]; rfl
  rw [repack, hbase]
  show (args.kernel.select base >>= _) = _
  rw [hkernel]
  show (args.scheme sha1 base >>= _) = _
  rw [hscheme]
  simp only [bind, Except.bind, bootImageId_eq hsmall, hpack]
  rfl

/-- The output is read back. -/
theorem read_repacked {sha1 : Digest 20} {raw kernel ramdisk second dt : Bytes} {base : BootImage}
    (hread : BootImage.read raw = .ok base) (hsmall : Small kernel ramdisk second dt)
    (scheme : Scheme) :
    BootImage.read (repacked sha1 base kernel ramdisk second dt scheme) =
      .ok { base with
        kernel := kernel
        ramdisk := ramdisk
        second := second
        dt := dt
        imageId := schemeId sha1 kernel ramdisk second dt scheme } := by
  have hpage : base.pageSize = (unpackHeader raw).pageSize := by
    rw [(read_eq_ok_iff.mp hread).2]
    rfl
  have hok : (base.header (schemeId sha1 kernel ramdisk second dt scheme)).PageOk := by
    have := (read_eq_ok_iff.mp hread).1.page
    rw [Header.PageOk, ← hpage] at this
    exact this
  exact read_layout (fits_sized_header hread hsmall (length_schemeId ..)) rfl hok

/-- The header of the output. -/
theorem unpackHeader_repacked {sha1 : Digest 20} {raw kernel ramdisk second dt : Bytes}
    {base : BootImage} (hread : BootImage.read raw = .ok base) (hsmall : Small kernel ramdisk second dt)
    (scheme : Scheme) :
    unpackHeader (repacked sha1 base kernel ramdisk second dt scheme) =
      { (unpackHeader raw).sized kernel ramdisk second dt with
        imageId := schemeId sha1 kernel ramdisk second dt scheme } := by
  rw [repacked, layout_eq, pad, List.append_assoc,
    unpackHeader_bytes (fits_sized_header hread hsmall (length_schemeId ..)), sized_header hread]

/-! ## The recognised scheme -/

/-- SHA-1 does not collide on the messages of the two schemes for an empty device
    tree. -/
def SchemesSeparate (sha1 : Digest 20) (kernel ramdisk second : Bytes) : Prop :=
  sha1.digest (idPrefix kernel ramdisk second) =
      sha1.digest (idPrefix kernel ramdisk second ++ le32 0) →
    idPrefix kernel ramdisk second = idPrefix kernel ramdisk second ++ le32 0

instance (sha1 : Digest 20) (kernel ramdisk second : Bytes) :
    Decidable (SchemesSeparate sha1 kernel ramdisk second) :=
  inferInstanceAs (Decidable (_ → _))

theorem ljust_inj {n : ℕ} (sha1 : Digest n) {m m' : Bytes} {width : ℕ}
    (h : ljust (sha1.digest m) width = ljust (sha1.digest m') width) :
    sha1.digest m = sha1.digest m' := by
  rw [ljust, ljust, sha1.length_digest, sha1.length_digest] at h
  exact List.append_cancel_right h

theorem schemeId_ne {sha1 : Digest 20} {kernel ramdisk second : Bytes}
    (h : SchemesSeparate sha1 kernel ramdisk second) :
    schemeId sha1 kernel ramdisk second [] .allSections ≠
      schemeId sha1 kernel ramdisk second [] .conditionalDtb := by
  intro heq
  have hdigest := ljust_inj sha1 heq
  have hall : idPrefix kernel ramdisk second ++ (if decide (([] : Bytes) ≠ []) || decide
      (Scheme.allSections = .allSections) then [] ++ le32 ([] : Bytes).length else []) =
        idPrefix kernel ramdisk second ++ le32 0 := rfl
  have hcond : idPrefix kernel ramdisk second ++ (if decide (([] : Bytes) ≠ []) || decide
      (Scheme.conditionalDtb = .allSections) then [] ++ le32 ([] : Bytes).length else []) =
        idPrefix kernel ramdisk second := List.append_nil _
  rw [hall, hcond] at hdigest
  have hlen := congrArg List.length (h hdigest.symm)
  rw [List.length_append, length_le32] at hlen
  omega

/-- The scheme that is recognised in an image made under `scheme`: with a device
    tree the two coincide, and the conditional one is tried first. -/
def recognised (dt : Bytes) (scheme : Scheme) : Scheme :=
  if dt = [] then scheme else .conditionalDtb

/-- What the inspector calls a scheme. -/
def Scheme.inspected : Scheme → InspectedScheme
  | .conditionalDtb => .conditionalDtb
  | .allSections => .allSections

theorem detectImageIdScheme_schemeId {sha1 : Digest 20} {image : BootImage} {scheme : Scheme}
    (hsmall : Small image.kernel image.ramdisk image.second image.dt)
    (hsep : SchemesSeparate sha1 image.kernel image.ramdisk image.second)
    (hid : image.imageId =
      schemeId sha1 image.kernel image.ramdisk image.second image.dt scheme) :
    detectImageIdScheme sha1 image = .ok (recognised image.dt scheme) := by
  rw [detectImageIdScheme, bootImageId_eq hsmall, bootImageId_eq hsmall, hid]
  dsimp only
  by_cases hdt : image.dt = []
  · rw [recognised, if_pos hdt, hdt]
    cases scheme with
    | conditionalDtb => rw [if_pos rfl]
    | allSections => rw [if_neg (schemeId_ne hsep), if_pos rfl]
  · rw [recognised, if_neg hdt, if_pos (schemeId_of_dt hdt _ _)]

theorem inspectedScheme_schemeId {sha1 : Digest 20} {kernel ramdisk second dt : Bytes}
    {scheme : Scheme} (hsep : SchemesSeparate sha1 kernel ramdisk second) :
    inspectedScheme (schemeId sha1 kernel ramdisk second dt scheme)
        (schemeId sha1 kernel ramdisk second dt .conditionalDtb)
        (schemeId sha1 kernel ramdisk second dt .allSections) =
      (recognised dt scheme).inspected := by
  rw [inspectedScheme]
  by_cases hdt : dt = []
  · subst hdt
    rw [recognised, if_pos rfl]
    cases scheme with
    | conditionalDtb => exact if_pos rfl
    | allSections => exact (if_neg (schemeId_ne hsep)).trans (if_pos rfl)
  · rw [recognised, if_neg hdt, if_pos (schemeId_of_dt hdt _ _)]
    rfl

/-- A scheme that was detected gives the image's identifier. -/
theorem imageId_of_detected {sha1 : Digest 20} {image : BootImage} {scheme : Scheme}
    (hsmall : Small image.kernel image.ramdisk image.second image.dt)
    (h : detectImageIdScheme sha1 image = .ok scheme) :
    image.imageId = schemeId sha1 image.kernel image.ramdisk image.second image.dt scheme := by
  rw [detectImageIdScheme, bootImageId_eq hsmall, bootImageId_eq hsmall] at h
  dsimp only at h
  split_ifs at h with hcond hall
  · rw [← Except.ok.inj h]
    exact hcond
  · rw [← Except.ok.inj h]
    exact hall

/-! ## Without replacements -/

/-- No component is replaced. -/
structure RepackArguments.Unchanged (args : RepackArguments) : Prop where
  kernel : args.kernel = .base
  ramdisk : args.ramdisk = none
  second : args.second = none
  dt : args.dt = none

/-- The bytes from `used` to the next page are zero, behind `offset`. -/
def ZeroUpTo (raw : Bytes) (offset used padded : ℕ) : Prop :=
  component raw (offset + used) (padded - used) = zeros (padded - used)

/-- Header and components are padded with zeros, and nothing follows. -/
structure ZeroPadded (raw : Bytes) (h : Header) : Prop where
  header : ZeroUpTo raw 0 headerSize h.pageSize
  kernel : ZeroUpTo raw h.pageSize h.kernelSize (align h.kernelSize h.pageSize)
  ramdisk : ZeroUpTo raw h.ramdiskOffset h.ramdiskSize (align h.ramdiskSize h.pageSize)
  second : ZeroUpTo raw h.secondOffset h.secondSize (align h.secondSize h.pageSize)
  dt : ZeroUpTo raw h.dtOffset h.dtSize (align h.dtSize h.pageSize)
  length_eq : raw.length = h.endOffset

/-- A zero-padded file is the layout of its parts. -/
theorem layout_parts {raw : Bytes} (hread : Readable raw) (hzero : ZeroPadded raw (unpackHeader raw)) :
    layout (unpackHeader raw).bytes ((unpackHeader raw).image raw).kernel
        ((unpackHeader raw).image raw).ramdisk ((unpackHeader raw).image raw).second
        ((unpackHeader raw).image raw).dt (unpackHeader raw).pageSize = raw := by
  have hbytes := bytes_unpackHeader hread.header_le
  set h := unpackHeader raw with hh
  have hpage : h.PageOk := hread.page
  have hpos := hpage.pos
  have hend : h.endOffset = raw.length := hzero.length_eq.symm
  have hdt : h.dtOffset + align h.dtSize h.pageSize = h.endOffset := rfl
  have hsecond : h.secondOffset + align h.secondSize h.pageSize = h.dtOffset := rfl
  have hramdisk : h.ramdiskOffset + align h.ramdiskSize h.pageSize = h.secondOffset := rfl
  have hkernel : h.pageSize + align h.kernelSize h.pageSize = h.ramdiskOffset := rfl
  have hfirst : pad (component raw 0 headerSize) h.pageSize = component raw 0 h.pageSize := by
    have halign : align headerSize h.pageSize = h.pageSize := hpage.align_headerSize
    have hpad : component raw 0 (align headerSize h.pageSize) =
        pad (component raw 0 headerSize) h.pageSize :=
      component_align hpos (by omega) (by rw [halign]; exact hzero.header)
    rw [← hpad, halign]
  rw [layout_eq, hbytes, hfirst]
  show component raw 0 h.pageSize ++ (pad (component raw h.pageSize h.kernelSize) h.pageSize ++
    (pad (component raw h.ramdiskOffset h.ramdiskSize) h.pageSize ++
    (pad (component raw h.secondOffset h.secondSize) h.pageSize ++
    (pad (component raw h.dtOffset h.dtSize) h.pageSize ++ [])))) = raw
  rw [← component_align hpos (by omega) hzero.kernel,
    ← component_align hpos (by omega) hzero.ramdisk,
    ← component_align hpos (by omega) hzero.second, ← component_align hpos (by omega) hzero.dt,
    List.append_nil]
  -- the padded parts are neighbours, from the first byte to the last
  simp only [← List.append_assoc, component_zero_append, hkernel, hramdisk, hsecond, hdt]
  rw [hend, component, List.drop_zero, List.take_length]

theorem zeroUpTo_pad {x : Bytes} (y z : Bytes) {pageSize offset : ℕ} (h : offset = x.length) :
    ZeroUpTo (x ++ (pad y pageSize ++ z)) offset y.length (align y.length pageSize) := by
  rw [ZeroUpTo, pad, List.append_assoc, ← List.append_assoc x y]
  apply component_append
  · rw [h, List.length_append]
  · rw [length_zeros]

/-- What the repacker writes is zero-padded. -/
theorem zeroPadded_layout {h : Header} {kernel ramdisk second dt : Bytes}
    (hf : (h.sized kernel ramdisk second dt).Fits) (hp : h.PageOk) :
    ZeroPadded (layout (h.sized kernel ramdisk second dt).bytes kernel ramdisk second dt h.pageSize)
      (h.sized kernel ramdisk second dt) := by
  have hpos := hp.pos
  have hheader := length_pad_header hf hp
  have hfirst : ZeroUpTo
      (layout (h.sized kernel ramdisk second dt).bytes kernel ramdisk second dt h.pageSize) 0
      (h.sized kernel ramdisk second dt).bytes.length
      (align (h.sized kernel ramdisk second dt).bytes.length h.pageSize) := by
    rw [layout_eq]
    exact zeroUpTo_pad (x := []) _ _ rfl
  rw [length_bytes hf, hp.align_headerSize] at hfirst
  refine ⟨hfirst, ?_, ?_, ?_, ?_, length_layout hf hp⟩
  · rw [layout_eq]
    exact zeroUpTo_pad _ _ hheader.symm
  · rw [layout_eq, ← List.append_assoc]
    apply zeroUpTo_pad
    rw [List.length_append, hheader, length_pad hpos]
    rfl
  · rw [layout_eq, ← List.append_assoc, ← List.append_assoc]
    apply zeroUpTo_pad
    rw [List.length_append, List.length_append, hheader, length_pad hpos, length_pad hpos]
    rfl
  · rw [layout_eq, ← List.append_assoc, ← List.append_assoc, ← List.append_assoc]
    apply zeroUpTo_pad
    rw [List.length_append, List.length_append, List.length_append, hheader, length_pad hpos,
      length_pad hpos, length_pad hpos]
    rfl

/-- A base whose scheme is detected is written as it is. -/
theorem repacked_self {sha1 : Digest 20} {raw : Bytes} {base : BootImage} {scheme : Scheme}
    (hread : BootImage.read raw = .ok base) (hzero : ZeroPadded raw (unpackHeader raw))
    (hdetect : detectImageIdScheme sha1 base = .ok scheme) :
    repacked sha1 base base.kernel base.ramdisk base.second base.dt scheme = raw := by
  have hid := imageId_of_detected (small_of_read hread) hdetect
  have hheader : (base.header base.imageId).sized base.kernel base.ramdisk base.second base.dt =
      unpackHeader raw := by
    rw [sized_header hread]
    obtain ⟨hreadable, rfl⟩ := read_eq_ok_iff.mp hread
    have hpos := hreadable.page.pos
    have hend := hreadable.end_le
    have hkernel := le_align hpos (unpackHeader raw).kernelSize
    have hramdisk := le_align hpos (unpackHeader raw).ramdiskSize
    have hsecond := le_align hpos (unpackHeader raw).secondSize
    have hdt := le_align hpos (unpackHeader raw).dtSize
    unfold Header.endOffset Header.dtOffset Header.secondOffset Header.ramdiskOffset at hend
    simp only [Header.sized, Header.image, Header.dtOffset, Header.secondOffset,
      Header.ramdiskOffset]
    rw [length_component (by omega), length_component (by omega), length_component (by omega),
      length_component (by omega)]
  rw [repacked, ← hid, hheader]
  obtain ⟨hreadable, rfl⟩ := read_eq_ok_iff.mp hread
  exact layout_parts hreadable hzero

theorem repack_identity {sha1 : Digest 20} {args : RepackArguments} {raw : Bytes} {base : BootImage}
    {scheme : Scheme} (hread : BootImage.read raw = .ok base)
    (hzero : ZeroPadded raw (unpackHeader raw)) (hunchanged : args.Unchanged)
    (hscheme : args.scheme sha1 base = .ok scheme)
    (hdetect : detectImageIdScheme sha1 base = .ok scheme) : repack sha1 args raw = .ok raw := by
  obtain ⟨hkernel, hramdisk, hsecond, hdt⟩ := hunchanged
  have hshort : args.Short := by
    refine ⟨?_, ?_, ?_, ?_⟩ <;> intro payload h
    · exact nomatch hkernel.symm.trans h
    · exact nomatch hramdisk.symm.trans h
    · exact nomatch hsecond.symm.trans h
    · exact nomatch hdt.symm.trans h
  have hselect : args.kernel.select base = .ok base.kernel := by rw [hkernel]; rfl
  rw [repack_eq_ok hread hshort hselect hscheme, hramdisk, hsecond, hdt]
  exact congrArg Except.ok (repacked_self hread hzero hdetect)

/-! ## The round trip -/

/-- **The repack round trip.** With a scheme, a readable base and short replacements
    there is an output. It is read back with the replaced components, and every header
    field but the sizes and the identifier is the base's. Where the hash tells the schemes
    apart, both tools recognise the one that was used; an unchanged zero-padded base is
    written back byte for byte. -/
theorem repack_round_trip {sha1 : Digest 20} {args : RepackArguments} {raw kernel : Bytes}
    {base : BootImage} {scheme : Scheme} (hread : BootImage.read raw = .ok base)
    (hshort : args.Short) (hkernel : args.kernel.select base = .ok kernel)
    (hscheme : args.scheme sha1 base = .ok scheme) :
    ∃ output image, repack sha1 args raw = .ok output ∧ BootImage.read output = .ok image ∧
      image =
        { base with
          kernel := kernel
          ramdisk := args.ramdisk.getD base.ramdisk
          second := args.second.getD base.second
          dt := args.dt.getD base.dt
          imageId := image.imageId } ∧
      unpackHeader output =
        { (unpackHeader raw).sized image.kernel image.ramdisk image.second image.dt with
          imageId := image.imageId } ∧
      (SchemesSeparate sha1 kernel (args.ramdisk.getD base.ramdisk)
          (args.second.getD base.second) →
        detectImageIdScheme sha1 image = .ok (recognised image.dt scheme) ∧
          imageIdScheme sha1 output = some (recognised image.dt scheme).inspected) ∧
      (args.Unchanged → ZeroPadded raw (unpackHeader raw) →
        detectImageIdScheme sha1 base = .ok scheme → output = raw) := by
  have hsmall := small_repacked hread hshort hkernel
  have hrun := repack_eq_ok hread hshort hkernel hscheme
  have houtput : BootImage.read (repacked sha1 base _ _ _ _ scheme) = _ :=
    read_repacked hread hsmall scheme
  refine ⟨_, _, hrun, houtput, rfl, unpackHeader_repacked hread hsmall scheme,
    fun hsep => ⟨detectImageIdScheme_schemeId hsmall hsep rfl, ?_⟩, ?_⟩
  · obtain ⟨hreadable, himage⟩ := read_eq_ok_iff.mp houtput
    have hpayloads := payloads_eq hreadable.page
      (repacked sha1 base kernel (args.ramdisk.getD base.ramdisk) (args.second.getD base.second)
        (args.dt.getD base.dt) scheme)
    rw [← himage] at hpayloads
    rw [imageIdScheme_eq, hpayloads, unpackHeader_repacked hread hsmall]
    exact congrArg some (inspectedScheme_schemeId hsep)
  · intro hunchanged hzero hdetect
    have hself := repack_identity hread hzero hunchanged hscheme hdetect
    rw [hrun] at hself
    exact Except.ok.inj hself

/-- The messages hashed below, with their SHA-1 digests. -/
def sha1Table : List (Bytes × Bytes) :=
  [(idPrefix [1] [2, 3] [],
      [0x61, 0x9c, 0x44, 0x82, 0x31, 0x6b, 0x18, 0x55, 0x0d, 0x45, 0xef, 0xae, 0xd1, 0x96, 0x43, 0x6f,
        0x8c, 0x3a, 0x6d, 0xfa]),
    (idPrefix [1] [2, 3] [] ++ le32 0,
      [0x53, 0xa6, 0x61, 0xa9, 0x0c, 0x63, 0x99, 0xbc, 0x7e, 0xa6, 0x02, 0x7f, 0x61, 0x68, 0x08, 0x2a,
        0x9d, 0xf4, 0xa9, 0x71]),
    (idPrefix [1] [4] [],
      [0xe9, 0xf4, 0x8f, 0x06, 0x0a, 0x48, 0x5a, 0xd8, 0x81, 0x13, 0xee, 0x2b, 0x3c, 0x69, 0x33, 0xf0,
        0x7b, 0x23, 0x78, 0xcb]),
    (idPrefix [1] [4] [] ++ le32 0,
      [0x0e, 0x9e, 0xee, 0x97, 0x20, 0x40, 0x8a, 0xa8, 0xc9, 0x42, 0x31, 0x15, 0x83, 0x35, 0x61, 0x30,
        0x22, 0xed, 0x46, 0x94])]

/-- An image with an `all-sections` identifier. -/
def smallImage : Bytes :=
  bareImage (schemeId (.ofTable sha1Table) [1] [2, 3] [] [] .allSections) [1] [2, 3]

/-- What `BootImage.read` returns for it. -/
def smallBase : BootImage :=
  { (bareHeader (schemeId (.ofTable sha1Table) [1] [2, 3] [] [] .allSections)).image [] with
    kernel := [1]
    ramdisk := [2, 3] }

theorem read_smallImage : BootImage.read smallImage = .ok smallBase :=
  read_bareImage (length_schemeId _ _ _ _ _ _) (by decide) (by decide)

theorem detect_smallBase :
    detectImageIdScheme (.ofTable sha1Table) smallBase = .ok .allSections := by
  apply detectImageIdScheme_schemeId ⟨_, _, _, _⟩ _ rfl
  all_goals decide

theorem zeroPadded_smallImage : ZeroPadded smallImage (unpackHeader smallImage) := by
  have hf : ((bareHeader (schemeId (.ofTable sha1Table) [1] [2, 3] [] [] .allSections)).sized
      [1] [2, 3] [] []).Fits :=
    fits_bareHeader (length_schemeId _ _ _ _ _ _) (by decide) (by decide)
  rw [smallImage, bareImage, unpackHeader_layout hf]
  exact zeroPadded_layout hf (pageOk_bareHeader _)

/-- The image with a new ramdisk, and as it is. -/
theorem repack_round_trip_small :
    (∃ output image, repack (.ofTable sha1Table) ⟨.base, some [4], none, none, none⟩ smallImage =
        .ok output ∧ BootImage.read output = .ok image ∧ image.ramdisk = [4] ∧
      imageIdScheme (.ofTable sha1Table) output = some .allSections) ∧
    repack (.ofTable sha1Table) ⟨.base, none, none, none, none⟩ smallImage = .ok smallImage := by
  constructor
  · obtain ⟨output, image, hrun, hread, himage, -, hschemes, -⟩ :=
      @repack_round_trip (.ofTable sha1Table) ⟨.base, some [4], none, none, none⟩ _ _ _ _
        read_smallImage ⟨by simp, by decide, by simp, by simp⟩ rfl detect_smallBase
    refine ⟨output, image, hrun, hread, ?_, ?_⟩
    · rw [himage]
      rfl
    · rw [(hschemes (by decide)).2, himage]
      rfl
  · obtain ⟨output, -, hrun, -, -, -, -, hself⟩ :=
      @repack_round_trip (.ofTable sha1Table) ⟨.base, none, none, none, none⟩ _ _ _ _
        read_smallImage ⟨by simp, by simp, by simp, by simp⟩ rfl detect_smallBase
    rw [hrun, hself ⟨rfl, rfl, rfl, rfl⟩ zeroPadded_smallImage detect_smallBase]

end Pro5Android.Boot
