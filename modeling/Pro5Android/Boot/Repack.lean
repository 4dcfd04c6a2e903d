import Pro5Android.Boot.Image

/-!
# The repacker

The image identifier and `main` of `tools/repack-android-boot-image.py` (lines
96–203). The identifier is a SHA-1 digest over the components, each followed by
its length; the two schemes differ in whether an empty device tree contributes.
SHA-1 is a parameter: nothing here depends on which function it is.

Results:
* `idMessage_eq`: what is hashed.
* `schemeId_of_dt`: with a device tree the two schemes coincide.
-/

namespace Pro5Android.Boot

open Python

/-! ## The image identifier -/

/-- A hash function of `hashlib` with digests of `n` bytes. -/
structure Digest (n : ℕ) where
  digest : Bytes → Bytes
  length_digest : ∀ message, (digest message).length = n

/-- `digest.update(payload); digest.update(struct.pack("<I", len(payload)))`;
    `none` is `struct.error`. -/
def tagged (payload : Bytes) : Option Bytes := (packU32 payload.length).map (payload ++ ·)

/-- What `boot_image_id` hashes, with the device tree or without. -/
def idMessage (kernel ramdisk second dt : Bytes) (withDt : Bool) : Option Bytes := do
  let kernel ← tagged kernel
  let ramdisk ← tagged ramdisk
  let second ← tagged second
  let dt ← if withDt then tagged dt else some []
  return kernel ++ ramdisk ++ second ++ dt

/-- The two schemes of mkbootimg. -/
inductive Scheme
  | conditionalDtb | allSections
  deriving DecidableEq

/-- `boot_image_id` (lines 96–118). -/
def bootImageId (sha1 : Digest 20) (kernel ramdisk second dt : Bytes) (scheme : Scheme) :
    Option Bytes :=
  (idMessage kernel ramdisk second dt (decide (dt ≠ []) || scheme = .allSections)).map
    fun message => ljust (sha1.digest message) 32

/-- The exceptions `main` raises. -/
inductive RepackError
  | read (e : ReadError)
  /-- `base image ID does not match the supported … algorithms` -/
  | unknownScheme
  | structError
  deriving DecidableEq

/-- `detect_image_id_scheme` (lines 121–131). -/
def detectImageIdScheme (sha1 : Digest 20) (image : BootImage) : Except RepackError Scheme :=
  match bootImageId sha1 image.kernel image.ramdisk image.second image.dt .conditionalDtb with
  | none => .error .structError
  | some expected =>
    if image.imageId = expected then .ok .conditionalDtb
    else
      match bootImageId sha1 image.kernel image.ramdisk image.second image.dt .allSections with
      | none => .error .structError
      | some expected =>
        if image.imageId = expected then .ok .allSections else .error .unknownScheme

/-! ## The run -/

/-- `--kernel`, `--kernel-from-image`, or neither. -/
inductive KernelSource
  | base | file (payload : Bytes) | image (raw : Bytes)
  deriving DecidableEq

/-- The arguments of a run, with the contents of the files they name; the scheme
    is `none` for `auto`. -/
structure RepackArguments where
  kernel : KernelSource
  ramdisk : Option Bytes
  second : Option Bytes
  dt : Option Bytes
  imageIdScheme : Option Scheme
  deriving DecidableEq

def readImage (raw : Bytes) : Except RepackError BootImage :=
  (BootImage.read raw).mapError .read

/-- The kernel (lines 166–169). -/
def KernelSource.select (source : KernelSource) (base : BootImage) : Except RepackError Bytes :=
  match source with
  | .base => .ok base.kernel
  | .file payload => .ok payload
  | .image raw => (readImage raw).map BootImage.kernel

/-- The scheme (lines 173–175). -/
def RepackArguments.scheme (args : RepackArguments) (sha1 : Digest 20) (base : BootImage) :
    Except RepackError Scheme :=
  match args.imageIdScheme with
  | some scheme => .ok scheme
  | none => detectImageIdScheme sha1 base

/-- The header the repacker writes (lines 180–197), before the four sizes. -/
def BootImage.header (base : BootImage) (imageId : Bytes) : Header where
  magic := bootMagic
  kernelSize := 0
  kernelAddr := base.kernelAddr
  ramdiskSize := 0
  ramdiskAddr := base.ramdiskAddr
  secondSize := 0
  secondAddr := base.secondAddr
  tagsAddr := base.tagsAddr
  pageSize := base.pageSize
  dtSize := 0
  osVersionOrUnused := base.osVersionOrUnused
  name := base.name
  cmdline := base.cmdline
  imageId := imageId
  extraCmdline := base.extraCmdline

/-- `main` (lines 160–203) after its test that the output is another file than the
    base: the bytes it writes. -/
def repack (sha1 : Digest 20) (args : RepackArguments) (raw : Bytes) : Except RepackError Bytes := do
  let base ← readImage raw
  let kernel ← args.kernel.select base
  let ramdisk := args.ramdisk.getD base.ramdisk
  let second := args.second.getD base.second
  let dt := args.dt.getD base.dt
  let scheme ← args.scheme sha1 base
  match bootImageId sha1 kernel ramdisk second dt scheme with
  | none => .error .structError
  | some imageId =>
    match packHeader ((base.header imageId).sized kernel ramdisk second dt) with
    | none => .error .structError
    | some header => .ok (layout header kernel ramdisk second dt base.pageSize)

/-! ## What is hashed -/

/-- The message without the device tree. -/
def idPrefix (kernel ramdisk second : Bytes) : Bytes :=
  kernel ++ le32 kernel.length ++ (ramdisk ++ le32 ramdisk.length) ++
    (second ++ le32 second.length)

theorem tagged_eq {payload : Bytes} (h : payload.length < 2 ^ 32) :
    tagged payload = some (payload ++ le32 payload.length) := by
  rw [tagged, packU32_eq_some h, Option.map_some]

/-- Components of less than 2^32 bytes. -/
structure Small (kernel ramdisk second dt : Bytes) : Prop where
  kernel : kernel.length < 2 ^ 32
  ramdisk : ramdisk.length < 2 ^ 32
  second : second.length < 2 ^ 32
  dt : dt.length < 2 ^ 32

theorem idMessage_eq {kernel ramdisk second dt : Bytes} (h : Small kernel ramdisk second dt)
    (withDt : Bool) :
    idMessage kernel ramdisk second dt withDt =
      some (idPrefix kernel ramdisk second ++ if withDt then dt ++ le32 dt.length else []) := by
  rw [idMessage, tagged_eq h.kernel, tagged_eq h.ramdisk, tagged_eq h.second, tagged_eq h.dt]
  cases withDt <;> rfl

/-- The digest of a scheme. -/
def schemeId (sha1 : Digest 20) (kernel ramdisk second dt : Bytes) (scheme : Scheme) : Bytes :=
  ljust (sha1.digest (idPrefix kernel ramdisk second ++
    if decide (dt ≠ []) || scheme = .allSections then dt ++ le32 dt.length else [])) 32

theorem bootImageId_eq {sha1 : Digest 20} {kernel ramdisk second dt : Bytes}
    (h : Small kernel ramdisk second dt) (scheme : Scheme) :
    bootImageId sha1 kernel ramdisk second dt scheme =
      some (schemeId sha1 kernel ramdisk second dt scheme) := by
  rw [bootImageId, idMessage_eq h, Option.map_some, schemeId]

theorem length_schemeId (sha1 : Digest 20) (kernel ramdisk second dt : Bytes) (scheme : Scheme) :
    (schemeId sha1 kernel ramdisk second dt scheme).length = 32 := by
  apply length_ljust
  rw [sha1.length_digest]
  norm_num

/-- With a device tree the two schemes coincide. -/
theorem schemeId_of_dt {sha1 : Digest 20} {kernel ramdisk second dt : Bytes} (h : dt ≠ [])
    (scheme scheme' : Scheme) :
    schemeId sha1 kernel ramdisk second dt scheme =
      schemeId sha1 kernel ramdisk second dt scheme' := by
  simp [schemeId, h]

end Pro5Android.Boot
