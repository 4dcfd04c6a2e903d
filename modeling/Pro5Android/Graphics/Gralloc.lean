import Mathlib.Algebra.Order.Group.Nat
import Mathlib.Algebra.Ring.Int.Defs
import Mathlib.Data.Int.Notation
import Mathlib.Data.Nat.Notation
import Mathlib.Logic.Function.Basic

/-!
# The graphics buffer allocator

Model of `graphics/gralloc/a10-contract/gralloc.cpp` (lines 140–545), `mapper.cpp` (lines
90–493), `format_chooser.cpp` (lines 29–65) and `gralloc_priv.h` (lines 92–225), as
`Android.mk` builds them: with `MALI_AFBC_GRALLOC` and `USES_EXYNOS_COMMON_GRALLOC`, and
without the CRC buffers and the range flush, which no board file turns on.

* `gralloc_alloc`, `gralloc_free`: the buffers of a handle come from ION and go back.
* `gralloc_map`, `gralloc_unmap`: a handle is mapped into the process, by
  `gralloc_register_buffer` or by the first lock, and released.
* `gralloc_lock`, `gralloc_lock_ycbcr`: the addresses a client is given.

The kernel answers every request as it likes, see `Kernel`. Closing a descriptor that is
not open is a failure (`none`). The import of descriptors into ION, which counts references
only, cache maintenance, `internal_format` and the log are left out. Sizes are computed in
ℕ, which is what the code computes for widths and heights up to `maxDimension`.
-/

namespace Pro5Android.Gralloc

/-! ## Formats and usages -/

/-- The pixel formats with a name. -/
inductive Format
  | exynosArgb8888 | rgba8888 | rgbx8888 | bgra8888 | rgb888 | rgb565 | raw16 | rawOpaque | blob
  | implementationDefined | yCbCr420_888
  | yv12 | exynosYCbCr420P | yCrCb420Sp
  | exynosYv12M | exynosYCbCr420PM | exynosYCbCr420SpMTiled
  | exynosYCrCb420SpM | exynosYCrCb420SpMFull | exynosYCbCr420SpM | exynosYCbCr420SpMPriv
  | yCbCr422I | exynosYCbCr420Spn | exynosYCbCr420SpMS10b | exynosYCbCr420SpnS10b
  | other (n : ℤ)
deriving DecidableEq

/-- The bits of `usage` that are tested. -/
structure Usage where
  swReadOften : Bool
  hwTexture : Bool
  hwRender : Bool
  hwComposer : Bool
  hwFb : Bool
  hwVideoEncoder : Bool
  hwCameraZsl : Bool
  isProtected : Bool
  protectedDpb : Bool
  physicallyLinear : Bool
  privateNonsecure : Bool
  cameraReserved : Bool
  nozeroed : Bool
  videoExt : Bool
deriving DecidableEq

def einval : ℤ := 22

/-- `ALIGN`. -/
def align (x a : ℕ) : ℕ := (x + a - 1) / a * a

/-- Below, no product of the code overflows. -/
abbrev maxDimension : ℕ := 16384

def extSize : ℕ := 256

def privSize : ℕ := 64

/-- An `int` that a `size_t` is stored in. -/
def toInt (n : ℕ) : ℤ := (n : ℤ).bmod (2 ^ 32)

/-- A `size_t` that an `int` is converted to. -/
def toSizeT (n : ℤ) : ℕ := (n % 2 ^ 64).toNat

/-! ## ION and the address space -/

inductive Heap
  | system | exynosContig
deriving DecidableEq

inductive IonFlag
  | cached | cachedNeedsSync | syncForce | nozeroed | isProtected
  | g2dWfd | videoExt | videoExt2 | fimdVideo | mfcOutput
deriving DecidableEq

/-- The open ION descriptors with the sizes of their buffers, the mappings with their
    lengths, and how often the kernel was asked. -/
structure World where
  fds : ℤ → Option ℕ
  maps : ℕ → Option ℕ
  calls : ℕ

/-- What the kernel answers: a descriptor, an address, or an error number. -/
structure Kernel where
  ionAlloc : World → ℕ → Heap → List IonFlag → Except ℤ ℤ
  mmap : World → ℕ → ℤ → Except ℤ ℕ

def MAP_FAILED : ℕ := 2 ^ 64 - 1

/-- Descriptors and addresses are new, and an error of ION is not 0. -/
structure Kernel.Sound (k : Kernel) : Prop where
  fd_nonneg : ∀ {w len heap flags fd}, k.ionAlloc w len heap flags = .ok fd → 0 ≤ fd
  fd_new : ∀ {w len heap flags fd}, k.ionAlloc w len heap flags = .ok fd → w.fds fd = none
  ion_error : ∀ {w len heap flags e}, k.ionAlloc w len heap flags = .error e → e ≠ 0
  address : ∀ {w len fd a}, k.mmap w len fd = .ok a → a ≠ 0 ∧ a ≠ MAP_FAILED
  address_new : ∀ {w len fd a}, k.mmap w len fd = .ok a → w.maps a = none

namespace World

variable (k : Kernel) (w : World)

/-- `ion_alloc_fd`. -/
def ionAlloc (len : ℕ) (heap : Heap) (flags : List IonFlag) : Except ℤ ℤ × World :=
  match k.ionAlloc w len heap flags with
  | .ok fd =>
    (.ok fd, { w with fds := Function.update w.fds fd (some len), calls := w.calls + 1 })
  | .error e => (.error e, { w with calls := w.calls + 1 })

def close (fd : ℤ) : Option World :=
  if (w.fds fd).isSome then some { w with fds := Function.update w.fds fd none } else none

/-- No bytes cannot be mapped. -/
def mmap (len : ℕ) (fd : ℤ) : Except ℤ ℕ × World :=
  if len = 0 then (.error einval, w)
  else
    match k.mmap w len fd with
    | .ok a => (.ok a, { w with maps := Function.update w.maps a (some len), calls := w.calls + 1 })
    | .error e => (.error e, { w with calls := w.calls + 1 })

/-- Where no mapping of this length starts, nothing of what the code maps is released; its
    errors are only logged. -/
def munmap (a len : ℕ) : World :=
  if a ≠ 0 ∧ a ≠ MAP_FAILED ∧ w.maps a = some len then
    { w with maps := Function.update w.maps a none }
  else w

end World

/-- What `mmap` returns. -/
def addressOf : Except ℤ ℕ → ℕ
  | .ok a => a
  | .error _ => MAP_FAILED

/-! ## Handles (`gralloc_priv.h`) -/

structure Handle where
  version : ℤ
  numFds : ℤ
  numInts : ℤ
  magic : ℤ
  fd : ℤ
  fd1 : ℤ
  fd2 : ℤ
  flags : Usage
  size : ℤ
  format : Format
  width : ℕ
  height : ℕ
  stride : ℕ
  vstride : ℕ
  frameworkFormat : Format
  base : ℕ
  base1 : ℕ
  base2 : ℕ
deriving DecidableEq

namespace Handle

def sizeofNativeHandle : ℤ := 12

def sNumInts : ℤ := 34

def sNumFds : ℤ := 3

def sMagic : ℤ := 0x3141592

/-- The constructors, which differ in the descriptors they are given: `missing` of the three
    are -1 (lines 141–194). -/
def make (fd fd1 fd2 missing : ℤ) (size : ℕ) (flags : Usage) (w h : ℕ)
    (format frameworkFormat : Format) (stride vstride : ℕ) : Handle where
  version := sizeofNativeHandle
  numFds := sNumFds - missing
  numInts := sNumInts + missing
  magic := sMagic
  fd := fd
  fd1 := fd1
  fd2 := fd2
  flags := flags
  size := toInt size
  format := format
  width := w
  height := h
  stride := stride
  vstride := vstride
  frameworkFormat := frameworkFormat
  base := 0
  base1 := 0
  base2 := 0

/-- Lines 199–209. -/
def validate (h : Handle) : ℤ :=
  if h.version ≠ sizeofNativeHandle ∨ h.numInts + h.numFds ≠ sNumInts + sNumFds ∨
      h.magic ≠ sMagic then -einval
  else 0

end Handle

/-! ## Allocation (`gralloc.cpp`) -/

def selectHeap (usage : Usage) : Heap :=
  if usage.isProtected then
    if usage.privateNonsecure && !usage.physicallyLinear then .system else .exynosContig
  else if usage.cameraReserved then .exynosContig
  else .system

/-- `check_for_compression`; `afbc` is the property `ddk.set.afbc`. -/
def checkForCompression (afbc : ℤ) (w h : ℕ) (format : Format) (usage : Usage) : Bool :=
  match format with
  | .rgba8888 | .bgra8888 | .rgb888 | .rgbx8888 | .rgb565 | .yv12 =>
    if afbc = 0 then false
    else if w % 16 ≠ 0 then false
    else if w ≤ 144 ∨ h ≤ 144 then false
    else if usage.swReadOften then false
    else usage.hwFb || usage.hwRender || usage.hwComposer || usage.hwTexture
  | _ => false

/-- Sizes in bytes and strides of the buffers of a handle; `chroma` and `planes` as in
    `gralloc_alloc_yuv`. -/
structure Layout where
  stride : ℕ
  vstride : ℕ
  size : ℕ
  chroma : ℕ
  planes : ℕ
deriving DecidableEq

def bytesPerPixel : Format → Option ℕ
  | .exynosArgb8888 | .rgba8888 | .rgbx8888 | .bgra8888 => some 4
  | .rgb888 => some 3
  | .rgb565 | .raw16 | .rawOpaque => some 2
  | _ => none

/-- Lines 179–227. -/
def rgbLayout (compressible : Bool) (w h : ℕ) (format : Format) : Option Layout :=
  if format = .blob then some ⟨w, h, w * h, 0, 1⟩
  else
    (bytesPerPixel format).map fun bpp =>
      let bpr := align w 16 * bpp
      let vstride := align h 16
      let size := (if vstride < h + 2 then bpr * (h + 2) else bpr * vstride) + extSize
      let size :=
        if compressible ∧ size ≠ 0 then
          let hAligned := align h 16
          let nblocks := w / 16 * hAligned / 16
          w * hAligned * bpp + align (nblocks * 16) 1024
        else size
      ⟨bpr / bpp, vstride, size, 0, 1⟩

/-- Lines 229–241. -/
def rgbFlags (usage : Usage) (flags : List IonFlag) : List IonFlag :=
  if usage.isProtected then
    if usage.privateNonsecure && usage.physicallyLinear then flags ++ [.g2dWfd]
    else if usage.videoExt then flags ++ [.videoExt, .isProtected]
    else if usage.hwComposer && !usage.hwTexture && !usage.hwRender then
      flags ++ [.fimdVideo, .isProtected]
    else flags ++ [.mfcOutput, .isProtected]
  else flags

/-- The error, the handle, and the stride for the framework. -/
structure AllocResult where
  err : ℤ
  hnd : Option Handle
  stride : ℕ

section Alloc

variable (k : Kernel) (afbc : ℤ) (world : World) (w h : ℕ) (format : Format) (usage : Usage)
  (ionFlags : List IonFlag)

/-- Lines 167–268. -/
def gralloc_alloc_rgb : AllocResult × World :=
  match rgbLayout (checkForCompression afbc w h format usage) w h format with
  | none => (⟨-einval, none, 0⟩, world)
  | some l =>
    match world.ionAlloc k l.size (selectHeap usage) (rgbFlags usage ionFlags) with
    | (.error e, world) => (⟨e, none, l.stride⟩, world)
    | (.ok fd, world) =>
      (⟨0, some (Handle.make fd (-1) (-1) 2 l.size usage w h format format l.stride l.vstride),
        l.stride⟩, world)

/-- The sizes of `gralloc_alloc_framework_yuv` (lines 280–293). -/
def frameworkYuvLayout : Option Layout :=
  match format with
  | .yv12 | .exynosYCbCr420P =>
    let stride := align w 16
    some ⟨stride, h, stride * h + align (stride / 2) 16 * h + extSize, 0, 1⟩
  | .yCrCb420Sp => some ⟨w, h, w * h * 3 / 2 + extSize, 0, 1⟩
  | _ => none

/-- Lines 270–304. -/
def gralloc_alloc_framework_yuv (frameworkFormat : Format) : AllocResult × World :=
  match frameworkYuvLayout w h format with
  | none => (⟨-einval, none, 0⟩, world)
  | some l =>
    let stride := if frameworkFormat = .yCbCr420_888 then 0 else l.stride
    match world.ionAlloc k l.size (selectHeap usage) ionFlags with
    | (.error e, world) => (⟨e, none, stride⟩, world)
    | (.ok fd, world) =>
      (⟨0, some (Handle.make fd (-1) (-1) 2 l.size usage w h format frameworkFormat stride
        l.vstride), stride⟩, world)

/-- The format that is chosen for an abstract one (lines 321–334). -/
def resolveFormat : Format :=
  match format with
  | .implementationDefined =>
    if usage.hwCameraZsl then .yCbCr422I
    else if usage.hwTexture then .exynosYCrCb420SpM
    else if usage.hwVideoEncoder then .exynosYCrCb420SpM
    else .implementationDefined
  | .yCbCr420_888 => .yCrCb420Sp
  | f => f

/-- Lines 336–350. -/
def yuvFlags : List IonFlag :=
  if usage.isProtected then
    let flags := ionFlags ++ [.isProtected]
    if usage.videoExt then flags ++ [.videoExt]
    else if usage.protectedDpb then flags ++ [.videoExt2]
    else if usage.hwComposer && !usage.hwTexture && !usage.hwRender then flags ++ [.fimdVideo]
    else flags ++ [.mfcOutput]
  else if usage.cameraReserved then ionFlags ++ [.mfcOutput]
  else ionFlags

/-- Lines 319 and 355–433. -/
def yuvLayout : Option Layout :=
  let stride := align w 16
  match format with
  | .exynosYv12M | .exynosYCbCr420PM =>
    let stride := align w 32
    let vstride := align h 16
    some ⟨stride, vstride, vstride * stride + extSize,
      vstride / 2 * align (stride / 2) 16 + extSize, 3⟩
  | .exynosYCbCr420SpMTiled =>
    let vstride := align h 32
    some ⟨stride, vstride, vstride * stride + extSize, align (h / 2) 32 * stride + extSize, 2⟩
  | .exynosYCrCb420SpM | .exynosYCrCb420SpMFull | .exynosYCbCr420SpM =>
    let vstride := align h 16
    some ⟨stride, vstride, stride * vstride + extSize, stride * align (vstride / 2) 8 + extSize, 2⟩
  | .exynosYCbCr420SpMPriv =>
    let vstride := align h 16
    some ⟨stride, vstride, stride * vstride + extSize, stride * align (vstride / 2) 8 + extSize, 3⟩
  | .yCbCr422I => some ⟨stride, h, h * stride * 2 + extSize, 0, 1⟩
  | .exynosYCbCr420Spn =>
    let vstride := align h 16
    let chroma := align (stride * vstride / 2 + extSize) 16
    some ⟨stride, vstride, stride * vstride + extSize + chroma, chroma, 1⟩
  | .exynosYCbCr420SpMS10b =>
    let vstride := align h 16
    some ⟨stride, vstride, stride * vstride + 64 + (align (w / 4) 16 * h + 64) + extSize,
      stride * align (vstride / 2) 8 + 64 + (align (w / 4) 16 * (h / 2) + 64) + extSize, 2⟩
  | .exynosYCbCr420SpnS10b =>
    let vstride := align h 16
    let chroma := align (stride * vstride / 2 + extSize) 16 + align (w / 4) 16 * (vstride / 2) + 64
    some ⟨stride, vstride,
      stride * vstride + extSize + align (w / 4) 16 * vstride + 64 + chroma, chroma, 1⟩
  | _ => none

/-- The first buffer; without a secure one it is asked for again (lines 435–446). -/
def allocLuma (len : ℕ) : (Except ℤ ℤ × World) × List IonFlag :=
  match world.ionAlloc k len (selectHeap usage) ionFlags with
  | (.error e, world) =>
    if usage.protectedDpb then
      let flags := ionFlags.filter (· ≠ .videoExt2) ++ [.mfcOutput]
      (world.ionAlloc k len (selectHeap usage) flags, flags)
    else ((.error e, world), ionFlags)
  | r => (r, ionFlags)

/-- The buffers behind the first one (lines 447–476). -/
def allocPlanes (fd : ℤ) (l : Layout) (frameworkFormat : Format) : Option (AllocResult × World) :=
  if l.planes = 1 then
    some (⟨0, some (Handle.make fd (-1) (-1) 2 l.size usage w h format frameworkFormat l.stride
      l.vstride), l.stride⟩, world)
  else
    match world.ionAlloc k l.chroma (selectHeap usage) ionFlags with
    | (.error e, world) => (world.close fd).map fun world => (⟨e, none, l.stride⟩, world)
    | (.ok fd1, world) =>
      if l.planes = 3 then
        let third :=
          if format = .exynosYCbCr420SpMPriv then world.ionAlloc k privSize .system []
          else world.ionAlloc k l.chroma (selectHeap usage) ionFlags
        match third with
        | (.error e, world) =>
          (world.close fd1).bind fun world =>
            (world.close fd).map fun world => (⟨e, none, l.stride⟩, world)
        | (.ok fd2, world) =>
          some (⟨0, some (Handle.make fd fd1 fd2 0 l.size usage w h format frameworkFormat l.stride
            l.vstride), l.stride⟩, world)
      else
        some (⟨0, some (Handle.make fd fd1 (-1) 1 l.size usage w h format frameworkFormat l.stride
          l.vstride), l.stride⟩, world)

/-- Lines 306–476. -/
def gralloc_alloc_yuv : Option (AllocResult × World) :=
  let frameworkFormat := format
  let format := resolveFormat format usage
  let ionFlags := yuvFlags usage ionFlags
  if format = .yv12 ∨ format = .exynosYCbCr420P ∨ format = .yCrCb420Sp then
    some (gralloc_alloc_framework_yuv k world w h format usage ionFlags frameworkFormat)
  else
    match yuvLayout w h format with
    | none => some (⟨-einval, none, align w 16⟩, world)
    | some l =>
      match allocLuma k world usage ionFlags l.size with
      | ((.error e, world), _) => some (⟨e, none, l.stride⟩, world)
      | ((.ok fd, world), ionFlags) =>
        allocPlanes k world w h format usage ionFlags fd l frameworkFormat

/-- Lines 490–497. -/
def cacheFlags : List IonFlag :=
  (if usage.swReadOften then
    [.cached, .cachedNeedsSync] ++ if usage.hwRender then [.syncForce] else []
  else []) ++ if usage.nozeroed then [.nozeroed] else []

end Alloc

/-- The descriptors of a handle are closed (lines 516–520 and 537–541). -/
def closeAll (hnd : Handle) (world : World) : Option World :=
  (world.close hnd.fd).bind fun world =>
    (if hnd.fd1 ≥ 0 then world.close hnd.fd1 else some world).bind fun world =>
      if hnd.fd2 ≥ 0 then world.close hnd.fd2 else some world

/-- Lines 478–523. -/
def gralloc_alloc (k : Kernel) (afbc : ℤ) (world : World) (w h : ℤ) (format : Format)
    (usage : Usage) : Option (AllocResult × World) :=
  if w ≤ 0 ∨ h ≤ 0 then some (⟨-einval, none, 0⟩, world)
  else
    let r := gralloc_alloc_rgb k afbc world w.toNat h.toNat format usage (cacheFlags usage)
    (if r.1.err ≠ 0 then
      gralloc_alloc_yuv k r.2 w.toNat h.toNat format usage (cacheFlags usage)
    else some r).bind fun r =>
      if r.1.err = 0 then some r
      else
        match r.1.hnd with
        | none => some r
        | some hnd => (closeAll hnd r.2).map fun world => (⟨r.1.err, none, r.1.stride⟩, world)

/-! ## The mapper (`mapper.cpp`) -/

/-- `chroma_size`, in `gralloc_map` (lines 103–141) and in `gralloc_unmap` (lines 185–220). -/
def chromaSize (format : Format) (width height stride vstride : ℕ) : ℕ :=
  match format with
  | .exynosYCbCr420SpMTiled => align (height / 2) 32 * stride + extSize
  | .exynosYCrCb420SpM | .exynosYCrCb420SpMFull | .exynosYCbCr420SpM | .exynosYCbCr420SpMPriv =>
    stride * align (vstride / 2) 8 + extSize
  | .exynosYv12M | .exynosYCbCr420PM => vstride / 2 * align (stride / 2) 16 + extSize
  | .exynosYCbCr420SpMS10b =>
    stride * align (vstride / 2) 8 + 64 + (align (width / 4) 16 * (height / 2) + 64) + extSize
  | _ => 0

def Handle.chroma (hnd : Handle) : ℕ :=
  chromaSize hnd.format hnd.width hnd.height hnd.stride hnd.vstride

/-- How far behind the first address the second one is in a buffer with one plane: the code
    adds to an `int *` (lines 364–367). -/
def secondOffset (format : Format) (width stride vstride : ℕ) : Option ℕ :=
  match format with
  | .exynosYCbCr420Spn => some (4 * (stride * vstride + extSize))
  | .exynosYCbCr420SpnS10b =>
    some (4 * (stride * vstride + extSize + align (width / 4) 16 * vstride + 64))
  | _ => none

def Handle.secondOffset (hnd : Handle) : Option ℕ :=
  Gralloc.secondOffset hnd.format hnd.width hnd.stride hnd.vstride

section Map

variable (k : Kernel) (world : World) (hnd : Handle)

/-- The private plane (lines 120–129). -/
def mapPrivate : Handle × World :=
  if hnd.format = .exynosYCbCr420SpMPriv then
    match world.mmap k privSize hnd.fd2 with
    | (.ok a, world) => ({ hnd with base2 := a }, world)
    | (.error _, world) => (hnd, world)
  else (hnd, world)

/-- Lines 160–165. -/
def mapSecond (chroma : ℕ) : Handle × World :=
  if hnd.fd1 ≥ 0 then
    let r := world.mmap k chroma hnd.fd1
    ({ hnd with base1 := addressOf r.1 }, r.2)
  else (hnd, world)

/-- Lines 166–172. -/
def mapThird (chroma : ℕ) : Handle × World :=
  if hnd.fd2 ≥ 0 ∧ hnd.format ≠ .exynosYCbCr420SpMPriv then
    let r := world.mmap k chroma hnd.fd2
    ({ hnd with base2 := addressOf r.1 }, r.2)
  else (hnd, world)

/-- Lines 90–176. -/
def gralloc_map : ℤ × Handle × World :=
  let hnd :=
    if hnd.flags.isProtected || hnd.flags.nozeroed then
      { hnd with base := 0, base1 := 0, base2 := 0 }
    else hnd
  let chroma := hnd.chroma
  let (hnd, world) := mapPrivate k world hnd
  if hnd.flags.isProtected && !hnd.flags.privateNonsecure then (0, hnd, world)
  else if !hnd.flags.isProtected && !hnd.flags.nozeroed then
    match world.mmap k (toSizeT hnd.size) hnd.fd with
    | (.error e, world) => (-e, hnd, world)
    | (.ok a, world) =>
      let (hnd, world) := mapSecond k world { hnd with base := a } chroma
      let (hnd, world) := mapThird k world hnd chroma
      (0, hnd, world)
  else (0, hnd, world)

/-- Lines 202–208. -/
def unmapPrivate : Handle × World :=
  if hnd.format = .exynosYCbCr420SpMPriv then
    ({ hnd with base2 := 0 }, world.munmap hnd.base2 privSize)
  else (hnd, world)

/-- Lines 241–249. -/
def unmapThird (chroma : ℕ) : Handle × World :=
  if hnd.fd2 ≥ 0 ∧ hnd.base2 ≠ 0 then ({ hnd with base2 := 0 }, world.munmap hnd.base2 chroma)
  else (hnd, world)

/-- Lines 232–249. -/
def unmapSecond (chroma : ℕ) : Handle × World :=
  if hnd.fd1 ≥ 0 then
    if hnd.base1 = 0 then (hnd, world)
    else unmapThird (world.munmap hnd.base1 chroma) { hnd with base1 := 0 } chroma
  else unmapThird world hnd chroma

/-- Lines 178–251. -/
def gralloc_unmap : Handle × World :=
  let chroma := hnd.chroma
  let (hnd, world) := unmapPrivate world hnd
  if hnd.base = 0 then (hnd, world)
  else unmapSecond (world.munmap hnd.base (toSizeT hnd.size)) { hnd with base := 0 } chroma

/-- Lines 267–296. -/
def gralloc_register_buffer : ℤ × Handle × World :=
  if hnd.validate < 0 then (-einval, hnd, world) else gralloc_map k world hnd

/-- Lines 298–318. -/
def gralloc_unregister_buffer : ℤ × Handle × World :=
  if hnd.validate < 0 then (-einval, hnd, world) else (0, gralloc_unmap world hnd)

/-- The addresses that `gralloc_lock` stores. -/
structure Vaddr where
  first : ℕ
  second : Option ℕ
  third : Option ℕ
deriving DecidableEq

/-- Lines 362–377. -/
def lockAddresses : Vaddr where
  first := hnd.base
  second := if hnd.fd1 ≥ 0 then some hnd.base1 else hnd.secondOffset.map (hnd.base + ·)
  third := if hnd.fd2 ≥ 0 then some hnd.base2 else none

/-- Lines 320–380; without addresses on an error. -/
def gralloc_lock : ℤ × Option Vaddr × Handle × World :=
  if hnd.validate < 0 then (-einval, none, hnd, world)
  else if hnd.frameworkFormat = .yCbCr420_888 then (-einval, none, hnd, world)
  else
    let (hnd, world) := if hnd.base = 0 then (gralloc_map k world hnd).2 else (hnd, world)
    (0, some (lockAddresses hnd), hnd, world)

/-- `android_ycbcr`. -/
structure YCbCr where
  y : ℕ
  cb : ℕ
  cr : ℕ
  ystride : ℕ
  cstride : ℕ
  chromaStep : ℕ
deriving DecidableEq

/-- Lines 432–493. -/
def gralloc_lock_ycbcr : ℤ × Option YCbCr :=
  if hnd.validate < 0 then (-einval, none)
  else
    match hnd.format with
    | .yCrCb420Sp =>
      let yStride := hnd.width
      let vOffset := yStride * hnd.height
      (0, some ⟨hnd.base, hnd.base + (vOffset + 1), hnd.base + vOffset, yStride, yStride, 2⟩)
    | .yv12 =>
      let yStride := align hnd.width 16
      let cStride := align (yStride / 2) 16
      (0, some ⟨hnd.base, hnd.base + yStride * hnd.height + cStride * hnd.height / 2,
        hnd.base + yStride * hnd.height, yStride, cStride, 1⟩)
    | _ => (-einval, none)

/-- Lines 525–545. -/
def gralloc_free : Option (ℤ × World) :=
  if hnd.validate < 0 then some (-einval, world)
  else
    let world := if hnd.base ≠ 0 then (gralloc_unmap world hnd).2 else world
    (closeAll hnd world).map fun world => (0, world)

end Map

end Pro5Android.Gralloc
