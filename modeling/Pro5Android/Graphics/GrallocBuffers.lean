import Pro5Android.Graphics.Gralloc
import Pro5Android.Lib.Ownership

/-!
# The buffers of the allocator

The places of a run are the planes of its handles. `gralloc_alloc` gives every plane of a new
handle a descriptor of its own, of a buffer that is as long as the mapper takes it to be, or
leaves nothing behind; `gralloc_free` closes each of them once.

Results:
* `ionAlloc_cases`, `close_of_held`: the kernel's part.
* `Layout.Fits`: what the sizes of a layout are to the mapper.
* `allocated_gralloc_alloc`, `closeAll_of_owned`: what allocating and freeing leave.
-/

namespace Pro5Android.Gralloc

open Lib

/-! ## Places -/

inductive Plane
  | first | second | third
deriving DecidableEq

/-- A plane of a handle. -/
abbrev Place := ℕ × Plane

/-- The planes of one handle hold `f`. -/
def place {α : Type} (owner : Place → Option α) (id : ℕ) (f : Plane → Option α) :
    Place → Option α :=
  fun p => if p.1 = id then f p.2 else owner p

section Places

variable {α : Type} {owner : Place → Option α} {id : ℕ} {f : Plane → Option α}

theorem place_self (plane : Plane) : place owner id f (id, plane) = f plane := by
  simp [place]

theorem update_place (plane : Plane) (v : Option α) :
    Function.update (place owner id f) (id, plane) v =
      place owner id (Function.update f plane v) := by
  funext ⟨i, p⟩
  by_cases hi : i = id
  · by_cases hp : p = plane <;> simp [place, hi, hp]
  · simp [place, hi]

theorem place_eq_self (h : ∀ plane, owner (id, plane) = f plane) : place owner id f = owner := by
  funext ⟨i, p⟩
  by_cases hi : i = id
  · subst hi
    simp [place, h]
  · simp [place, hi]

theorem place_none_eq_some {p : Place} {x : α} :
    place owner id (fun _ => none) p = some x ↔ p.1 ≠ id ∧ owner p = some x := by
  by_cases hp : p.1 = id <;> simp [place, hp]

end Places

/-! ## The kernel's answers -/

section Kernel

variable {k : Kernel} {w : World} {owner : Place → Option (ℤ × ℕ)} {p : Place}

theorem ionAlloc_cases (hk : k.Sound) (w : World) (len : ℕ) (heap : Heap)
    (flags : List IonFlag) :
    (∃ fd w', w.ionAlloc k len heap flags = (.ok fd, w') ∧ 0 ≤ fd ∧ w'.maps = w.maps ∧
      w.fds fd = none ∧ w'.fds = Function.update w.fds fd (some len)) ∨
    ∃ e w', w.ionAlloc k len heap flags = (.error e, w') ∧ e ≠ 0 ∧ w'.maps = w.maps ∧
      w'.fds = w.fds := by
  simp only [World.ionAlloc]
  cases hr : k.ionAlloc w len heap flags with
  | ok fd => exact .inl ⟨fd, _, rfl, hk.fd_nonneg hr, rfl, hk.fd_new hr, rfl⟩
  | error e => exact .inr ⟨e, _, rfl, hk.ion_error hr, rfl, rfl⟩

/-- What a place holds can be closed. -/
theorem close_of_held (h : Owned w.fds owner) {fd : ℤ} {len : ℕ} (hp : owner p = some (fd, len)) :
    ∃ w', w.close fd = some w' ∧ w'.maps = w.maps ∧
      Owned w'.fds (Function.update owner p none) := by
  refine ⟨_, if_pos ?_, rfl, h.release hp⟩
  rw [h.held hp, Option.isSome_some]

end Kernel

/-! ## What a handle holds -/

namespace Handle

/-- The descriptor of a plane, and how long the mapper takes its buffer to be. -/
def buffer (hnd : Handle) : Plane → Option (ℤ × ℕ)
  | .first => some (hnd.fd, toSizeT hnd.size)
  | .second => if hnd.fd1 ≥ 0 then some (hnd.fd1, hnd.chroma) else none
  | .third =>
    if hnd.fd2 ≥ 0 then
      some (hnd.fd2, if hnd.format = .exynosYCbCr420SpMPriv then privSize else hnd.chroma)
    else none

def Unmapped (hnd : Handle) : Prop := hnd.base = 0 ∧ hnd.base1 = 0 ∧ hnd.base2 = 0

end Handle

section CloseAll

variable {w : World} {owner : Place → Option (ℤ × ℕ)} {id : ℕ}

/-- A plane without a descriptor is passed over. -/
theorem closeIf_of_owned {f : Plane → Option (ℤ × ℕ)} (plane : Plane) {fd : ℤ} {len : ℕ}
    (h : Owned w.fds (place owner id f))
    (hf : f plane = if fd ≥ 0 then some (fd, len) else none) :
    ∃ w', (if fd ≥ 0 then w.close fd else some w) = some w' ∧ w'.maps = w.maps ∧
      Owned w'.fds (place owner id (Function.update f plane none)) := by
  by_cases hfd : fd ≥ 0
  · rw [if_pos hfd] at hf
    obtain ⟨w', hw', hmaps, ho⟩ := close_of_held h ((place_self plane).trans hf)
    rw [update_place] at ho
    exact ⟨w', by rw [if_pos hfd, hw'], hmaps, ho⟩
  · rw [if_neg hfd] at hf
    refine ⟨w, if_neg hfd, rfl, ?_⟩
    rwa [← hf, Function.update_eq_self]

theorem closeAll_of_owned {hnd : Handle} (h : Owned w.fds (place owner id hnd.buffer)) :
    ∃ w', closeAll hnd w = some w' ∧ w'.maps = w.maps ∧
      Owned w'.fds (place owner id fun _ => none) := by
  obtain ⟨w₁, h₁, hm₁, ho₁⟩ := close_of_held h (place_self .first)
  rw [update_place] at ho₁
  obtain ⟨w₂, h₂, hm₂, ho₂⟩ := closeIf_of_owned .second ho₁ rfl
  obtain ⟨w₃, h₃, hm₃, ho₃⟩ := closeIf_of_owned .third ho₂ rfl
  refine ⟨w₃, ?_, hm₃.trans (hm₂.trans hm₁), ?_⟩
  · simp only [closeAll, h₁, Option.bind_some, h₂, h₃]
  · have hnone : Function.update (Function.update (Function.update hnd.buffer .first none)
        .second none) .third none = fun _ => none := by
      funext plane
      cases plane <;> simp
    rwa [hnone] at ho₃

end CloseAll

/-! ## Sizes -/

theorem toSizeT_toInt {n : ℕ} (h : n < 2 ^ 31) : toSizeT (toInt n) = n := by
  have hint : toInt n = n := Int.bmod_eq_of_le (by omega) (by omega)
  rw [toSizeT, hint, Int.emod_eq_of_lt (by omega) (by omega), Int.toNat_natCast]

theorem align_le {x b : ℕ} (a : ℕ) (h : x ≤ a * b) : align x a ≤ a * b := by
  rcases Nat.eq_zero_or_pos a with rfl | ha
  · simp [align]
  · rw [align, Nat.mul_comm]
    refine Nat.mul_le_mul_left a (Nat.le_of_lt_succ ((Nat.div_lt_iff_lt_mul ha).mpr ?_))
    rw [Nat.succ_mul, Nat.mul_comm b]
    omega

theorem align_le_add (x a : ℕ) : align x a ≤ x + a - 1 := Nat.div_mul_le_self _ _

/-- What the sizes of a layout are to the mapper: an `int` has room for the first, the others
    are the ones it computes, the second address in a single plane is behind its end, and the
    formats of `gralloc_lock_ycbcr` have the sizes of `gralloc_alloc_framework_yuv`. -/
structure Layout.Fits (l : Layout) (w h : ℕ) (format : Format) : Prop where
  size_lt : l.size < 2 ^ 31
  chroma_eq : l.planes ≠ 1 → chromaSize format w h l.stride l.vstride = l.chroma
  outside : ∀ n ∈ secondOffset format w l.stride l.vstride, l.size ≤ n
  framework : ∀ l' ∈ frameworkYuvLayout w h format, l.size = l'.size

section Layouts

variable {w h : ℕ} {format : Format} {l : Layout}

theorem fits_rgbLayout {compressible : Bool} (hw : w ≤ maxDimension) (hh : h ≤ maxDimension)
    (hl : rgbLayout compressible w h format = some l) : l.Fits w h format := by
  have haw : align w 16 ≤ 16 * 1024 := align_le 16 hw
  have hah : align h 16 ≤ 16 * 1024 := align_le 16 hh
  simp only [rgbLayout] at hl
  split at hl
  · obtain rfl := Option.some.inj hl
    rename_i hformat
    subst hformat
    refine ⟨?_, by simp, by simp [secondOffset], by simp [frameworkYuvLayout]⟩
    have hsize : w * h ≤ 16384 * 16384 := Nat.mul_le_mul hw hh
    show w * h < 2 ^ 31
    omega
  · obtain ⟨bpp, hbpp, rfl⟩ := Option.map_eq_some_iff.mp hl
    have hbpp4 : bpp ≤ 4 := by
      cases format <;> simp [bytesPerPixel] at hbpp <;> omega
    refine ⟨?_, by simp, ?_, ?_⟩
    · have hbpr := Nat.mul_le_mul haw hbpp4
      have hrows : align w 16 * bpp * (h + 2) ≤ 16 * 1024 * 4 * (16384 + 2) :=
        Nat.mul_le_mul hbpr (by simp only [maxDimension] at hh; omega)
      have halign : align w 16 * bpp * align h 16 ≤ 16 * 1024 * 4 * (16 * 1024) :=
        Nat.mul_le_mul hbpr hah
      have hbody : w * align h 16 * bpp ≤ 16384 * (16 * 1024) * 4 :=
        Nat.mul_le_mul (Nat.mul_le_mul hw hah) hbpp4
      have hblocks : w / 16 * align h 16 ≤ 1024 * (16 * 1024) :=
        Nat.mul_le_mul (by simp only [maxDimension] at hw; omega) hah
      have hheader : align (w / 16 * align h 16 / 16 * 16) 1024 ≤ 1024 * 16384 :=
        align_le 1024 (by omega)
      simp only [extSize]
      split <;> split <;> omega
    · cases format <;> simp [bytesPerPixel] at hbpp <;> simp [secondOffset]
    · cases format <;> simp [bytesPerPixel] at hbpp <;> simp [frameworkYuvLayout]

theorem fits_frameworkYuvLayout (hw : w ≤ maxDimension) (hh : h ≤ maxDimension)
    (hl : frameworkYuvLayout w h format = some l) : l.size < 2 ^ 31 := by
  have haw : align w 16 ≤ 16 * 1024 := align_le 16 hw
  have hluma := Nat.mul_le_mul haw hh
  have hhalf : align (align w 16 / 2) 16 ≤ 16 * 512 := align_le 16 (by omega)
  have hchroma := Nat.mul_le_mul hhalf hh
  have hplain := Nat.mul_le_mul hw hh
  simp only [maxDimension] at hluma hchroma hplain
  cases format <;> simp only [frameworkYuvLayout, Option.some.injEq, reduceCtorEq] at hl <;>
    subst hl <;> simp only [extSize] <;> omega

theorem fits_yuvLayout (hw : w ≤ maxDimension) (hh : h ≤ maxDimension)
    (hl : yuvLayout w h format = some l) : l.Fits w h format := by
  have haw : align w 16 ≤ 16 * 1024 := align_le 16 hw
  have haw32 : align w 32 ≤ 32 * 512 := align_le 32 hw
  have hah : align h 16 ≤ 16 * 1024 := align_le 16 hh
  have hah32 : align h 32 ≤ 32 * 512 := align_le 32 hh
  have hextra : align (w / 4) 16 ≤ 16 * 256 :=
    align_le 16 (by simp only [maxDimension] at hw; omega)
  have hluma := Nat.mul_le_mul haw hah
  have hluma32 := Nat.mul_le_mul hah haw32
  have htiled := Nat.mul_le_mul hah32 haw
  have hpacked := Nat.mul_le_mul hh haw
  have hextra₁ := Nat.mul_le_mul hextra hah
  have hextra₂ := Nat.mul_le_mul hextra hh
  have hextra₃ := Nat.mul_le_mul_left (align (w / 4) 16) (Nat.div_le_self (align h 16) 2)
  have hchroma := align_le_add (align w 16 * align h 16 / 2 + extSize) 16
  simp only [extSize] at hchroma
  simp only [maxDimension] at hpacked hextra₂
  cases format <;> simp only [yuvLayout, Option.some.injEq, reduceCtorEq] at hl <;> subst hl <;>
    refine ⟨?_, ?_, ?_, ?_⟩ <;>
    simp [secondOffset, chromaSize, extSize, frameworkYuvLayout] <;> omega

end Layouts

/-! ## Allocating -/

/-- What stays true of a handle when its bases change. -/
structure Handle.Made (hnd : Handle) : Prop where
  valid : hnd.validate = 0
  outside : ∀ n ∈ hnd.secondOffset, toSizeT hnd.size ≤ n
  framework : ∀ l ∈ frameworkYuvLayout hnd.width hnd.height hnd.format,
    toSizeT hnd.size = l.size

/-- A handle that `gralloc_alloc` hands out. -/
structure Handle.New (hnd : Handle) (format : Format) : Prop extends hnd.Made where
  format_eq : hnd.format = format
  unmapped : hnd.Unmapped

/-- What an attempt to allocate a handle leaves: an error and nothing else, or the handle with
    its buffers in its place `id`. -/
inductive Allocated (owner : Place → Option (ℤ × ℕ)) (id : ℕ) (format : Format)
    (maps : ℕ → Option ℕ) : AllocResult × World → Prop
  | failed {e stride w} (he : e ≠ 0) (hmaps : w.maps = maps)
      (h : Owned w.fds (place owner id fun _ => none)) :
      Allocated owner id format maps (⟨e, none, stride⟩, w)
  | allocated {hnd stride w} (hnew : hnd.New format) (hmaps : w.maps = maps)
      (h : Owned w.fds (place owner id hnd.buffer)) :
      Allocated owner id format maps (⟨0, some hnd, stride⟩, w)

/-- A first buffer and no other. -/
def single (fd : ℤ) (len : ℕ) : Plane → Option (ℤ × ℕ) :=
  Function.update (fun _ => none) .first (some (fd, len))

section Make

variable {fd fd1 fd2 missing : ℤ} {size w h stride vstride : ℕ} {usage : Usage}
  {format frameworkFormat : Format}

theorem new_make (hsize : size < 2 ^ 31)
    (houtside : ∀ n ∈ secondOffset format w stride vstride, size ≤ n)
    (hframework : ∀ l ∈ frameworkYuvLayout w h format, size = l.size) :
    (Handle.make fd fd1 fd2 missing size usage w h format frameworkFormat stride vstride).New
      format where
  format_eq := rfl
  unmapped := ⟨rfl, rfl, rfl⟩
  valid := by
    have hnums : Handle.sNumInts + missing + (Handle.sNumFds - missing) =
        Handle.sNumInts + Handle.sNumFds := by omega
    simp [Handle.validate, Handle.make, hnums]
  outside := by
    simpa [Handle.secondOffset, Handle.make, toSizeT_toInt hsize] using houtside
  framework := by
    simpa [Handle.make, toSizeT_toInt hsize] using hframework

theorem Layout.Fits.new_make {l : Layout} (hfits : l.Fits w h format) :
    (Handle.make fd fd1 fd2 missing l.size usage w h format frameworkFormat l.stride
      l.vstride).New format :=
  Gralloc.new_make hfits.size_lt hfits.outside hfits.framework

theorem buffer_make_single (hsize : size < 2 ^ 31) :
    (Handle.make fd (-1) (-1) missing size usage w h format frameworkFormat stride
      vstride).buffer = single fd size := by
  funext plane
  cases plane <;> simp [Handle.buffer, Handle.make, single, toSizeT_toInt hsize]

variable {chroma : ℕ}

theorem buffer_make_second (hsize : size < 2 ^ 31) (hfd1 : 0 ≤ fd1)
    (hchroma : chromaSize format w h stride vstride = chroma) :
    (Handle.make fd fd1 (-1) missing size usage w h format frameworkFormat stride
      vstride).buffer = Function.update (single fd size) .second (some (fd1, chroma)) := by
  funext plane
  cases plane <;>
    simp [Handle.buffer, Handle.chroma, Handle.make, single, toSizeT_toInt hsize, hfd1, hchroma]

theorem buffer_make_third (hsize : size < 2 ^ 31) (hfd1 : 0 ≤ fd1) (hfd2 : 0 ≤ fd2)
    (hchroma : chromaSize format w h stride vstride = chroma) :
    (Handle.make fd fd1 fd2 missing size usage w h format frameworkFormat stride
      vstride).buffer =
      Function.update (Function.update (single fd size) .second (some (fd1, chroma))) .third
        (some (fd2, if format = .exynosYCbCr420SpMPriv then privSize else chroma)) := by
  funext plane
  cases plane <;>
    simp [Handle.buffer, Handle.chroma, Handle.make, single, toSizeT_toInt hsize, hfd1, hfd2,
      hchroma]

end Make

section Alloc

variable {k : Kernel} {afbc : ℤ} {world : World} {owner : Place → Option (ℤ × ℕ)} {id w h : ℕ}
  {format : Format} {usage : Usage} {flags : List IonFlag}

/-- A new buffer comes into an empty plane. -/
theorem owned_acquired {w' : World} {fd : ℤ} {len : ℕ} {f : Plane → Option (ℤ × ℕ)}
    (plane : Plane) (ho : Owned world.fds (place owner id f)) (hempty : f plane = none)
    (hfree : world.fds fd = none) (hfds : w'.fds = Function.update world.fds fd (some len)) :
    Owned w'.fds (place owner id (Function.update f plane (some (fd, len)))) := by
  have h := ho.acquire (v := len) ((place_self plane).trans hempty) hfree
  rwa [update_place, ← hfds] at h

theorem allocated_rgb (hk : k.Sound) (hw : w ≤ maxDimension) (hh : h ≤ maxDimension) (afbc : ℤ)
    (format : Format) (usage : Usage) (flags : List IonFlag)
    (ho : Owned world.fds (place owner id fun _ => none)) :
    Allocated owner id format world.maps
      (gralloc_alloc_rgb k afbc world w h format usage flags) := by
  rw [gralloc_alloc_rgb]
  cases hl : rgbLayout (checkForCompression afbc w h format usage) w h format with
  | none => exact .failed (by decide) rfl ho
  | some l =>
    have hfits := fits_rgbLayout hw hh hl
    obtain ⟨fd, w', hr, -, hmaps, hfree, hfds⟩ | ⟨e, w', hr, he, hmaps, hfds⟩ :=
      ionAlloc_cases hk world l.size (selectHeap usage) (rgbFlags usage flags)
    · simp only [hr]
      refine .allocated hfits.new_make hmaps ?_
      rw [buffer_make_single hfits.size_lt]
      exact owned_acquired .first ho rfl hfree hfds
    · simp only [hr]
      exact .failed he hmaps (hfds ▸ ho)

theorem allocated_framework_yuv {frameworkFormat : Format} (hk : k.Sound)
    (hw : w ≤ maxDimension) (hh : h ≤ maxDimension)
    (ho : Owned world.fds (place owner id fun _ => none)) :
    Allocated owner id format world.maps
      (gralloc_alloc_framework_yuv k world w h format usage flags frameworkFormat) := by
  rw [gralloc_alloc_framework_yuv]
  cases hl : frameworkYuvLayout w h format with
  | none => exact .failed (by decide) rfl ho
  | some l =>
    have hsize := fits_frameworkYuvLayout hw hh hl
    obtain ⟨fd, w', hr, -, hmaps, hfree, hfds⟩ | ⟨e, w', hr, he, hmaps, hfds⟩ :=
      ionAlloc_cases hk world l.size (selectHeap usage) flags
    · simp only [hr]
      refine .allocated (new_make hsize ?_ fun _ hl' => ?_) hmaps ?_
      · cases format <;> simp [frameworkYuvLayout] at hl <;> simp [secondOffset]
      · rw [Option.some.inj (hl.symm.trans hl')]
      · rw [buffer_make_single hsize]
        exact owned_acquired .first ho rfl hfree hfds
    · simp only [hr]
      exact .failed he hmaps (hfds ▸ ho)

theorem allocLuma_cases (hk : k.Sound) (usage : Usage) (flags : List IonFlag) (len : ℕ) :
    (∃ fd w' flags', allocLuma k world usage flags len = ((.ok fd, w'), flags') ∧
      w'.maps = world.maps ∧ world.fds fd = none ∧
      w'.fds = Function.update world.fds fd (some len)) ∨
    ∃ e w' flags', allocLuma k world usage flags len = ((.error e, w'), flags') ∧ e ≠ 0 ∧
      w'.maps = world.maps ∧ w'.fds = world.fds := by
  obtain ⟨fd, w', hr, -, hmaps, hfree, hfds⟩ | ⟨e, w', hr, he, hmaps, hfds⟩ :=
    ionAlloc_cases hk world len (selectHeap usage) flags
  · exact .inl ⟨fd, w', flags, by simp only [allocLuma, hr], hmaps, hfree, hfds⟩
  · by_cases hdpb : usage.protectedDpb
    · -- the second attempt starts where the first one left off
      obtain ⟨fd, w₂, hr₂, -, hmaps₂, hfree₂, hfds₂⟩ | ⟨e₂, w₂, hr₂, he₂, hmaps₂, hfds₂⟩ :=
        ionAlloc_cases hk w' len (selectHeap usage)
          (flags.filter (· ≠ .videoExt2) ++ [.mfcOutput])
      · refine .inl ⟨fd, w₂, flags.filter (· ≠ .videoExt2) ++ [.mfcOutput], ?_,
          hmaps₂.trans hmaps, hfds ▸ hfree₂, by rw [hfds₂, hfds]⟩
        simp only [allocLuma, hr, if_pos hdpb, hr₂]
      · refine .inr ⟨e₂, w₂, flags.filter (· ≠ .videoExt2) ++ [.mfcOutput], ?_, he₂,
          hmaps₂.trans hmaps, hfds₂.trans hfds⟩
        simp only [allocLuma, hr, if_pos hdpb, hr₂]
    · exact .inr ⟨e, w', flags, by simp only [allocLuma, hr, if_neg hdpb], he, hmaps, hfds⟩

theorem allocThird_cases (hk : k.Sound) (w : World) (format : Format) (chroma : ℕ)
    (usage : Usage) (flags : List IonFlag) :
    (∃ fd w', (if format = .exynosYCbCr420SpMPriv then w.ionAlloc k privSize .system []
        else w.ionAlloc k chroma (selectHeap usage) flags) = (.ok fd, w') ∧ 0 ≤ fd ∧
      w'.maps = w.maps ∧ w.fds fd = none ∧ w'.fds = Function.update w.fds fd
        (some (if format = .exynosYCbCr420SpMPriv then privSize else chroma))) ∨
    ∃ e w', (if format = .exynosYCbCr420SpMPriv then w.ionAlloc k privSize .system []
        else w.ionAlloc k chroma (selectHeap usage) flags) = (.error e, w') ∧ e ≠ 0 ∧
      w'.maps = w.maps ∧ w'.fds = w.fds := by
  split
  · exact ionAlloc_cases hk w privSize .system []
  · exact ionAlloc_cases hk w chroma (selectHeap usage) flags

/-- The planes behind the first one: they come to it, or it is given back. -/
theorem allocated_planes {fd : ℤ} {l : Layout} (hk : k.Sound) (usage : Usage)
    (flags : List IonFlag) (frameworkFormat : Format)
    (hfits : l.Fits w h format) (ho : Owned world.fds (place owner id (single fd l.size))) :
    ∃ r, allocPlanes k world w h format usage flags fd l frameworkFormat = some r ∧
      Allocated owner id format world.maps r := by
  rw [allocPlanes]
  by_cases hone : l.planes = 1
  · rw [if_pos hone]
    refine ⟨_, rfl, .allocated hfits.new_make rfl ?_⟩
    rwa [buffer_make_single hfits.size_lt]
  have hchroma := hfits.chroma_eq hone
  have hnone : Function.update (single fd l.size) .first none = fun _ => none := by
    funext plane
    cases plane <;> simp [single]
  have hsecond : Function.update (single fd l.size) .second none = single fd l.size := by
    funext plane
    cases plane <;> simp [single]
  rw [if_neg hone]
  obtain ⟨fd1, w₁, hr₁, hfd1, hmaps₁, hfree₁, hfds₁⟩ | ⟨e, w₁, hr₁, he, hmaps₁, hfds₁⟩ :=
    ionAlloc_cases hk world l.chroma (selectHeap usage) flags
  · have ho₁ := owned_acquired .second ho rfl hfree₁ hfds₁
    by_cases hthree : l.planes = 3
    · simp only [hr₁, if_pos hthree]
      obtain ⟨fd2, w₂, hr₂, hfd2, hmaps₂, hfree₂, hfds₂⟩ | ⟨e, w₂, hr₂, he, hmaps₂, hfds₂⟩ :=
        allocThird_cases hk w₁ format l.chroma usage flags
      · have ho₂ := owned_acquired .third ho₁ rfl hfree₂ hfds₂
        simp only [hr₂]
        refine ⟨_, rfl, .allocated hfits.new_make
          (hmaps₂.trans hmaps₁) ?_⟩
        rwa [buffer_make_third hfits.size_lt hfd1 hfd2 hchroma]
      · rw [← hfds₂] at ho₁
        obtain ⟨w₃, hclose₁, hmaps₃, ho₃⟩ := close_of_held ho₁ (place_self .second)
        rw [update_place, Function.update_idem, hsecond] at ho₃
        obtain ⟨w₄, hclose, hmaps₄, ho₄⟩ := close_of_held ho₃ (place_self .first)
        rw [update_place, hnone] at ho₄
        simp only [hr₂, hclose₁, Option.bind_some, hclose, Option.map_some]
        exact ⟨_, rfl, .failed he
          (hmaps₄.trans (hmaps₃.trans (hmaps₂.trans hmaps₁))) ho₄⟩
    · simp only [hr₁, if_neg hthree]
      refine ⟨_, rfl, .allocated hfits.new_make hmaps₁ ?_⟩
      rwa [buffer_make_second hfits.size_lt hfd1 hchroma]
  · rw [← hfds₁] at ho
    obtain ⟨w₂, hclose, hmaps₂, ho₂⟩ := close_of_held ho (place_self .first)
    rw [update_place, hnone] at ho₂
    simp only [hr₁, hclose, Option.map_some]
    exact ⟨_, rfl, .failed he (hmaps₂.trans hmaps₁) ho₂⟩

theorem allocated_yuv (hk : k.Sound) (hw : w ≤ maxDimension) (hh : h ≤ maxDimension)
    (format : Format) (usage : Usage) (flags : List IonFlag)
    (ho : Owned world.fds (place owner id fun _ => none)) :
    ∃ r, gralloc_alloc_yuv k world w h format usage flags = some r ∧
      Allocated owner id (resolveFormat format usage) world.maps r := by
  simp only [gralloc_alloc_yuv]
  split
  · exact ⟨_, rfl, allocated_framework_yuv hk hw hh ho⟩
  · cases hl : yuvLayout w h (resolveFormat format usage) with
    | none => exact ⟨_, rfl, .failed (by decide) rfl ho⟩
    | some l =>
      obtain ⟨fd, w', flags', hr, hmaps, hfree, hfds⟩ | ⟨e, w', flags', hr, he, hmaps, hfds⟩ :=
        allocLuma_cases hk usage (yuvFlags usage flags) l.size
      · obtain ⟨r, hr', hall⟩ := allocated_planes hk usage flags' format
          (fits_yuvLayout hw hh hl) (owned_acquired .first ho rfl hfree hfds)
        simp only [hr, hr']
        exact ⟨_, rfl, hmaps ▸ hall⟩
      · simp only [hr]
        exact ⟨_, rfl, .failed he hmaps (hfds ▸ ho)⟩

theorem resolveFormat_ne_priv (h : format ≠ .exynosYCbCr420SpMPriv) :
    resolveFormat format usage ≠ .exynosYCbCr420SpMPriv := by
  cases format <;> simp only [resolveFormat] <;> repeat' split
  all_goals simp_all

/-- Every plane of the new handle has a buffer of its own, or nothing is left. -/
theorem allocated_gralloc_alloc {width height : ℤ} (hk : k.Sound) (hw : width ≤ maxDimension)
    (hh : height ≤ maxDimension) (ho : Owned world.fds owner)
    (hempty : ∀ plane, owner (id, plane) = none) :
    ∃ r f, gralloc_alloc k afbc world width height format usage = some r ∧
      (format ≠ .exynosYCbCr420SpMPriv → f ≠ .exynosYCbCr420SpMPriv) ∧
      Allocated owner id f world.maps r := by
  rw [← place_eq_self hempty] at ho
  have hw' : width.toNat ≤ maxDimension := by omega
  have hh' : height.toNat ≤ maxDimension := by omega
  rw [gralloc_alloc]
  split
  · exact ⟨_, format, rfl, fun h => h, .failed (by decide) rfl ho⟩
  have hrgb := allocated_rgb hk hw' hh' afbc format usage (cacheFlags usage) ho
  generalize gralloc_alloc_rgb k afbc world width.toNat height.toNat format usage
    (cacheFlags usage) = r at hrgb
  cases hrgb with
  | allocated hnew hmaps h =>
    exact ⟨_, format, rfl, fun h => h, .allocated hnew hmaps h⟩
  | failed he hmaps h =>
    obtain ⟨r, hr, hall⟩ := allocated_yuv hk hw' hh' format usage (cacheFlags usage) h
    simp only [ne_eq, he, not_false_eq_true, if_true, hr, Option.bind_some]
    rw [hmaps] at hall
    refine ⟨r, _, ?_, resolveFormat_ne_priv, hall⟩
    cases hall with
    | allocated hnew hmaps h => rfl
    | failed he hmaps h => simp [he]

end Alloc

end Pro5Android.Gralloc
