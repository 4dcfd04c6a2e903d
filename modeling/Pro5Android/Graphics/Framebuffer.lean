import Mathlib.Algebra.Order.Group.Nat
import Mathlib.Algebra.Ring.Int.Defs
import Mathlib.Logic.Function.Basic
import Pro5Android.Lib.Transducer

/-!
# The framebuffer fallback

Models `init_fb`, `fb_post` and `fb_device_open` of `graphics/gralloc/framebuffer.cpp`
(lines 62–260), for both ABIs that the module is built for: a `size_t` has 32 or 64
bits, everything else has the fixed width of the source. What the kernel and the other
functions answer is an argument of a call. A division by zero and what is divided,
stored and copied are reported as events. The resolution in dots per inch, the log and
the file descriptors are left out; the refresh rate is kept in thousandths, before it
becomes a `float`.

Results:
* `refreshRate_exact_iff`: when the stored refresh rate is the quotient.
* `initFb_safe_iff`: what one `init_fb` divides and stores.
* `fbPost_safe`: a copy stays in the source buffer and in the mapping, whatever the
  sizes.
* `framebuffer_safe_iff`: the same for every sequence of calls.
* `copies_within`: no sequence of calls copies out of bounds.
-/

namespace Pro5Android.Graphics

open Lib

/-- `LOCAL_MULTILIB := both`. -/
inductive Abi
  | arm | arm64
  deriving DecidableEq

namespace Abi

/-- The width of `size_t`. -/
def sizeBits : Abi → ℕ
  | .arm => 32
  | .arm64 => 64

/-- A result in `size_t`. -/
def sizeT (abi : Abi) (n : ℕ) : ℕ := n % 2 ^ abi.sizeBits

/-- `static_cast<size_t>` of an `int`: a negative one wraps around. -/
def sizeOfInt (abi : Abi) (n : Int32) : ℕ := (n.toInt % 2 ^ abi.sizeBits).toNat

/-- `roundUpToPageSize` (`gr.h`, lines 35–37): the mask clears the low twelve bits. -/
def roundUpToPageSize (abi : Abi) (x : ℕ) : ℕ := abi.sizeT (x + 4095) / 4096 * 4096

end Abi

def einval : Int32 := 22

/-! ## Data -/

/-- `fb_var_screeninfo`. -/
structure VarScreeninfo where
  xres : UInt32
  yres : UInt32
  yresVirtual : UInt32
  pixclock : UInt32
  leftMargin : UInt32
  rightMargin : UInt32
  upperMargin : UInt32
  lowerMargin : UInt32
  width : UInt32
  height : UInt32
  deriving DecidableEq, Inhabited

/-- `fb_fix_screeninfo`. -/
structure FixScreeninfo where
  lineLength : UInt32
  deriving DecidableEq, Inhabited

/-- `private_handle_t` (`gralloc_priv.h`, lines 92–225), as far as it is read here. -/
structure PrivateHandle where
  version : Int32
  numFds : Int32
  numInts : Int32
  magic : Int32
  size : Int32
  frameworkFormat : Int32
  base : UInt64
  deriving DecidableEq

namespace PrivateHandle

/-- `sizeof(native_handle)`. -/
def sizeofNativeHandle : Int32 := 12

/-- `sNumInts() + sNumFds`. -/
def sNumIntsAndFds : Int32 := 37

def sMagic : Int32 := 0x3141592

/-- The constructor of line 126: one descriptor, and the address not yet known. -/
def new (size : Int32) : PrivateHandle where
  version := sizeofNativeHandle
  numFds := 1
  numInts := 36
  magic := sMagic
  size := size
  frameworkFormat := 0
  base := 0

/-- `validate` (lines 188–199). -/
def validate : Option PrivateHandle → Int32
  | none => -einval
  | some h =>
    if h.version ≠ sizeofNativeHandle ∨ h.numInts + h.numFds ≠ sNumIntsAndFds ∨
        h.magic ≠ sMagic then
      -einval
    else 0

end PrivateHandle

/-- `private_module_t` (`gralloc_priv.h`, lines 69–90), with the refresh rate in
    thousandths for `fps`. -/
structure PrivateModule where
  framebuffer : Option PrivateHandle
  info : VarScreeninfo
  finfo : FixScreeninfo
  xres : Int32
  yres : Int32
  lineLength : Int32
  fps : Int32

/-- `HAL_MODULE_INFO_SYM` (`gralloc.cpp`, lines 108–136). -/
def PrivateModule.initial : PrivateModule := ⟨none, default, default, 0, 0, 0, 0⟩

/-- The module, and the length of the mapping that starts at an address, 0 if none does. -/
structure Process where
  module : PrivateModule
  mapped : UInt64 → ℕ

/-- What a call does that can go wrong. -/
inductive Event
  /-- The integer division of line 149. -/
  | divides (divisor : ℕ)
  /-- A division of lines 156 and 157. -/
  | dividesFloat (divisor : ℕ)
  /-- The refresh rate of line 174, with the quotient it comes from. -/
  | storesRate (quotient : ℕ) (refreshRate : Int32)
  /-- The `memcpy` of line 108: the length, the recorded size of the source buffer, and
      the length of the mapping at the destination. -/
  | copies (length : ℕ) (sourceSize : Int32) (room : ℕ)
  deriving DecidableEq

/-- The events of a call and how it ends: its status and the state it leaves, or nothing
    where the behaviour is undefined. -/
structure Effect where
  events : List Event
  result : Option (Int32 × Process)

/-- A call that only returns. -/
def Effect.return (status : Int32) (p : Process) : Effect := ⟨[], some (status, p)⟩

/-! ## `init_fb` -/

/-- What `open`, the two `ioctl` calls and `mmap` answer; an error is its `errno` when
    `init_fb` returns it. -/
structure FbAnswers where
  opened : Except Int32 Unit
  fscreeninfo : Except Int32 FixScreeninfo
  vscreeninfo : Except Int32 VarScreeninfo
  mmap : Except Int32 UInt64

/-- Lines 129–147. -/
def FbAnswers.screeninfo (a : FbAnswers) : Except Int32 (FixScreeninfo × VarScreeninfo) := do
  a.opened
  let finfo ← a.fscreeninfo
  let info ← a.vscreeninfo
  return (finfo, info)

/-- The divisor of lines 150–151. -/
def VarScreeninfo.divisor (info : VarScreeninfo) : UInt64 :=
  (info.upperMargin + info.lowerMargin + info.yres).toUInt64 *
    (info.leftMargin + info.rightMargin + info.xres).toUInt64 * info.pixclock.toUInt64

/-- Lines 149–154: the quotient as an `int`, or the default. -/
def refreshRateOf (quotient : ℕ) : Int32 :=
  let refreshRate := Int32.ofNat quotient
  if refreshRate = 0 then 60 * 1000 else refreshRate

/-- Lines 169–176. -/
def PrivateModule.store (m : PrivateModule) (finfo : FixScreeninfo) (info : VarScreeninfo)
    (refreshRate : Int32) : PrivateModule :=
  { m with
    xres := info.xres.toInt32
    yres := info.yres.toInt32
    lineLength := info.xres.toInt32
    fps := refreshRate
    info := info
    finfo := finfo }

/-- The length of the mapping (line 179); the product has 32 bits. -/
def fbSize (abi : Abi) (finfo : FixScreeninfo) (info : VarScreeninfo) : ℕ :=
  abi.roundUpToPageSize (finfo.lineLength * info.yresVirtual).toNat

/-- Lines 178–193. When the mapping fails, the new handle stays behind without an
    address. -/
def mapFramebuffer (abi : Abi) (mmap : Except Int32 UInt64) (p : Process) : Int32 × Process :=
  let size := fbSize abi p.module.finfo p.module.info
  let framebuffer := PrivateHandle.new (Int32.ofNat size)
  match mmap with
  | .error errno => (-errno, { p with module := { p.module with framebuffer := some framebuffer } })
  | .ok vaddr =>
    (0, {
      module := { p.module with framebuffer := some { framebuffer with base := vaddr } }
      mapped := Function.update p.mapped vaddr size })

/-- What `init_fb` divides and stores, in the order of the source. -/
def initEvents (info : VarScreeninfo) : List Event :=
  let quotient := 1000000000000000 / info.divisor.toNat
  [.divides info.divisor.toNat, .dividesFloat info.width.toNat, .dividesFloat info.height.toNat,
    .storesRate quotient (refreshRateOf quotient)]

/-- `init_fb` (lines 127–194). -/
def initFb (abi : Abi) (a : FbAnswers) (p : Process) : Effect :=
  match a.screeninfo with
  | .error errno => .return (-errno) p
  | .ok (finfo, info) =>
    if info.divisor = 0 then ⟨[.divides 0], none⟩
    else
      let refreshRate := refreshRateOf (1000000000000000 / info.divisor.toNat)
      let stored := { p with module := p.module.store finfo info refreshRate }
      ⟨initEvents info, some (mapFramebuffer abi a.mmap stored)⟩

/-! ## `fb_device_open` -/

/-- The answers of `gralloc_open` and `malloc` as well. -/
structure OpenAnswers extends FbAnswers where
  grallocOpen : Int32
  malloc : Bool

/-- `fb_device_open` (lines 196–260). -/
def fbDeviceOpen (abi : Abi) (a : OpenAnswers) (p : Process) : Effect :=
  if a.grallocOpen < 0 then .return a.grallocOpen p
  else if a.malloc = false then .return a.grallocOpen p
  else
    let e := initFb abi a.toFbAnswers p
    ⟨e.events, e.result.map fun r => (if r.1 < 0 then r.1 else 0, r.2)⟩

/-- The device of lines 247–257, as far as it shows the screen. -/
structure FramebufferDevice where
  width : UInt32
  height : UInt32
  stride : Int32
  fps : Int32

/-- The device for a module that `init_fb` has filled in (32 bits per pixel). -/
def FramebufferDevice.ofModule (m : PrivateModule) : FramebufferDevice where
  width := m.xres.toUInt32
  height := m.yres.toUInt32
  stride := m.lineLength / 4
  fps := m.fps

/-- The device shows the resolution that the driver reported. -/
theorem FramebufferDevice.ofModule_store (m : PrivateModule) (finfo : FixScreeninfo)
    (info : VarScreeninfo) (refreshRate : Int32) :
    ofModule (m.store finfo info refreshRate) =
      ⟨info.xres, info.yres, info.xres.toInt32 / 4, refreshRate⟩ := by
  simp [ofModule, PrivateModule.store]

/-! ## `fb_post` -/

/-- `HAL_PIXEL_FORMAT_YCbCr_420_888`. -/
def yCbCr420_888 : Int32 := 0x23

/-- The address that `gralloc_map` leaves in a handle without one, 0 if it leaves none,
    and the status of `unlock`. -/
structure PostAnswers where
  grallocMap : UInt64
  unlock : Int32

/-- `gralloc_lock` (`mapper.cpp`, lines 320–380): the status and the first address. -/
def grallocLock (abi : Abi) (hnd : PrivateHandle) (a : PostAnswers) : Int32 × ℕ :=
  if PrivateHandle.validate (some hnd) < 0 then (-einval, 0)
  else if hnd.frameworkFormat = yCbCr420_888 then (-einval, 0)
  else (0, abi.sizeT (if hnd.base = 0 then a.grallocMap else hnd.base).toNat)

/-- `copy_size` (line 84). -/
def PrivateModule.copySize (abi : Abi) (m : PrivateModule) : ℕ :=
  abi.sizeT (m.finfo.lineLength.toNat * m.info.yres.toNat)

/-- `fb_post` (lines 62–117). -/
def fbPost (abi : Abi) (buffer : Option PrivateHandle) (a : PostAnswers) (p : Process) : Effect :=
  if PrivateHandle.validate buffer < 0 then .return (-einval) p
  else
    match buffer, p.module.framebuffer with
    | some hnd, some framebuffer =>
      if framebuffer.base = 0 then .return (-einval) p
      else if hnd.size < 0 ∨ abi.sizeOfInt hnd.size < p.module.copySize abi ∨
          abi.sizeOfInt framebuffer.size < p.module.copySize abi then
        .return (-einval) p
      else
        let (err, vaddr) := grallocLock abi hnd a
        if err ≠ 0 then .return err p
        else if vaddr = 0 then .return (-einval) p
        else ⟨[.copies (p.module.copySize abi) hnd.size (p.mapped framebuffer.base)],
          some (a.unlock, p)⟩
    | _, _ => .return (-einval) p

/-! ## Safety of one call -/

/-- No division by zero, no refresh rate but the quotient or the default, and no copy out
    of bounds. A floating-point division by zero gives an infinity; `floats` says whether
    it counts. -/
def Event.Safe (floats : Bool) : Event → Prop
  | .divides divisor => divisor ≠ 0
  | .dividesFloat divisor => floats = true → divisor ≠ 0
  | .storesRate quotient refreshRate =>
    refreshRate.toInt = if quotient = 0 then 60000 else (quotient : ℤ)
  | .copies length sourceSize room => length ≤ sourceSize.toInt ∧ length ≤ room

instance (floats : Bool) (e : Event) : Decidable (e.Safe floats) :=
  match e with
  | .divides _ => inferInstanceAs (Decidable (_ ≠ _))
  | .dividesFloat _ => inferInstanceAs (Decidable (_ → _))
  | .storesRate _ _ => inferInstanceAs (Decidable (_ = _))
  | .copies _ _ _ => inferInstanceAs (Decidable (_ ∧ _))

theorem safe_nil {floats : Bool} : ∀ e ∈ ([] : List Event), e.Safe floats :=
  fun _ he => absurd he List.not_mem_nil

/-- The timings give a rate that an `int` can hold: the lines and the pixels, margins
    included and each counted in 32 bits, times the pixel clock, in 64 bits, exceed
    `10^15 / 2^31 = 465661`. -/
def VarScreeninfo.TimingsFit (info : VarScreeninfo) : Prop :=
  10 ^ 15 / 2 ^ 31 <
    (info.upperMargin.toNat + info.lowerMargin.toNat + info.yres.toNat) % 2 ^ 32 *
      ((info.leftMargin.toNat + info.rightMargin.toNat + info.xres.toNat) % 2 ^ 32) *
      info.pixclock.toNat % 2 ^ 64

/-- The screen has a size. -/
def VarScreeninfo.HasSize (info : VarScreeninfo) : Prop := info.width ≠ 0 ∧ info.height ≠ 0

theorem divisor_toNat (info : VarScreeninfo) :
    info.divisor.toNat =
      (info.upperMargin.toNat + info.lowerMargin.toNat + info.yres.toNat) % 2 ^ 32 *
        ((info.leftMargin.toNat + info.rightMargin.toNat + info.xres.toNat) % 2 ^ 32) *
        info.pixclock.toNat % 2 ^ 64 := by
  simp [VarScreeninfo.divisor, UInt64.toNat_mul]

/-- The stored refresh rate is the quotient, or the default, exactly if the quotient is
    an `int`. -/
theorem refreshRate_exact_iff {floats : Bool} {q : ℕ} :
    (Event.storesRate q (refreshRateOf q)).Safe floats ↔ q < 2 ^ 31 := by
  constructor
  · intro h
    by_contra hge
    have hlt := Int32.toInt_lt (refreshRateOf q)
    rw [show (refreshRateOf q).toInt = _ from h, if_neg (by omega)] at hlt
    omega
  · intro hlt
    have hofNat : (Int32.ofNat q).toInt = q := Int32.toInt_ofNat_of_lt hlt
    by_cases hq : q = 0
    · subst hq
      exact (by decide : (refreshRateOf 0).toInt = 60000)
    · have hne : Int32.ofNat q ≠ 0 := by
        intro h
        rw [h] at hofNat
        exact hq (Int.natCast_eq_zero.mp hofNat.symm)
      show (refreshRateOf q).toInt = _
      rw [refreshRateOf, if_neg hne, if_neg hq, hofNat]

theorem quotient_lt_iff {d : ℕ} (hd : d ≠ 0) : 10 ^ 15 / d < 2 ^ 31 ↔ 10 ^ 15 / 2 ^ 31 < d := by
  rw [Nat.div_lt_iff_lt_mul (Nat.pos_of_ne_zero hd), Nat.div_lt_iff_lt_mul (by decide),
    Nat.mul_comm]

theorem divisor_ne_zero {info : VarScreeninfo} (h : info.TimingsFit) : info.divisor ≠ 0 := by
  intro hzero
  rw [VarScreeninfo.TimingsFit, ← divisor_toNat, hzero] at h
  exact Nat.not_lt_zero _ h

/-- The events of an `init_fb` that divides by something. -/
theorem initEvents_safe_iff {info : VarScreeninfo} {floats : Bool} (hne : info.divisor ≠ 0) :
    (∀ e ∈ initEvents info, e.Safe floats) ↔ info.TimingsFit ∧ (floats = true → info.HasSize) := by
  have hnat : info.divisor.toNat ≠ 0 := fun h => hne (UInt64.toNat_inj.mp h)
  have hfit : info.TimingsFit ↔ 10 ^ 15 / info.divisor.toNat < 2 ^ 31 := by
    rw [quotient_lt_iff hnat, divisor_toNat, VarScreeninfo.TimingsFit]
  have hsize : info.HasSize ↔ info.width.toNat ≠ 0 ∧ info.height.toNat ≠ 0 :=
    and_congr (not_congr UInt32.toNat_inj.symm) (not_congr UInt32.toNat_inj.symm)
  simp only [initEvents, List.forall_mem_cons, refreshRate_exact_iff]
  rw [hfit, hsize]
  constructor
  · rintro ⟨-, hwidth, hheight, hrate, -⟩
    exact ⟨hrate, fun hf => ⟨hwidth hf, hheight hf⟩⟩
  · rintro ⟨hrate, hdim⟩
    exact ⟨hnat, fun hf => (hdim hf).1, fun hf => (hdim hf).2, hrate, safe_nil⟩

/-- What `init_fb` divides and stores, once the driver has answered. -/
theorem initFb_safe_iff {abi : Abi} {a : FbAnswers} {p : Process} {floats : Bool}
    {finfo : FixScreeninfo} {info : VarScreeninfo} (h : a.screeninfo = .ok (finfo, info)) :
    (∀ e ∈ (initFb abi a p).events, e.Safe floats) ↔
      info.TimingsFit ∧ (floats = true → info.HasSize) := by
  rw [initFb, h]
  by_cases hzero : info.divisor = 0
  · -- the division comes before the test of its result
    simp only [if_pos hzero]
    refine iff_of_false (fun hall => hall (.divides 0) (List.mem_singleton_self _) rfl) ?_
    exact fun hmeets => divisor_ne_zero hmeets.1 hzero
  · simp only [if_neg hzero]
    exact initEvents_safe_iff hzero

/-- Where the timings fit, `init_fb` returns. -/
theorem initFb_returns (abi : Abi) {a : FbAnswers} (p : Process)
    (h : ∀ r, a.screeninfo = .ok r → r.2.TimingsFit) : ∃ r, (initFb abi a p).result = some r := by
  unfold initFb
  cases hscreen : a.screeninfo with
  | error errno => exact ⟨_, rfl⟩
  | ok r =>
    simp only [if_neg (divisor_ne_zero (h r hscreen))]
    exact ⟨_, rfl⟩

/-! ## The mapping behind the module -/

/-- A framebuffer with an address has the size of the mapping there, as an `int`. -/
def Process.Coherent (p : Process) : Prop :=
  ∀ framebuffer, p.module.framebuffer = some framebuffer → framebuffer.base ≠ 0 →
    framebuffer.size = Int32.ofNat (p.mapped framebuffer.base)

/-- The module as it is loaded. -/
def Process.initial : Process := ⟨.initial, fun _ => 0⟩

theorem coherent_initial : Process.initial.Coherent := fun _ h => nomatch h

theorem mapFramebuffer_coherent (abi : Abi) (mmap : Except Int32 UInt64) (p : Process) :
    (mapFramebuffer abi mmap p).2.Coherent := by
  intro framebuffer hfb hbase
  cases mmap with
  | error errno =>
    -- the guard of `fb_post` sees the address 0
    obtain rfl := Option.some.inj hfb
    exact absurd rfl hbase
  | ok vaddr =>
    obtain rfl := Option.some.inj hfb
    show Int32.ofNat _ = Int32.ofNat (Function.update p.mapped vaddr _ vaddr)
    rw [Function.update_self]

theorem initFb_coherent {abi : Abi} {a : FbAnswers} {p p' : Process} {status : Int32}
    (hp : p.Coherent) (h : (initFb abi a p).result = some (status, p')) : p'.Coherent := by
  unfold initFb at h
  cases hscreen : a.screeninfo with
  | error errno =>
    rw [hscreen] at h
    obtain ⟨-, rfl⟩ := Prod.mk.inj (Option.some.inj h)
    exact hp
  | ok r =>
    rw [hscreen] at h
    simp only at h
    split_ifs at h
    have hp' : _ = p' := congrArg Prod.snd (Option.some.inj h)
    rw [← hp']
    exact mapFramebuffer_coherent abi a.mmap _

/-! ## Copies -/

theorem sizeOfInt_of_nonneg (abi : Abi) {n : Int32} (h : 0 ≤ n.toInt) :
    (abi.sizeOfInt n : ℤ) = n.toInt := by
  have hlt := Int32.toInt_lt n
  have hmod : n.toInt % 2 ^ abi.sizeBits = n.toInt := by
    cases abi <;> exact Int.emod_eq_of_lt h (by simp only [Abi.sizeBits]; omega)
  rw [Abi.sizeOfInt, hmod, Int.toNat_of_nonneg h]

/-- A length that fits an `int` and the `int` that keeps a size fits the size: a size of
    `2^31` bytes or more is negative, but then the first bound is the stricter one. -/
theorem le_of_le_sizeOfInt {abi : Abi} {length room : ℕ} {size : Int32}
    (hsize : (length : ℤ) ≤ size.toInt) (h : length ≤ abi.sizeOfInt (Int32.ofNat room)) :
    length ≤ room := by
  have hlt := Int32.toInt_lt size
  by_cases hroom : room < 2 ^ 31
  · have hofNat : (Int32.ofNat room).toInt = room := Int32.toInt_ofNat_of_lt hroom
    have hcast := sizeOfInt_of_nonneg abi (n := Int32.ofNat room) (by omega)
    omega
  · omega

/-- `fb_post` returns and changes nothing of the module. -/
theorem fbPost_returns (abi : Abi) (buffer : Option PrivateHandle) (a : PostAnswers) (p : Process) :
    ∃ status, (fbPost abi buffer a p).result = some (status, p) := by
  unfold fbPost
  split_ifs
  · exact ⟨_, rfl⟩
  cases buffer with
  | none => exact ⟨_, rfl⟩
  | some hnd =>
    cases p.module.framebuffer with
    | none => exact ⟨_, rfl⟩
    | some framebuffer =>
      dsimp only
      split_ifs <;> exact ⟨_, rfl⟩

/-- A copy stays in the source buffer and in the mapping. -/
theorem fbPost_safe {abi : Abi} {buffer : Option PrivateHandle} {a : PostAnswers} {p : Process}
    {floats : Bool} (hp : p.Coherent) : ∀ e ∈ (fbPost abi buffer a p).events, e.Safe floats := by
  have hnone : ∀ {status : Int32}, ∀ e ∈ (Effect.return status p).events, e.Safe floats :=
    safe_nil
  unfold fbPost
  split_ifs
  · exact hnone
  cases buffer with
  | none => exact hnone
  | some hnd =>
    cases hfb : p.module.framebuffer with
    | none => exact hnone
    | some framebuffer =>
      dsimp only
      split_ifs with hbase hguard herr hvaddr
      · exact hnone
      · exact hnone
      · exact hnone
      · exact hnone
      obtain ⟨hneg, hsource, hdest⟩ : ¬ hnd.size < 0 ∧ _ ∧ _ := by
        simpa only [not_or] using hguard
      intro e he
      obtain rfl := List.mem_singleton.mp he
      have hnonneg : 0 ≤ hnd.size.toInt := by
        rw [Int32.lt_iff_toInt_lt, Int32.toInt_zero] at hneg
        exact Int.not_lt.mp hneg
      have hcast := sizeOfInt_of_nonneg abi hnonneg
      rw [hp framebuffer hfb hbase] at hdest
      have hlength : (p.module.copySize abi : ℤ) ≤ hnd.size.toInt := by omega
      exact ⟨hlength, le_of_le_sizeOfInt hlength (not_lt.mp hdest)⟩

/-! ## Sequences of calls -/

/-- A call with what it will be answered. -/
inductive Call
  | fbDeviceOpen (a : OpenAnswers)
  | fbPost (buffer : Option PrivateHandle) (a : PostAnswers)

/-- The call. -/
def Call.perform (abi : Abi) (p : Process) : Call → Effect
  | .fbDeviceOpen a => Graphics.fbDeviceOpen abi a p
  | .fbPost buffer a => Graphics.fbPost abi buffer a p

/-- The screen that an opening makes `init_fb` compute with, if it gets that far. -/
def OpenAnswers.screen (a : OpenAnswers) : Option VarScreeninfo :=
  if a.grallocOpen < 0 ∨ a.malloc = false then none else a.screeninfo.toOption.map Prod.snd

/-- The timings fit, and the screen has a size if floating-point divisions count. -/
def Call.Fits (floats : Bool) : Call → Prop
  | .fbDeviceOpen a =>
    ∀ info, a.screen = some info → info.TimingsFit ∧ (floats = true → info.HasSize)
  | .fbPost _ _ => True

/-- The calls one after the other, up to one whose behaviour is undefined. -/
def calls (abi : Abi) : Transducer (Option Process) Call (List Event) where
  step
    | none, _ => ([], none)
    | some p, c => ((c.perform abi p).events, (c.perform abi p).result.map Prod.snd)

/-- What a sequence of calls does, from the loaded module on. -/
def eventsOf (abi : Abi) (cs : List Call) : List Event :=
  ((calls abi).trace (some .initial) cs).flatMap Prod.snd

section

variable {abi : Abi} {floats : Bool} {p : Process}

theorem screen_of_init {a : OpenAnswers} (h : ¬ (a.grallocOpen < 0 ∨ a.malloc = false)) :
    a.screen = a.screeninfo.toOption.map Prod.snd := if_neg h

theorem fbDeviceOpen_of_early {a : OpenAnswers} (h : a.grallocOpen < 0 ∨ a.malloc = false) :
    fbDeviceOpen abi a p = .return a.grallocOpen p := by
  unfold fbDeviceOpen
  split_ifs with hopen hmalloc
  · rfl
  · rfl
  · exact absurd h (not_or.mpr ⟨hopen, hmalloc⟩)

theorem fbDeviceOpen_of_init {a : OpenAnswers} (h : ¬ (a.grallocOpen < 0 ∨ a.malloc = false)) :
    fbDeviceOpen abi a p = ⟨(initFb abi a.toFbAnswers p).events,
      (initFb abi a.toFbAnswers p).result.map fun r => (if r.1 < 0 then r.1 else 0, r.2)⟩ := by
  obtain ⟨hopen, hmalloc⟩ := not_or.mp h
  rw [fbDeviceOpen, if_neg hopen, if_neg hmalloc]

theorem fbDeviceOpen_safe_iff {a : OpenAnswers} :
    (∀ e ∈ (fbDeviceOpen abi a p).events, e.Safe floats) ↔ (Call.fbDeviceOpen a).Fits floats := by
  by_cases h : a.grallocOpen < 0 ∨ a.malloc = false
  · rw [fbDeviceOpen_of_early h]
    refine iff_of_true safe_nil fun info hinfo => ?_
    rw [OpenAnswers.screen, if_pos h] at hinfo
    cases hinfo
  · rw [fbDeviceOpen_of_init h, Call.Fits, screen_of_init h]
    cases hscreen : a.screeninfo with
    | error errno =>
      rw [initFb, hscreen]
      exact iff_of_true safe_nil fun info hinfo => nomatch hinfo
    | ok r =>
      rw [initFb_safe_iff hscreen]
      exact ⟨fun hfit info hinfo => Option.some.inj hinfo ▸ hfit, fun hall => hall r.2 rfl⟩

/-- A call that fits returns. -/
theorem perform_returns (abi : Abi) (p : Process) {c : Call} (h : c.Fits floats) :
    ∃ r, (c.perform abi p).result = some r := by
  cases c with
  | fbDeviceOpen a =>
    by_cases hearly : a.grallocOpen < 0 ∨ a.malloc = false
    · rw [Call.perform, fbDeviceOpen_of_early hearly]
      exact ⟨_, rfl⟩
    · rw [Call.perform, fbDeviceOpen_of_init hearly]
      have hfit : ∀ r, a.screeninfo = .ok r → r.2.TimingsFit := by
        intro r hr
        refine (h r.2 ?_).1
        rw [screen_of_init hearly, hr]
        rfl
      obtain ⟨r, hr⟩ := initFb_returns abi p hfit
      exact ⟨_, Option.map_eq_some_iff.mpr ⟨r, hr, rfl⟩⟩
  | fbPost buffer a =>
    obtain ⟨status, hstatus⟩ := fbPost_returns abi buffer a p
    exact ⟨_, hstatus⟩

/-- Every call keeps the mapping behind the module. -/
theorem perform_coherent {c : Call} {r : Int32 × Process} (hp : p.Coherent)
    (h : (c.perform abi p).result = some r) : r.2.Coherent := by
  cases c with
  | fbDeviceOpen a =>
    by_cases hearly : a.grallocOpen < 0 ∨ a.malloc = false
    · rw [Call.perform, fbDeviceOpen_of_early hearly] at h
      obtain rfl := Option.some.inj h
      exact hp
    · rw [Call.perform, fbDeviceOpen_of_init hearly] at h
      obtain ⟨r', hr', rfl⟩ := Option.map_eq_some_iff.mp h
      exact initFb_coherent hp hr'
  | fbPost buffer a =>
    obtain ⟨status, hstatus⟩ := fbPost_returns abi buffer a p
    obtain rfl := Option.some.inj (hstatus.symm.trans h)
    exact hp

theorem perform_safe_iff (hp : p.Coherent) (c : Call) :
    (∀ e ∈ (c.perform abi p).events, e.Safe floats) ↔ c.Fits floats := by
  cases c with
  | fbDeviceOpen a => exact fbDeviceOpen_safe_iff
  | fbPost buffer a => exact iff_of_true (fbPost_safe hp) trivial

theorem trace_safe_iff (hp : p.Coherent) (cs : List Call) :
    (∀ e ∈ ((calls abi).trace (some p) cs).flatMap Prod.snd, e.Safe floats) ↔
      ∀ c ∈ cs, c.Fits floats := by
  induction cs generalizing p with
  | nil =>
    exact iff_of_true safe_nil fun c hc => absurd hc List.not_mem_nil
  | cons c cs ih =>
    rw [Transducer.trace, List.flatMap_cons, List.forall_mem_append, List.forall_mem_cons]
    by_cases hfit : c.Fits floats
    · obtain ⟨r, hr⟩ := perform_returns abi p hfit
      have hnext : ((calls abi).step (some p) c).2 = some r.2 := congrArg (Option.map Prod.snd) hr
      rw [hnext, ih (perform_coherent hp hr)]
      exact and_congr_left' (perform_safe_iff hp c)
    · exact iff_of_false (fun h => hfit ((perform_safe_iff hp c).mp h.1)) fun h => hfit h.1

/-- An opening copies nothing, and a post copies within bounds. -/
theorem perform_copies (hp : p.Coherent) {c : Call} {length room : ℕ} {sourceSize : Int32}
    (h : .copies length sourceSize room ∈ (c.perform abi p).events) :
    (length : ℤ) ≤ sourceSize.toInt ∧ length ≤ room := by
  cases c with
  | fbDeviceOpen a =>
    exfalso
    by_cases hearly : a.grallocOpen < 0 ∨ a.malloc = false
    · rw [Call.perform, fbDeviceOpen_of_early hearly] at h
      exact List.not_mem_nil h
    · rw [Call.perform, fbDeviceOpen_of_init hearly, initFb] at h
      cases hscreen : a.screeninfo with
      | error errno =>
        rw [hscreen] at h
        exact List.not_mem_nil h
      | ok r =>
        rw [hscreen] at h
        simp only at h
        split_ifs at h <;> simp [initEvents] at h
  | fbPost buffer a =>
    have hsafe : (Event.copies length sourceSize room).Safe false := fbPost_safe hp _ h
    exact hsafe

theorem trace_copies {s : Option Process} (hs : ∀ p ∈ s, p.Coherent) {cs : List Call}
    {length room : ℕ} {sourceSize : Int32}
    (h : .copies length sourceSize room ∈ ((calls abi).trace s cs).flatMap Prod.snd) :
    (length : ℤ) ≤ sourceSize.toInt ∧ length ≤ room := by
  induction cs generalizing s with
  | nil => exact absurd h List.not_mem_nil
  | cons c cs ih =>
    rw [Transducer.trace, List.flatMap_cons, List.mem_append] at h
    cases s with
    | none =>
      rcases h with h | h
      · exact absurd h List.not_mem_nil
      · exact ih (s := none) (fun _ hp => absurd hp (Option.not_mem_none _)) h
    | some p =>
      have hp := hs p rfl
      rcases h with h | h
      · exact perform_copies hp h
      · refine ih (fun p' hp' => ?_) h
        obtain ⟨r, hr, rfl⟩ := Option.map_eq_some_iff.mp hp'
        exact perform_coherent hp hr

end

/-- In every sequence of openings and posts, for both ABIs and every answer: there is no
    division by zero, every stored refresh rate is the quotient or the default, and
    every copy stays in the source buffer and in the mapping, exactly if the timings
    that `init_fb` is given fit each time (and the screen has a size, where a
    floating-point division by zero counts). -/
theorem framebuffer_safe_iff (abi : Abi) (floats : Bool) (cs : List Call) :
    (∀ e ∈ eventsOf abi cs, e.Safe floats) ↔ ∀ c ∈ cs, c.Fits floats :=
  trace_safe_iff coherent_initial cs

/-- A panel of 1080 by 1920 pixels whose driver reports no pixel clock, and one of 480 by
    800 pixels with a pixel clock of 1, for which the stored rate is negative. -/
theorem zero_and_tiny_timings :
    let answers (info : VarScreeninfo) : OpenAnswers :=
      { opened := .ok (), fscreeninfo := .ok ⟨4 * info.xres⟩, vscreeninfo := .ok info,
        mmap := .ok 0x10000000, grallocOpen := 0, malloc := true }
    ¬ (∀ e ∈ eventsOf .arm64
        [.fbDeviceOpen (answers ⟨1080, 1920, 3840, 0, 0, 0, 0, 0, 68, 121⟩)], e.Safe false) ∧
      ¬ ∀ e ∈ eventsOf .arm64
        [.fbDeviceOpen (answers ⟨480, 800, 1600, 1, 0, 0, 0, 0, 56, 93⟩)], e.Safe false := by
  decide +kernel

/-- No sequence of calls copies out of bounds, whatever the driver reports: a mapping that
    failed has no address, a length that wraps around is shorter, and a mapping too
    long for the `int` in its handle is longer than every source buffer. -/
theorem copies_within {abi : Abi} {cs : List Call} {length room : ℕ} {sourceSize : Int32}
    (h : .copies length sourceSize room ∈ eventsOf abi cs) :
    (length : ℤ) ≤ sourceSize.toInt ∧ length ≤ room :=
  trace_copies (fun _ hp => Option.some.inj hp ▸ coherent_initial) h

end Pro5Android.Graphics
