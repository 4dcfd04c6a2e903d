import Pro5Android.Lib.Runs
import Pro5Android.Lib.Signed
import Mathlib.Logic.Function.Basic

/-!
# The JPEG encoders

`ExynosJpegEncoder` has two implementations with one header: `ExynosJpegEncoderM86.cpp`
compresses with libjpeg, `ExynosJpegEncoderM2M.cpp` with the Exynos block. This is the state
that they share and the setters of the first (lines 168–300); the setters of the second have
the same checks on sizes and crops. File descriptors and pointers are left out: whether the
buffers can be mapped is a parameter of `encode`.

Results:
* `wellFormed_set`, `wellFormed_of_reach`: what the setters keep of sizes, crop and output.
-/

namespace Pro5Android.Jpeg

open Lib

/-! ## Formats -/

/-- `fourcc` (lines 20–23). -/
def fourcc (a b c d : Char) : BitVec 32 :=
  BitVec.ofNat 32 a.toNat ||| BitVec.ofNat 32 b.toNat <<< 8 ||| BitVec.ofNat 32 c.toNat <<< 16 |||
    BitVec.ofNat 32 d.toNat <<< 24

def kYuyv : BitVec 32 := fourcc 'Y' 'U' 'Y' 'V'

def kYuy2 : BitVec 32 := fourcc 'Y' 'U' 'Y' '2'

def kNv12 : BitVec 32 := fourcc 'N' 'V' '1' '2'

def kNv21 : BitVec 32 := fourcc 'N' 'V' '2' '1'

def kNv12m : BitVec 32 := fourcc 'N' 'M' '1' '2'

def kNv21m : BitVec 32 := fourcc 'N' 'M' '2' '1'

/-! ## State -/

/-- `kMaxPlanes`. -/
def kMaxPlanes : ℕ := 3

/-- `ExynosJpegEncoder`; `m_color_format` is read as an unsigned number. -/
structure Encoder where
  created : Bool
  width : Int32
  height : Int32
  cropX : Int32
  cropY : Int32
  cropWidth : Int32
  cropHeight : Int32
  colorFormat : BitVec 32
  quality : Int32
  inputSizes : ℕ → Int32
  outputSize : Int32
  outputOffset : Int32
  jpegSize : Int32

/-- The constructor (lines 81–103). -/
def newEncoder : Encoder where
  created := false
  width := 0
  height := 0
  cropX := 0
  cropY := 0
  cropWidth := 0
  cropHeight := 0
  colorFormat := 0
  quality := 90
  inputSizes := fun _ => 0
  outputSize := 0
  outputOffset := 0
  jpegSize := 0

namespace Encoder

variable (e : Encoder)

/-! ## Setters -/

/-- `setSize` (lines 225–236). -/
def setSize (width height : Int32) : ℤ × Encoder :=
  if width.toInt ≤ 0 ∨ height.toInt ≤ 0 then (-1, e)
  else
    (0, { e with
      width := width, height := height
      cropX := 0, cropY := 0, cropWidth := 0, cropHeight := 0 })

/-- `setInputCrop` (lines 238–252). -/
def setInputCrop (x y width height : Int32) : ℤ × Encoder :=
  if x.toInt < 0 ∨ y.toInt < 0 ∨ width.toInt ≤ 0 ∨ height.toInt ≤ 0 then (-1, e)
  else (0, { e with cropX := x, cropY := y, cropWidth := width, cropHeight := height })

/-- `setColorFormat` (line 265). -/
def setColorFormat (format : BitVec 32) : ℤ × Encoder := (0, { e with colorFormat := format })

/-- `setQuality` (lines 284–287). -/
def setQuality (quality : Int32) : ℤ × Encoder :=
  (0, { e with quality := max 1 (min quality 100) })

/-- `setInBuf` (lines 168–178, 189–199): the sizes of the planes; `none` is a null pointer. -/
def setInBuf (sizes : Option (ℕ → Int32)) : ℤ × Encoder :=
  match sizes with
  | none => (-1, e)
  | some sizes => (0, { e with inputSizes := sizes })

/-- `setOutBuf` for a descriptor (lines 180–187), and for a pointer (lines 201–210), which has
    the offset 0. -/
def setOutBuf (buffer : Bool) (size offset : Int32) : ℤ × Encoder :=
  if buffer = false ∨ size.toInt ≤ 0 ∨ offset.toInt < 0 ∨ size.toInt ≤ offset.toInt then (-1, e)
  else (0, { e with outputSize := size, outputOffset := offset })

/-- `create` and `destroy` (lines 110–111). -/
def setCreated (created : Bool) : ℤ × Encoder := (0, { e with created := created })

/-- The calls between two encodings. -/
inductive Setter
  | create
  | destroy
  | setSize (width height : Int32)
  | setInputCrop (x y width height : Int32)
  | setColorFormat (format : BitVec 32)
  | setQuality (quality : Int32)
  | setInBuf (sizes : Option (ℕ → Int32))
  | setOutBuf (buffer : Bool) (size offset : Int32)

/-- A call. -/
def set : Setter → ℤ × Encoder
  | .create => e.setCreated true
  | .destroy => e.setCreated false
  | .setSize width height => e.setSize width height
  | .setInputCrop x y width height => e.setInputCrop x y width height
  | .setColorFormat format => e.setColorFormat format
  | .setQuality quality => e.setQuality quality
  | .setInBuf sizes => e.setInBuf sizes
  | .setOutBuf buffer size offset => e.setOutBuf buffer size offset

/-! ## What the setters keep -/

/-- What the setters have checked: there is no size or a positive one, no crop or one that is
    not empty, and no output or one with room. -/
structure WellFormed : Prop where
  size : (e.width = 0 ∧ e.height = 0) ∨ (0 < e.width.toInt ∧ 0 < e.height.toInt)
  crop : (e.cropX = 0 ∧ e.cropY = 0 ∧ e.cropWidth = 0 ∧ e.cropHeight = 0) ∨
    (0 ≤ e.cropX.toInt ∧ 0 ≤ e.cropY.toInt ∧ 0 < e.cropWidth.toInt ∧ 0 < e.cropHeight.toInt)
  output : 0 ≤ e.outputOffset.toInt

theorem wellFormed_new : newEncoder.WellFormed :=
  ⟨.inl ⟨rfl, rfl⟩, .inl ⟨rfl, rfl, rfl, rfl⟩, by decide⟩

variable {e}

/-- **Every setter** keeps what was checked. -/
theorem wellFormed_set (h : e.WellFormed) (setter : Setter) : (e.set setter).2.WellFormed := by
  cases setter with
  | setSize width height =>
    show (e.setSize width height).2.WellFormed
    unfold setSize
    split_ifs with hsize
    · exact h
    · have hpos : 0 < width.toInt ∧ 0 < height.toInt := by omega
      exact ⟨.inr hpos, .inl ⟨rfl, rfl, rfl, rfl⟩, h.output⟩
  | setInputCrop x y width height =>
    show (e.setInputCrop x y width height).2.WellFormed
    unfold setInputCrop
    split_ifs with hcrop
    · exact h
    · have hmem : 0 ≤ x.toInt ∧ 0 ≤ y.toInt ∧ 0 < width.toInt ∧ 0 < height.toInt := by omega
      exact ⟨h.size, .inr hmem, h.output⟩
  | setOutBuf buffer size offset =>
    show (e.setOutBuf buffer size offset).2.WellFormed
    unfold setOutBuf
    split_ifs with houtput
    · exact h
    · have hoffset : 0 ≤ offset.toInt := by omega
      exact ⟨h.size, h.crop, hoffset⟩
  | setInBuf sizes => cases sizes <;> exact ⟨h.size, h.crop, h.output⟩
  | create | destroy | setColorFormat | setQuality => exact ⟨h.size, h.crop, h.output⟩

/-- The setters as a system. -/
def setters : System Encoder Setter := ⟨fun _ _ => True, fun e setter => (e.set setter).2⟩

/-- **After any setters** the encoder is well formed. -/
theorem wellFormed_of_reach (h : setters.Reach System.AnyInput newEncoder e) : e.WellFormed :=
  h.invariant WellFormed wellFormed_new fun _ _ hi => wellFormed_set hi _

end Encoder

end Pro5Android.Jpeg
