import Mathlib

/-!
# Python byte strings

`bytes` objects as lists of `UInt8`, with the indexing rules of Python: a
slice bound may be negative (it then counts from the end) or too large (it is
clamped), while a single index out of range raises `IndexError`.

Results:
* `slice_append`, `sliceFrom_append`: a slice whose bounds are the lengths of
  the parts before it selects exactly the part in between.
* `length_slice_le`: `p[i:j]` has at most `j - i` bytes when `i ≤ j`, also
  when a bound wraps around.
* `slice_mem_slices`: only finitely many byte strings are slices of `p`.
-/

namespace Pro5Android.Python

/-- One byte. -/
abbrev Byte := UInt8

/-- A Python `bytes` object. -/
abbrev Bytes := List UInt8

instance : LawfulBEq Bytes := inferInstance

/-- The byte literal `b"…"` of an ASCII text. -/
def ascii (s : String) : Bytes := s.toList.map fun c => c.toNat.toUInt8

/-- The position a slice bound `i` denotes in a byte string of length `len`. -/
def sliceIndex (len : ℕ) (i : ℤ) : ℕ := if i < 0 then (i + len).toNat else min i.toNat len

/-- `p[i:j]`. -/
def slice (p : Bytes) (i j : ℤ) : Bytes :=
  (p.take (sliceIndex p.length j)).drop (sliceIndex p.length i)

/-- `p[i:]`. -/
def sliceFrom (p : Bytes) (i : ℤ) : Bytes := p.drop (sliceIndex p.length i)

/-- `p[i]`; `none` is `IndexError`. -/
def index? (p : Bytes) (i : ℤ) : Option Byte :=
  if i < 0 then if i + p.length < 0 then none else p[(i + p.length).toNat]?
  else p[i.toNat]?

/-! ## Non-negative bounds -/

theorem sliceIndex_natCast (len i : ℕ) : sliceIndex len i = min i len := by
  simp [sliceIndex]

theorem take_min (p : Bytes) (j : ℕ) : p.take (min j p.length) = p.take j := by
  rcases le_total j p.length with h | h
  · rw [Nat.min_eq_left h]
  · rw [Nat.min_eq_right h, List.take_length, List.take_of_length_le h]

theorem drop_take_min (p : Bytes) (i j : ℕ) :
    (p.take j).drop (min i p.length) = (p.take j).drop i := by
  rcases le_total i p.length with h | h
  · rw [Nat.min_eq_left h]
  · rw [Nat.min_eq_right h, List.drop_eq_nil_of_le (by simp),
      List.drop_eq_nil_of_le (by simp; omega)]

theorem slice_natCast (p : Bytes) (i j : ℕ) : slice p i j = (p.take j).drop i := by
  rw [slice, sliceIndex_natCast, sliceIndex_natCast, take_min, drop_take_min]

/-- The part `y` of `x ++ y ++ z`, selected by its position. -/
theorem slice_append (x y z : Bytes) {i j : ℤ} (hi : i = x.length)
    (hj : j = x.length + y.length) : slice (x ++ y ++ z) i j = y := by
  subst hi hj
  rw [← Nat.cast_add, slice_natCast, ← List.length_append, List.take_left, List.drop_left]

theorem sliceFrom_append (x y : Bytes) {i : ℤ} (hi : i = x.length) :
    sliceFrom (x ++ y) i = y := by
  subst hi
  rw [sliceFrom, sliceIndex_natCast, Nat.min_eq_left (by simp), List.drop_left]

/-- The byte `b` of `x ++ b :: z`, selected by its position. -/
theorem index?_append (x : Bytes) (b : Byte) (z : Bytes) {i : ℤ} (hi : i = x.length) :
    index? (x ++ b :: z) i = some b := by
  subst hi
  simp [index?]

/-! ## Arbitrary bounds -/

theorem length_slice (p : Bytes) (i j : ℤ) :
    (slice p i j).length =
      min (sliceIndex p.length j) p.length - sliceIndex p.length i := by
  simp [slice]

/-- A slice has no more bytes than its bounds are apart. -/
theorem length_slice_le (p : Bytes) {i j : ℤ} (h : i ≤ j) :
    ((slice p i j).length : ℤ) ≤ j - i := by
  rw [length_slice]
  unfold sliceIndex
  split_ifs <;> omega

/-- Every byte string that is a slice of `p`. -/
def slices (p : Bytes) : Finset Bytes :=
  (Finset.range (p.length + 1) ×ˢ Finset.range (p.length + 1)).image
    fun ij => (p.take ij.2).drop ij.1

theorem slice_mem_slices (p : Bytes) (i j : ℤ) : slice p i j ∈ slices p := by
  rw [slices, Finset.mem_image]
  refine ⟨(min (sliceIndex p.length i) p.length, min (sliceIndex p.length j) p.length), ?_, ?_⟩
  · simp
  · rw [drop_take_min, take_min]
    rfl

theorem card_slices_le (p : Bytes) : (slices p).card ≤ (p.length + 1) * (p.length + 1) :=
  Finset.card_image_le.trans (by simp)

end Pro5Android.Python
