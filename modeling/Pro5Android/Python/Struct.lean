import Pro5Android.Python.Bytes

/-!
# Fixed-width fields

The parts of `struct` that the boot-image tools use: little-endian unsigned
32-bit words (`<I`), byte fields of a fixed width (`16s`), and the padding of
`bytes.ljust`.

Results:
* `readU32_le32`, `le32_readU32`: a word and its four bytes determine each other.
* `length_fixed`, `fixed_eq_self`: a byte field that has its width is kept.
-/

namespace Pro5Android.Python

/-- The four bytes of `struct.pack("<I", n)`. -/
def le32 (n : ℕ) : Bytes :=
  [n.toUInt8, (n / 2 ^ 8).toUInt8, (n / 2 ^ 16).toUInt8, (n / 2 ^ 24).toUInt8]

/-- `struct.pack("<I", n)`; `none` is `struct.error`. -/
def packU32 (n : ℕ) : Option Bytes := if n < 2 ^ 32 then some (le32 n) else none

/-- `struct.unpack("<I", word)` of the first four bytes of `word`. -/
def readU32 : Bytes → ℕ
  | b0 :: b1 :: b2 :: b3 :: _ => b0.toNat + 2 ^ 8 * b1.toNat + 2 ^ 16 * b2.toNat + 2 ^ 24 * b3.toNat
  | _ => 0

/-- `b"\0" * n`. -/
def zeros (n : ℕ) : Bytes := List.replicate n 0

/-- `value.ljust(n, b"\0")`. -/
def ljust (value : Bytes) (n : ℕ) : Bytes := value ++ zeros (n - value.length)

/-- A `{n}s` field of `struct.pack`: cut or filled up with zeros. -/
def fixed (n : ℕ) (value : Bytes) : Bytes := (ljust value n).take n

@[simp] theorem length_le32 (n : ℕ) : (le32 n).length = 4 := rfl

@[simp] theorem length_zeros (n : ℕ) : (zeros n).length = n := List.length_replicate

theorem readU32_le32 {n : ℕ} (h : n < 2 ^ 32) (rest : Bytes) : readU32 (le32 n ++ rest) = n := by
  show n.toUInt8.toNat + 2 ^ 8 * (n / 2 ^ 8).toUInt8.toNat +
    2 ^ 16 * (n / 2 ^ 16).toUInt8.toNat + 2 ^ 24 * (n / 2 ^ 24).toUInt8.toNat = n
  simp only [Nat.toUInt8, UInt8.toNat_ofNat']
  omega

theorem readU32_lt (word : Bytes) : readU32 word < 2 ^ 32 := by
  unfold readU32
  split
  · rename_i b0 b1 b2 b3 _
    have h0 := b0.toNat_lt
    have h1 := b1.toNat_lt
    have h2 := b2.toNat_lt
    have h3 := b3.toNat_lt
    omega
  · norm_num

theorem toUInt8_eq {n : ℕ} {b : UInt8} (h : n % 2 ^ 8 = b.toNat) : n.toUInt8 = b := by
  apply UInt8.toNat_inj.mp
  rw [Nat.toUInt8, UInt8.toNat_ofNat', h]

theorem le32_readU32 {word : Bytes} (h : word.length = 4) : le32 (readU32 word) = word := by
  obtain ⟨b0, b1, b2, b3, rfl⟩ : ∃ b0 b1 b2 b3, word = [b0, b1, b2, b3] := by
    match word, h with
    | [b0, b1, b2, b3], _ => exact ⟨b0, b1, b2, b3, rfl⟩
  have h0 := b0.toNat_lt
  have h1 := b1.toNat_lt
  have h2 := b2.toNat_lt
  have h3 := b3.toNat_lt
  rw [le32, readU32, toUInt8_eq (b := b0) (by omega), toUInt8_eq (b := b1) (by omega),
    toUInt8_eq (b := b2) (by omega), toUInt8_eq (b := b3) (by omega)]

theorem packU32_eq_some {n : ℕ} (h : n < 2 ^ 32) : packU32 n = some (le32 n) := if_pos h

theorem mapM_packU32 {l : List ℕ} (h : ∀ n ∈ l, n < 2 ^ 32) :
    l.mapM packU32 = some (l.map le32) := by
  induction l with
  | nil => rfl
  | cons n l ih =>
    rw [List.mapM_cons, packU32_eq_some (h n (by simp)), ih fun m hm => h m (by simp [hm])]
    rfl

theorem length_ljust {value : Bytes} {n : ℕ} (h : value.length ≤ n) : (ljust value n).length = n := by
  rw [ljust, List.length_append, length_zeros]
  omega

@[simp] theorem length_fixed (n : ℕ) (value : Bytes) : (fixed n value).length = n := by
  rw [fixed, ljust, List.length_take, List.length_append, length_zeros]
  omega

theorem fixed_eq_self {n : ℕ} {value : Bytes} (h : value.length = n) : fixed n value = value := by
  rw [fixed, ljust, h, Nat.sub_self, zeros, List.replicate_zero, List.append_nil, ← h,
    List.take_length]

example : le32 0x12345678 = [0x78, 0x56, 0x34, 0x12] := by decide

end Pro5Android.Python
