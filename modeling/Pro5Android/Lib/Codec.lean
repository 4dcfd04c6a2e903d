import Mathlib.Data.Nat.Digits.Defs
import Mathlib.Data.Nat.Digits.Lemmas
import Mathlib.Algebra.Order.Group.Nat
import Mathlib.Algebra.Ring.Int.Defs

/-!
# Binary formats

A format of `α` writes every value as bytes and reads it back from the front of
a byte string. The two laws are part of the structure: what was written is read
back whatever follows it, and what is read is exactly what would be written.

Results:
* `leValue_leBytes`, `leBytes_leValue`: little-endian words of any width.
* `Codec.word`, `Codec.blob`, `Codec.prod`: words, byte strings behind their
  length, and one format after the other.
-/

namespace Pro5Android.Lib

/-! ## Little-endian words -/

/-- The lowest `w` bytes of `n`, the least significant one first. -/
def leBytes : ℕ → ℕ → List UInt8
  | 0, _ => []
  | w + 1, n => n.toUInt8 :: leBytes w (n / 256)

/-- The number whose bytes are `bs`, the least significant one first. -/
def leValue (bs : List UInt8) : ℕ := Nat.ofDigits 256 (bs.map UInt8.toNat)

@[simp] theorem leValue_nil : leValue [] = 0 := rfl

@[simp] theorem leValue_cons (b : UInt8) (bs : List UInt8) :
    leValue (b :: bs) = b.toNat + 256 * leValue bs := by
  simp [leValue, Nat.ofDigits_cons]

@[simp] theorem length_leBytes (w n : ℕ) : (leBytes w n).length = w := by
  induction w generalizing n with
  | zero => rfl
  | succ w ih => simp [leBytes, ih]

theorem leValue_leBytes {w n : ℕ} (h : n < 256 ^ w) : leValue (leBytes w n) = n := by
  induction w generalizing n with
  | zero =>
    rw [pow_zero] at h
    simp only [leBytes, leValue_nil]
    omega
  | succ w ih =>
    have hrest : n / 256 < 256 ^ w := by
      rw [pow_succ] at h
      omega
    rw [leBytes, leValue_cons, ih hrest, Nat.toUInt8, UInt8.toNat_ofNat']
    omega

theorem leBytes_leValue {w : ℕ} {bs : List UInt8} (h : bs.length = w) :
    leBytes w (leValue bs) = bs := by
  subst h
  induction bs with
  | nil => rfl
  | cons b bs ih =>
    have hb := b.toNat_lt
    have hhead : (leValue (b :: bs)).toUInt8 = b := by
      apply UInt8.toNat_inj.mp
      rw [Nat.toUInt8, UInt8.toNat_ofNat', leValue_cons]
      omega
    have htail : leValue (b :: bs) / 256 = leValue bs := by
      rw [leValue_cons]
      omega
    rw [List.length_cons, leBytes, hhead, htail, ih]

theorem leValue_lt (bs : List UInt8) : leValue bs < 256 ^ bs.length := by
  induction bs with
  | nil => simp
  | cons b bs ih =>
    have hb := b.toNat_lt
    rw [leValue_cons, List.length_cons, pow_succ]
    omega

theorem toNat_toUInt32 {n : ℕ} (h : n < 256 ^ 4) : n.toUInt32.toNat = n := by
  rw [Nat.toUInt32, UInt32.toNat_ofNat']
  omega

theorem leValue_take_lt {w : ℕ} {bs : List UInt8} (h : w ≤ bs.length) :
    leValue (bs.take w) < 256 ^ w := by
  have := leValue_lt (bs.take w)
  rwa [List.length_take, Nat.min_eq_left h] at this

/-! ## Formats -/

/-- A binary format of `α`. -/
structure Codec (α : Type*) where
  put : α → List UInt8
  get : List UInt8 → Option (α × List UInt8)
  get_put : ∀ a rest, get (put a ++ rest) = some (a, rest)
  put_of_get : ∀ {bs a rest}, get bs = some (a, rest) → bs = put a ++ rest

namespace Codec

variable {α β : Type*}

/-- A word of `w` bytes; `toNat` and `ofNat` say which numbers its values are. -/
def word (w : ℕ) (toNat : α → ℕ) (ofNat : ℕ → α) (hlt : ∀ a, toNat a < 256 ^ w)
    (hof : ∀ a, ofNat (toNat a) = a) (hto : ∀ n < 256 ^ w, toNat (ofNat n) = n) : Codec α where
  put a := leBytes w (toNat a)
  get bs := if bs.length < w then none else some (ofNat (leValue (bs.take w)), bs.drop w)
  get_put a rest := by
    have hlen := length_leBytes w (toNat a)
    rw [if_neg (by rw [List.length_append, hlen]; omega), List.take_left' hlen,
      List.drop_left' hlen, leValue_leBytes (hlt a), hof]
  put_of_get {bs a rest} h := by
    split_ifs at h with hshort
    obtain ⟨rfl, rfl⟩ := Prod.mk.inj (Option.some.inj h)
    have hlen : (bs.take w).length = w := by
      rw [List.length_take]
      omega
    rw [hto _ (leValue_take_lt (not_lt.mp hshort)), leBytes_leValue hlen, List.take_append_drop]

/-- Bytes. -/
def u8 : Codec UInt8 :=
  word 1 UInt8.toNat Nat.toUInt8 (fun b => b.toNat_lt) (fun _ => UInt8.ofNat_toNat)
    fun n h => by
      rw [Nat.toUInt8, UInt8.toNat_ofNat']
      omega

/-- Words of 64 bits. -/
def u64 : Codec UInt64 :=
  word 8 UInt64.toNat Nat.toUInt64 (fun n => n.toNat_lt) (fun _ => UInt64.ofNat_toNat)
    fun n h => by
      rw [Nat.toUInt64, UInt64.toNat_ofNat']
      omega

/-- Byte strings whose length fits in `w` bytes. -/
abbrev Blob (w : ℕ) := { bs : List UInt8 // bs.length < 256 ^ w }

/-- What a length of `w` bytes and the bytes behind it are read as. -/
def getBlob (w : ℕ) (bs : List UInt8) : Option (Blob w × List UInt8) :=
  let n := leValue (bs.take w)
  if h : bs.length < w ∨ (bs.drop w).length < n then none
  else
    some (⟨(bs.drop w).take n, by
      have hlt := leValue_take_lt (show w ≤ bs.length by omega)
      rw [List.length_take]
      omega⟩, (bs.drop w).drop n)

/-- The length, and then the bytes. -/
def blob (w : ℕ) : Codec (Blob w) where
  put b := leBytes w b.1.length ++ b.1
  get := getBlob w
  get_put b rest := by
    have hlen := length_leBytes w b.1.length
    have htake : (leBytes w b.1.length ++ b.1 ++ rest).take w = leBytes w b.1.length := by
      rw [List.append_assoc, List.take_left' hlen]
    have hdrop : (leBytes w b.1.length ++ b.1 ++ rest).drop w = b.1 ++ rest := by
      rw [List.append_assoc, List.drop_left' hlen]
    have hn : leValue ((leBytes w b.1.length ++ b.1 ++ rest).take w) = b.1.length := by
      rw [htake, leValue_leBytes b.2]
    simp only [getBlob, hdrop, hn]
    rw [dif_neg (by simp only [List.length_append, hlen]; omega)]
    simp only [List.take_left, List.drop_left]
  put_of_get {bs b rest} h := by
    simp only [getBlob] at h
    split_ifs at h with hshort
    obtain ⟨hb, hrest⟩ := Prod.mk.inj (Option.some.inj h)
    rw [not_or, not_lt, not_lt] at hshort
    have hlen : (bs.take w).length = w := by
      rw [List.length_take]
      omega
    have hblen : b.1.length = leValue (bs.take w) := by
      rw [← hb, List.length_take]
      omega
    rw [hblen, leBytes_leValue hlen, ← hb, ← hrest, List.append_assoc, List.take_append_drop,
      List.take_append_drop]

/-- The first format and then the second. -/
def prod (c : Codec α) (d : Codec β) : Codec (α × β) where
  put p := c.put p.1 ++ d.put p.2
  get bs := (c.get bs).bind fun p => (d.get p.2).map fun q => ((p.1, q.1), q.2)
  get_put p rest := by
    rw [List.append_assoc, c.get_put, Option.bind_some, d.get_put, Option.map_some]
  put_of_get {bs p rest} h := by
    obtain ⟨q, hq, hmap⟩ := Option.bind_eq_some_iff.mp h
    obtain ⟨r, hr, hp⟩ := Option.map_eq_some_iff.mp hmap
    obtain ⟨rfl, rfl⟩ := Prod.mk.inj hp
    rw [c.put_of_get hq, d.put_of_get hr, List.append_assoc]

/-! ## Fixed widths -/

/-- Every `n` bytes are read as some value. -/
def Width (c : Codec α) (n : ℕ) : Prop :=
  ∀ bs : List UInt8, n ≤ bs.length → ∃ a, c.get bs = some (a, bs.drop n)

theorem width_u8 : u8.Width 1 := fun _ h => ⟨_, if_neg (not_lt.mpr h)⟩

theorem width_u64 : u64.Width 8 := fun _ h => ⟨_, if_neg (not_lt.mpr h)⟩

theorem Width.prod {c : Codec α} {d : Codec β} {m n : ℕ} (hc : c.Width m) (hd : d.Width n) :
    (c.prod d).Width (m + n) := by
  intro bs h
  obtain ⟨a, ha⟩ := hc bs (by omega)
  obtain ⟨b, hb⟩ := hd (bs.drop m) (by rw [List.length_drop]; omega)
  rw [List.drop_drop] at hb
  refine ⟨(a, b), ?_⟩
  show (c.get bs).bind (fun p => (d.get p.2).map fun q => ((p.1, q.1), q.2)) = _
  rw [ha, Option.bind_some, hb, Option.map_some]

end Codec

end Pro5Android.Lib
