import Pro5Android.Lib.While
import Mathlib.Algebra.Ring.Int.Defs
import Mathlib.Data.List.TakeDrop
import Mathlib.Tactic.SplitIfs

/-!
# Strings of the radio library

The conversions between UTF-16 and Java's modified UTF-8 of `libcutils_sitril_shim`
(`strdup8to16.cpp` and `strdup16to8.cpp`). A pointer into a string is the memory from
there on; reading past it is `none`. `char` is taken as eight bits without a sign,
which no function here depends on.

Results:
* `getUtf32FromUtf8_spec`: one character takes at least one byte and no byte `0`, and
  makes at most as many units as it takes bytes.
* `getUtf32FromUtf8_encodeUnit`: one unit that was encoded is decoded again.
-/

namespace Pro5Android.Radio

/-- `UTF16_REPLACEMENT_CHAR`. -/
def replacementChar : UInt32 := 0xfffd

/-- `UNICODE_UPPER_LIMIT`. -/
def unicodeUpperLimit : UInt32 := 0x10fffd

/-- `UTF8_SEQ_LENGTH`. -/
def utf8SeqLength (ch : UInt8) : ℕ :=
  (((0xe5000000 : UInt32) >>> ((ch.toUInt32 >>> 3) &&& 0x1e)) &&& 3).toNat + 1

/-- `leaderMask[seq_len - 1]`. -/
def leaderMask (seqLen : ℕ) : UInt32 := [0xff, 0x1f, 0x0f, 0x07].getD (seqLen - 1) 0

/-- Bytes that start with bits `10`. -/
def isExtension (b : UInt8) : Bool := b &&& 0xc0 = 0x80

/-- The loop of `getUtf32FromUtf8` (lines 136–141) with `n` rounds left. -/
def readExtensions : ℕ → UInt32 → List UInt8 → Option (UInt32 × List UInt8)
  | 0, ret, mem => some (ret, mem)
  | _ + 1, _, [] => none
  | n + 1, ret, b :: mem =>
    if b = 0 then some (replacementChar, b :: mem)
    else if !isExtension b then some (replacementChar, b :: mem)
    else readExtensions n ((ret <<< 6) ||| (0x3f &&& b.toUInt32)) mem

/-- `getUtf32FromUtf8` (lines 113–144): the character, and where the pointer stands then. -/
def getUtf32FromUtf8 : List UInt8 → Option (UInt32 × List UInt8)
  | [] => none
  | b :: mem =>
    if isExtension b then some (replacementChar, mem)
    else
      let seqLen := utf8SeqLength b
      let ret := b.toUInt32 &&& leaderMask seqLen
      if b = 0 then some (ret, b :: mem) else readExtensions (seqLen - 1) ret mem

/-- What `strcpy8to16` (lines 162–172) and `strcpylen8to16` (lines 199–209) store for a
    character. -/
def storeUtf32 (ret : UInt32) : List UInt16 :=
  if ret ≤ 0xffff then [ret.toUInt16]
  else if ret ≤ unicodeUpperLimit then
    [((0xd800 : UInt32) ||| ((ret - 0x10000) >>> 10)).toUInt16,
      ((0xdc00 : UInt32) ||| ((ret - 0x10000) &&& 0x3ff)).toUInt16]
  else [replacementChar.toUInt16]

/-- Where `utf8Str` points, and what was stored from `utf16Str` on. -/
abbrev CopyState := List UInt8 × List UInt16

def copyChar (s : CopyState) : Option CopyState :=
  (getUtf32FromUtf8 s.1).map fun (ret, mem) => (mem, s.2 ++ storeUtf32 ret)

/-- The loop of `strcpy8to16` (lines 157–173). -/
def strcpy8to16 : Lib.Loop CopyState where
  more s := s.1.head? != some 0
  body := copyChar

/-- The loop of `strcpylen8to16` (lines 194–210) over a string that starts with `size` bytes
    of memory left. The source has an `int` for `length`, so it is one of its values. -/
def strcpylen8to16 (size : ℕ) (length : ℤ) : Lib.Loop CopyState where
  more s := (size : ℤ) - s.1.length < length
  body := copyChar

/-- The loop of `strlen8to16` (lines 75–97). The source counts `expected` down in an `int`,
    which is the same as long as fewer than `2 ^ 31` extension bytes follow each other. -/
def strlen8to16Loop : List UInt8 → ℕ → ℤ → Option ℕ
  | [], _, _ => none
  | ic :: mem, len, expected =>
    if ic = 0 then some len
    else if isExtension ic then
      let expected := expected - 1
      strlen8to16Loop mem (if expected < 0 then len + 1 else len) expected
    else
      let expected : ℤ := utf8SeqLength ic - 1
      strlen8to16Loop mem (if expected = 3 then len + 1 + 1 else len + 1) expected

/-- `strlen8to16` (lines 69–100). -/
def strlen8to16 (utf8Str : List UInt8) : Option ℕ := strlen8to16Loop utf8Str 0 0

/-- What `strdup8to16` (lines 53–58) asks `malloc` for, with a `size_t` of `w` bits. -/
def strdup8to16Size (w len : ℕ) : Option ℕ :=
  if len ≠ 0 && (2 ^ w - 1) / len < 2 then none else some (2 * len % 2 ^ w)

/-- What `strncpy16to8` (lines 121–128) stores for a unit, and whether the loop ends with it
    (line 132). -/
def encodeUnit (uic : UInt32) : List UInt8 × Bool :=
  if uic > 0x07ff then
    ([((uic >>> 12) ||| 0xe0).toUInt8, (((uic >>> 6) &&& 0x3f) ||| 0x80).toUInt8,
      ((uic &&& 0x3f) ||| 0x80).toUInt8], false)
  else if uic > 0x7f || uic = 0 then
    ([((uic >>> 6) ||| 0xc0).toUInt8, ((uic &&& 0x3f) ||| 0x80).toUInt8], false)
  else ([uic.toUInt8], uic = 0)

/-- `strncpy16to8` (lines 109–140): the bytes stored, with the final zero. -/
def strncpy16to8 : List UInt16 → List UInt8
  | [] => [0]
  | u :: utf16Str =>
    let stored := encodeUnit u.toUInt32
    stored.1 ++ if stored.2 then [0] else strncpy16to8 utf16Str

/-- What `strnlen16to8` (lines 62–67, 78–83) adds for a unit. -/
def unitLength (uic : UInt32) : ℕ :=
  if uic > 0x07ff then 3 else if uic > 0x7f || uic = 0 then 2 else 1

/-- The fast path of `strnlen16to8` (lines 58–69), with a `size_t` of `w` bits. -/
def fastLength (w : ℕ) : List UInt16 → ℕ → ℕ
  | [], utf8Len => utf8Len
  | u :: utf16Str, utf8Len => fastLength w utf16Str ((utf8Len + unitLength u.toUInt32) % 2 ^ w)

/-- Its paranoid version (lines 73–93). -/
def paranoidLength (w : ℕ) : List UInt16 → ℕ → ℕ
  | [], utf8Len => if utf8Len = 2 ^ w - 1 then 2 ^ w - 1 - 1 else utf8Len
  | u :: utf16Str, utf8Cur =>
    let utf8Len := (utf8Cur + unitLength u.toUInt32) % 2 ^ w
    if utf8Len < utf8Cur then 2 ^ w - 1 - 1 else paranoidLength w utf16Str utf8Len

/-- `strnlen16to8` (lines 29–94). -/
def strnlen16to8 (w : ℕ) (utf16Str : List UInt16) : ℕ :=
  if utf16Str.length < (2 ^ w - 1 - 1) / 3 then fastLength w utf16Str 0
  else paranoidLength w utf16Str 0

/-- `strndup16to8` (lines 146–168) of a string that is not null: the size allocated and the
    bytes stored; `none` is a null pointer. -/
def strndup16to8 (w : ℕ) (malloc : ℕ → Bool) (s : List UInt16) : Option (ℕ × List UInt8) :=
  let len := strnlen16to8 w s
  if len ≥ 2 ^ w - 1 - 1 then none
  else if malloc (len + 1) then some (len + 1, strncpy16to8 s)
  else none

/-! ## Bytes -/

theorem leader3_spec : ∀ a : Fin 16,
    let x := (0xe0 + a.1).toUInt8
    isExtension x = false ∧ utf8SeqLength x = 3 ∧ x ≠ 0 ∧ x.toUInt32 &&& 0x0f = a.1.toUInt32 ∧
      (a.1.toUInt32 ||| 0xe0).toUInt8 = x := by
  decide

theorem leader2_spec : ∀ a : Fin 32,
    let x := (0xc0 + a.1).toUInt8
    isExtension x = false ∧ utf8SeqLength x = 2 ∧ x ≠ 0 ∧ x.toUInt32 &&& 0x1f = a.1.toUInt32 ∧
      (a.1.toUInt32 ||| 0xc0).toUInt8 = x := by
  decide

theorem extension_spec : ∀ a : Fin 64,
    let x := (0x80 + a.1).toUInt8
    isExtension x = true ∧ x ≠ 0 ∧ 0x3f &&& x.toUInt32 = a.1.toUInt32 ∧
      (a.1.toUInt32 ||| 0x80).toUInt8 = x := by
  decide

theorem ascii_spec : ∀ a : Fin 128, a.1 ≠ 0 →
    let x := a.1.toUInt8
    isExtension x = false ∧ utf8SeqLength x = 1 ∧ x ≠ 0 ∧
      x.toUInt32 &&& 0xff = a.1.toUInt32 := by
  decide

/-! ## One character -/

theorem utf8SeqLength_le (b : UInt8) : utf8SeqLength b ≤ 4 := by
  rw [utf8SeqLength, UInt32.toNat_and]
  have : (3 : UInt32).toNat = 2 ^ 2 - 1 := rfl
  rw [this, Nat.and_two_pow_sub_one_eq_mod]
  omega

theorem one_le_utf8SeqLength (b : UInt8) : 1 ≤ utf8SeqLength b := Nat.le_add_left 1 _

/-- What the extension bytes are read as: all of them, or the replacement character and a byte
    that is none. -/
theorem readExtensions_spec {n : ℕ} {ret r : UInt32} {mem rest : List UInt8}
    (h : readExtensions n ret mem = some (r, rest)) :
    ∃ pre, mem = pre ++ rest ∧ (∀ b ∈ pre, b ≠ 0 ∧ isExtension b = true) ∧
      (pre.length = n ∧ (∀ m, ret.toNat < 2 ^ m → m + 6 * n ≤ 32 → r.toNat < 2 ^ (m + 6 * n)) ∨
        pre.length < n ∧ r = replacementChar ∧ ∀ b ∈ rest.head?, isExtension b = false) := by
  induction n generalizing ret mem with
  | zero =>
    obtain ⟨rfl, rfl⟩ := Prod.mk.inj (Option.some.inj h)
    exact ⟨[], rfl, by simp, .inl ⟨rfl, fun m hm _ => hm⟩⟩
  | succ n ih =>
    cases mem with
    | nil => cases h
    | cons b mem =>
      rw [readExtensions] at h
      split_ifs at h with hzero hext
      · obtain ⟨rfl, rfl⟩ := Prod.mk.inj (Option.some.inj h)
        refine ⟨[], rfl, by simp, .inr ⟨Nat.succ_pos n, rfl, fun b' hb' => ?_⟩⟩
        obtain rfl := Option.mem_some_iff.mp hb'
        rw [hzero]
        decide
      · obtain ⟨rfl, rfl⟩ := Prod.mk.inj (Option.some.inj h)
        refine ⟨[], rfl, by simp, .inr ⟨Nat.succ_pos n, rfl, fun b' hb' => ?_⟩⟩
        obtain rfl := Option.mem_some_iff.mp hb'
        simpa using hext
      · obtain ⟨pre, rfl, hpre, hcase⟩ := ih h
        refine ⟨b :: pre, rfl, ?_, ?_⟩
        · intro x hx
          rcases List.mem_cons.mp hx with rfl | hx
          · exact ⟨hzero, by simpa using hext⟩
          · exact hpre x hx
        · rcases hcase with ⟨hlen, hbound⟩ | ⟨hlen, hr, hhead⟩
          · refine .inl ⟨by rw [List.length_cons, hlen], fun m hm hle => ?_⟩
            have hnext : ((ret <<< 6) ||| (0x3f &&& b.toUInt32)).toNat < 2 ^ (m + 6) := by
              rw [UInt32.toNat_or]
              apply Nat.or_lt_two_pow
              · rw [UInt32.toNat_shiftLeft]
                have h6 : (6 : UInt32).toNat % 32 = 6 := rfl
                rw [h6, Nat.shiftLeft_eq, pow_add]
                exact (Nat.mod_le _ _).trans_lt (Nat.mul_lt_mul_of_pos_right hm (by decide))
              · rw [UInt32.toNat_and]
                have h63 : (0x3f : UInt32).toNat = 63 := rfl
                have hand : 63 &&& b.toUInt32.toNat ≤ 63 := Nat.and_le_left
                rw [h63]
                have h64 : 2 ^ 6 ≤ 2 ^ (m + 6) := Nat.pow_le_pow_right (by decide) (by omega)
                omega
            have hfinal := hbound (m + 6) hnext (by omega)
            have hexp : m + 6 * (n + 1) = m + 6 + 6 * n := by omega
            rwa [hexp]
          · exact .inr ⟨by rw [List.length_cons]; omega, hr, hhead⟩

theorem length_storeUtf32_le (ret : UInt32) : (storeUtf32 ret).length ≤ 2 := by
  rw [storeUtf32]
  split_ifs
  · exact Nat.le_succ 1
  · exact le_rfl
  · exact Nat.le_succ 1

theorem length_storeUtf32 {ret : UInt32} (h : ret.toNat < 2 ^ 16) :
    (storeUtf32 ret).length = 1 := by
  rw [storeUtf32, if_pos]
  · rfl
  · rw [UInt32.le_iff_toNat_le]
    have : (0xffff : UInt32).toNat = 65535 := rfl
    omega

/-- Only sequences of four bytes are stored as two units. -/
theorem length_store_readExtensions {b : UInt8} {r : UInt32} {mem rest pre : List UInt8}
    (hmem : mem = pre ++ rest)
    (h : readExtensions (utf8SeqLength b - 1) (b.toUInt32 &&& leaderMask (utf8SeqLength b)) mem =
      some (r, rest)) :
    (storeUtf32 r).length = 1 ∨ utf8SeqLength b = 4 ∧ pre.length = 3 := by
  obtain ⟨pre', hmem', -, hcase⟩ := readExtensions_spec h
  obtain rfl : pre' = pre := List.append_cancel_right (hmem'.symm.trans hmem)
  have hle := utf8SeqLength_le b
  have hpos := one_le_utf8SeqLength b
  rcases hcase with ⟨hlen, hbound⟩ | ⟨-, rfl, -⟩
  · have hmask : ∀ n, (leaderMask n).toNat < 2 ^ 8 → utf8SeqLength b = n →
        ∀ m, (leaderMask n).toNat < 2 ^ m → (b.toUInt32 &&& leaderMask (utf8SeqLength b)).toNat <
          2 ^ m := by
      rintro n - rfl m hm
      rw [UInt32.toNat_and]
      exact Nat.and_le_right.trans_lt hm
    obtain h1 | h2 | h3 | h4 : utf8SeqLength b = 1 ∨ utf8SeqLength b = 2 ∨ utf8SeqLength b = 3 ∨
        utf8SeqLength b = 4 := by omega
    · left
      apply length_storeUtf32
      have := hbound 8 (hmask 1 (by decide) h1 8 (by decide)) (by omega)
      rw [h1] at this
      omega
    · left
      apply length_storeUtf32
      have := hbound 5 (hmask 2 (by decide) h2 5 (by decide)) (by omega)
      rw [h2] at this
      omega
    · left
      apply length_storeUtf32
      have := hbound 4 (hmask 3 (by decide) h3 4 (by decide)) (by omega)
      rwa [h3] at this
    · exact .inr ⟨h4, by rw [hlen, h4]⟩
  · exact .inl (length_storeUtf32 (by decide))

theorem getUtf32FromUtf8_extension {b : UInt8} (h : isExtension b = true) (mem : List UInt8) :
    getUtf32FromUtf8 (b :: mem) = some (replacementChar, mem) := by
  rw [getUtf32FromUtf8, if_pos h]

theorem getUtf32FromUtf8_leader {b : UInt8} (hzero : b ≠ 0) (h : isExtension b = false)
    (mem : List UInt8) : getUtf32FromUtf8 (b :: mem) =
      readExtensions (utf8SeqLength b - 1) (b.toUInt32 &&& leaderMask (utf8SeqLength b)) mem := by
  rw [getUtf32FromUtf8, h, if_neg Bool.false_ne_true, if_neg hzero]

/-- A character takes one to four bytes, none of them `0`, and makes no more units than it
    takes bytes. -/
theorem getUtf32FromUtf8_spec {b : UInt8} {r : UInt32} {mem rest : List UInt8} (hzero : b ≠ 0)
    (h : getUtf32FromUtf8 (b :: mem) = some (r, rest)) :
    ∃ pre, mem = pre ++ rest ∧ pre.length ≤ 3 ∧ 0 ∉ pre ∧
      (storeUtf32 r).length ≤ pre.length + 1 := by
  cases hext : isExtension b with
  | true =>
    rw [getUtf32FromUtf8_extension hext] at h
    obtain ⟨rfl, rfl⟩ := Prod.mk.inj (Option.some.inj h)
    exact ⟨[], rfl, Nat.zero_le 3, List.not_mem_nil, by decide⟩
  | false =>
    rw [getUtf32FromUtf8_leader hzero hext] at h
    obtain ⟨pre, hmem, hpre, hcase⟩ := readExtensions_spec h
    have hle := utf8SeqLength_le b
    refine ⟨pre, hmem, by omega, fun h0 => (hpre 0 h0).1 rfl, ?_⟩
    rcases length_store_readExtensions hmem h with hone | ⟨-, hthree⟩
    · omega
    · have := length_storeUtf32_le r
      omega

theorem readExtensions_isSome {n : ℕ} {ret : UInt32} {mem : List UInt8}
    (h : n ≤ mem.length ∨ 0 ∈ mem) : (readExtensions n ret mem).isSome := by
  induction n generalizing ret mem with
  | zero => rfl
  | succ n ih =>
    cases mem with
    | nil => simp at h
    | cons b mem =>
      rw [readExtensions]
      split_ifs with hzero hext
      · rfl
      · rfl
      · refine ih (h.imp (fun hlen => ?_) fun hmem => ?_)
        · rw [List.length_cons] at hlen
          omega
        · exact (List.mem_cons.mp hmem).resolve_left fun h0 => hzero h0.symm

/-- Reading a character stays inside the memory if that has three more bytes, or a zero. -/
theorem getUtf32FromUtf8_isSome (b : UInt8) (mem : List UInt8)
    (h : 3 ≤ mem.length ∨ 0 ∈ b :: mem) : (getUtf32FromUtf8 (b :: mem)).isSome := by
  have hle := utf8SeqLength_le b
  rw [getUtf32FromUtf8]
  split_ifs with hext hzero
  · rfl
  · rfl
  · refine readExtensions_isSome (h.imp (fun hlen => by omega) fun hmem => ?_)
    exact (List.mem_cons.mp hmem).resolve_left fun h0 => hzero h0.symm

/-! ## One unit -/

theorem toNat_digit {n : ℕ} (h : n < 2 ^ 32) : n.toUInt32.toNat = n :=
  UInt32.toNat_ofNat_of_lt' h

theorem shift12_digit {n : ℕ} (h : n < 2 ^ 32) : n.toUInt32 >>> 12 = (n / 4096).toUInt32 := by
  apply UInt32.toNat_inj.mp
  rw [UInt32.toNat_shiftRight, toNat_digit h, toNat_digit (by omega)]
  exact Nat.shiftRight_eq_div_pow n 12

theorem shift6_digit {n : ℕ} (h : n < 2 ^ 32) : n.toUInt32 >>> 6 = (n / 64).toUInt32 := by
  apply UInt32.toNat_inj.mp
  rw [UInt32.toNat_shiftRight, toNat_digit h, toNat_digit (by omega)]
  exact Nat.shiftRight_eq_div_pow n 6

theorem mask_digit {n : ℕ} (h : n < 2 ^ 32) : n.toUInt32 &&& 0x3f = (n % 64).toUInt32 := by
  apply UInt32.toNat_inj.mp
  rw [UInt32.toNat_and, toNat_digit h, toNat_digit (by omega)]
  exact Nat.and_two_pow_sub_one_eq_mod n 6

theorem append_digit {m d : ℕ} (hm : m < 2 ^ 26) (hd : d < 64) :
    (m.toUInt32 <<< 6) ||| d.toUInt32 = (64 * m + d).toUInt32 := by
  apply UInt32.toNat_inj.mp
  rw [UInt32.toNat_or, UInt32.toNat_shiftLeft, toNat_digit (by omega), toNat_digit (by omega),
    toNat_digit (by omega)]
  have h6 : (6 : UInt32).toNat % 32 = 6 := rfl
  have hlt : m <<< 6 < 2 ^ 32 := by
    rw [Nat.shiftLeft_eq]
    omega
  rw [h6, Nat.mod_eq_of_lt hlt, ← Nat.shiftLeft_add_eq_or_of_lt hd, Nat.shiftLeft_eq]
  omega

theorem seqLength_extension : ∀ d : Fin 64, utf8SeqLength (0x80 + d.1).toUInt8 = 1 := by
  decide

/-- One digit of six bits is read from its extension byte. -/
theorem readExtensions_digit {m d : ℕ} (hm : m < 2 ^ 26) (hd : d < 64) (n : ℕ)
    (mem : List UInt8) : readExtensions (n + 1) m.toUInt32 ((0x80 + d).toUInt8 :: mem) =
      readExtensions n (64 * m + d).toUInt32 mem := by
  obtain ⟨hext, hzero, hvalue, -⟩ := extension_spec ⟨d, hd⟩
  dsimp only at hext hzero hvalue
  rw [readExtensions, if_neg hzero, hext, Bool.not_true, if_neg Bool.false_ne_true, hvalue,
    append_digit hm hd]

/-- What is stored for a unit is no zero and decoded again, whatever follows. -/
theorem getUtf32FromUtf8_encodeUnit (u : UInt16) : ∃ b pre,
    encodeUnit u.toUInt32 = (b :: pre, false) ∧
      (∀ x ∈ b :: pre, x ≠ 0 ∧ utf8SeqLength x ≠ 4) ∧
      ∀ mem, getUtf32FromUtf8 (b :: (pre ++ mem)) = some (u.toUInt32, mem) := by
  obtain ⟨n, hn, hu⟩ : ∃ n, n < 65536 ∧ u.toUInt32 = n.toUInt32 :=
    ⟨u.toNat, u.toNat_lt, by
      apply UInt32.toNat_inj.mp
      rw [toNat_digit (u.toNat_lt.trans (by decide)), UInt16.toNat_toUInt32]⟩
  have hword : n < 2 ^ 32 := by omega
  have hgt : ∀ k : UInt32, n.toUInt32 > k ↔ n > k.toNat := fun k => by
    rw [gt_iff_lt, UInt32.lt_iff_toNat_lt, toNat_digit hword]
  have hlow : n.toUInt32 &&& 0x3f = (n % 64).toUInt32 := mask_digit hword
  rw [hu]
  by_cases hthree : n > 0x07ff
  · obtain ⟨hext, hlen, hzero, hlead, hstore⟩ := leader3_spec ⟨n / 4096, by omega⟩
    obtain ⟨-, hzero₁, -, hstore₁⟩ := extension_spec ⟨n / 64 % 64, by omega⟩
    obtain ⟨-, hzero₂, -, hstore₂⟩ := extension_spec ⟨n % 64, by omega⟩
    dsimp only at hext hlen hzero hlead hstore hzero₁ hstore₁ hzero₂ hstore₂
    refine ⟨(0xe0 + n / 4096).toUInt8, [(0x80 + n / 64 % 64).toUInt8, (0x80 + n % 64).toUInt8],
      ?_, ?_, fun mem => ?_⟩
    · rw [encodeUnit, if_pos ((hgt 0x07ff).mpr hthree), shift12_digit hword, shift6_digit hword,
        mask_digit (by omega), hlow, hstore, hstore₁, hstore₂]
    · intro x hx
      rw [List.mem_cons, List.mem_cons, List.mem_singleton] at hx
      rcases hx with rfl | rfl | rfl
      · exact ⟨hzero, by rw [hlen]; decide⟩
      · exact ⟨hzero₁, by rw [seqLength_extension ⟨n / 64 % 64, by omega⟩]; decide⟩
      · exact ⟨hzero₂, by rw [seqLength_extension ⟨n % 64, by omega⟩]; decide⟩
    · rw [getUtf32FromUtf8_leader hzero hext, hlen]
      have hdigits : 64 * (64 * (n / 4096) + n / 64 % 64) + n % 64 = n := by omega
      rw [show leaderMask 3 = 0x0f from rfl, hlead, List.cons_append, List.cons_append,
        List.nil_append, readExtensions_digit (by omega) (by omega),
        readExtensions_digit (by omega) (by omega), hdigits, readExtensions]
  · by_cases htwo : n > 0x7f ∨ n = 0
    · obtain ⟨hext, hlen, hzero, hlead, hstore⟩ := leader2_spec ⟨n / 64, by omega⟩
      obtain ⟨-, hzero₁, -, hstore₁⟩ := extension_spec ⟨n % 64, by omega⟩
      dsimp only at hext hlen hzero hlead hstore hzero₁ hstore₁
      refine ⟨(0xc0 + n / 64).toUInt8, [(0x80 + n % 64).toUInt8], ?_, ?_, fun mem => ?_⟩
      · have hbranch : (n.toUInt32 > 0x7f || n.toUInt32 = 0) = true := by
          rw [Bool.or_eq_true, decide_eq_true_iff, decide_eq_true_iff, hgt]
          refine htwo.imp id fun h => ?_
          rw [h]
          rfl
        rw [encodeUnit, if_neg (mt (hgt 0x07ff).mp hthree), if_pos hbranch, shift6_digit hword, hlow,
          hstore, hstore₁]
      · intro x hx
        rw [List.mem_cons, List.mem_singleton] at hx
        rcases hx with rfl | rfl
        · exact ⟨hzero, by rw [hlen]; decide⟩
        · exact ⟨hzero₁, by rw [seqLength_extension ⟨n % 64, by omega⟩]; decide⟩
      · rw [getUtf32FromUtf8_leader hzero hext, hlen]
        have hdigits : 64 * (n / 64) + n % 64 = n := by omega
        rw [show leaderMask 2 = 0x1f from rfl, hlead, List.cons_append, List.nil_append,
          readExtensions_digit (by omega) (by omega), hdigits, readExtensions]
    · rw [not_or] at htwo
      obtain ⟨hext, hlen, hzero, hlead⟩ := ascii_spec ⟨n, by omega⟩ htwo.2
      dsimp only at hext hlen hzero hlead
      have hne : n.toUInt32 ≠ 0 := fun h =>
        htwo.2 (by rw [← toNat_digit hword, h]; rfl)
      have hbranch : ¬ (n.toUInt32 > 0x7f || n.toUInt32 = 0) = true := by
        rw [Bool.or_eq_true, decide_eq_true_iff, decide_eq_true_iff, hgt]
        rintro (h | h)
        · exact htwo.1 h
        · exact hne h
      have hstore : n.toUInt32.toUInt8 = n.toUInt8 := by
        apply UInt8.toNat_inj.mp
        rw [UInt32.toNat_toUInt8, toNat_digit hword]
        exact (UInt8.toNat_ofNat' ).symm
      refine ⟨n.toUInt8, [], ?_, ?_, fun mem => ?_⟩
      · rw [encodeUnit, if_neg (mt (hgt 0x07ff).mp hthree), if_neg hbranch, hstore,
          decide_eq_false hne]
      · intro x hx
        obtain rfl := List.mem_singleton.mp hx
        exact ⟨hzero, by rw [hlen]; decide⟩
      · rw [getUtf32FromUtf8_leader hzero hext, hlen, show leaderMask 1 = 0xff from rfl, hlead,
          List.nil_append, readExtensions]

theorem storeUtf32_unit (u : UInt16) : storeUtf32 u.toUInt32 = [u] := by
  rw [storeUtf32, if_pos]
  · rw [UInt16.toUInt16_toUInt32]
  · rw [UInt32.le_iff_toNat_le, UInt16.toNat_toUInt32]
    exact Nat.le_of_lt_succ u.toNat_lt

/-! ## Counting units -/

theorem strlen8to16Loop_extensions {pre : List UInt8}
    (hpre : ∀ b ∈ pre, b ≠ 0 ∧ isExtension b = true) (rest : List UInt8) (len : ℕ) {e : ℤ}
    (he : 0 ≤ e) :
    strlen8to16Loop (pre ++ rest) len (pre.length + e) = strlen8to16Loop rest len e := by
  induction pre with
  | nil => rw [List.nil_append, List.length_nil, Nat.cast_zero, zero_add]
  | cons b pre ih =>
    obtain ⟨hzero, hext⟩ := hpre b List.mem_cons_self
    have hnext : ((b :: pre).length : ℤ) + e - 1 = pre.length + e := by
      rw [List.length_cons]
      omega
    rw [List.cons_append, strlen8to16Loop, if_neg hzero, if_pos hext]
    dsimp only
    rw [hnext, if_neg (by omega), ih fun x hx => hpre x (List.mem_cons_of_mem b hx)]

/-- At the start of a character no extension byte is expected, or none comes. -/
def AtStart (expected : ℤ) (mem : List UInt8) : Prop :=
  expected ≤ 0 ∨ ∀ b ∈ mem.head?, isExtension b = false

/-- `strlen8to16` counts a character as at least as many units as it makes, and as that many
    unless it is led by one of four bytes. -/
theorem strlen8to16Loop_char {b : UInt8} {r : UInt32} {mem rest : List UInt8} {expected : ℤ}
    (hzero : b ≠ 0) (hstart : AtStart expected (b :: mem))
    (h : getUtf32FromUtf8 (b :: mem) = some (r, rest)) (len : ℕ) :
    ∃ units expected', strlen8to16Loop (b :: mem) len expected =
        strlen8to16Loop rest (len + units) expected' ∧ AtStart expected' rest ∧
      (storeUtf32 r).length ≤ units ∧
      (utf8SeqLength b ≠ 4 → units = (storeUtf32 r).length) := by
  cases hext : isExtension b with
  | true =>
    have hnone : expected ≤ 0 := hstart.resolve_right fun hhead => by
      rw [hhead b rfl] at hext
      cases hext
    rw [getUtf32FromUtf8_extension hext] at h
    obtain ⟨rfl, rfl⟩ := Prod.mk.inj (Option.some.inj h)
    refine ⟨1, expected - 1, ?_, .inl (by omega), by decide, fun _ => rfl⟩
    rw [strlen8to16Loop, if_neg hzero, if_pos hext]
    dsimp only
    rw [if_pos (by omega)]
  | false =>
    rw [getUtf32FromUtf8_leader hzero hext] at h
    obtain ⟨pre, rfl, hpre, hcase⟩ := readExtensions_spec h
    have hpos := one_le_utf8SeqLength b
    have hstored := length_store_readExtensions rfl h
    have hle : pre.length ≤ utf8SeqLength b - 1 := by
      rcases hcase with ⟨hlen, -⟩ | ⟨hlen, -⟩
      · omega
      · omega
    have hsplit : (utf8SeqLength b : ℤ) - 1 =
        pre.length + (utf8SeqLength b - 1 - pre.length : ℕ) := by omega
    refine ⟨if utf8SeqLength b = 4 then 2 else 1, (utf8SeqLength b - 1 - pre.length : ℕ), ?_, ?_,
      ?_, ?_⟩
    · rw [strlen8to16Loop, if_neg hzero, hext, if_neg Bool.false_ne_true]
      dsimp only
      rw [hsplit, strlen8to16Loop_extensions hpre rest _ (Int.natCast_nonneg _), ← hsplit]
      by_cases h4 : utf8SeqLength b = 4
      · rw [if_pos h4, if_pos (by omega)]
      · rw [if_neg h4, if_neg (by omega)]
    · rcases hcase with ⟨hlen, -⟩ | ⟨-, -, hhead⟩
      · exact .inl (by omega)
      · exact .inr hhead
    · split_ifs with h4
      · exact length_storeUtf32_le r
      · rcases hstored with hone | ⟨h4', -⟩
        · exact hone.le
        · exact absurd h4' h4
    · intro h4
      rw [if_neg h4]
      exact (hstored.resolve_right fun h => h4 h.1).symm

end Pro5Android.Radio
