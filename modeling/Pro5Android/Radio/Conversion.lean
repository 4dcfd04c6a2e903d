import Pro5Android.Radio.JString

/-!
# Converting whole strings

The loops of `strcpy8to16` and `strcpylen8to16` on any bytes, and what the lengths
computed beforehand have to do with what is stored.

Results:
* `strcpy8to16_fits`: `strcpy8to16` ends at the end of the string and stores no more
  units than `strlen8to16` has counted.
* `strcpylen8to16_ends_iff`: `strcpylen8to16` ends exactly if there is no zero among
  the bytes it is to convert.
* `strcpy8to16_strncpy16to8`: every string comes back from UTF-8.
* `strndup16to8_fits`: `strnlen16to8` is right on both of its paths.
-/

namespace Pro5Android.Radio

open Lib

/-! ## From UTF-8 -/

theorem copyChar_eq {b : UInt8} {mem rest : List UInt8} {dest : List UInt16} {r : UInt32}
    (h : getUtf32FromUtf8 (b :: mem) = some (r, rest)) :
    copyChar (b :: mem, dest) = some (rest, dest ++ storeUtf32 r) := by
  rw [copyChar, h, Option.map_some]

/-- What follows a part without zeros of a string with a final zero. -/
theorem append_eq_string {pre x t rest : List UInt8} (h : pre ++ x = t ++ 0 :: rest)
    (hpre : 0 ∉ pre) : ∃ t', t = pre ++ t' ∧ x = t' ++ 0 :: rest := by
  rcases List.append_eq_append_iff.mp h with ⟨t', rfl, rfl⟩ | ⟨t', rfl, hrest⟩
  · exact ⟨t', rfl, rfl⟩
  · cases t' with
    | nil => exact ⟨[], by simp, by simpa using hrest.symm⟩
    | cons b t' =>
      obtain ⟨rfl, -⟩ := List.cons.inj hrest
      exact absurd (by simp) hpre

/-- The pointer is at the start of a character of the string `s`, or at its end. -/
def Inside (s rest : List UInt8) (st : CopyState) : Prop :=
  ∃ t, st.1 = t ++ 0 :: rest ∧ t <:+ s

/-- A character is read inside the string. -/
theorem copyChar_string {b : UInt8} (hzero : b ≠ 0) (t rest : List UInt8) (dest : List UInt16) :
    ∃ r pre t', t = pre ++ t' ∧ pre.length ≤ 3 ∧ (storeUtf32 r).length ≤ pre.length + 1 ∧
      getUtf32FromUtf8 (b :: t ++ 0 :: rest) = some (r, t' ++ 0 :: rest) ∧
      copyChar (b :: t ++ 0 :: rest, dest) = some (t' ++ 0 :: rest, dest ++ storeUtf32 r) := by
  obtain ⟨⟨r, x⟩, hr⟩ := Option.isSome_iff_exists.mp
    (getUtf32FromUtf8_isSome b (t ++ 0 :: rest) (.inr (by simp)))
  obtain ⟨pre, hmem, hlen, hpre, hunits⟩ := getUtf32FromUtf8_spec hzero hr
  obtain ⟨t', rfl, rfl⟩ := append_eq_string hmem.symm hpre
  exact ⟨r, pre, t', rfl, hlen, hunits, hr, copyChar_eq hr⟩

theorem Inside.step {s rest : List UInt8} {st st₁ : CopyState} (h : Inside s rest st)
    (hmore : strcpy8to16.more st = true) (hstep : copyChar st = some st₁) :
    Inside s rest st₁ := by
  obtain ⟨_, dest⟩ := st
  obtain ⟨t, rfl, hsuffix⟩ := h
  cases t with
  | nil => simp [strcpy8to16] at hmore
  | cons b t =>
    have hzero : b ≠ 0 := by simpa [strcpy8to16] using hmore
    obtain ⟨r, pre, t', rfl, -, -, -, hcopy⟩ := copyChar_string hzero t rest dest
    obtain rfl := Option.some.inj (hstep.symm.trans hcopy)
    exact ⟨t', rfl, ((List.suffix_append pre t').trans (List.suffix_cons b _)).trans hsuffix⟩

/-- What has been stored so far is no more than has been counted. -/
structure Counted (s rest : List UInt8) (st : CopyState) : Prop where
  inside : Inside s rest st
  count : ∃ len expected, strlen8to16 (s ++ 0 :: rest) = strlen8to16Loop st.1 len expected ∧
    AtStart expected st.1 ∧ st.2.length ≤ len ∧
    ((∀ b ∈ s, utf8SeqLength b ≠ 4) → st.2.length = len)

theorem Counted.step {s rest : List UInt8} {st st₁ : CopyState} (h : Counted s rest st)
    (hmore : strcpy8to16.more st = true) (hstep : copyChar st = some st₁) :
    Counted s rest st₁ := by
  obtain ⟨_, dest⟩ := st
  obtain ⟨t, rfl, hsuffix⟩ := h.inside
  cases t with
  | nil => simp [strcpy8to16] at hmore
  | cons b t =>
    have hzero : b ≠ 0 := by simpa [strcpy8to16] using hmore
    obtain ⟨r, pre, t', rfl, -, -, hr, hcopy⟩ := copyChar_string hzero t rest dest
    obtain rfl := Option.some.inj (hstep.symm.trans hcopy)
    obtain ⟨len, expected, hlen, hstart, hle, heq⟩ := h.count
    obtain ⟨units, expected', hloop, hstart', hunits, hexact⟩ :=
      strlen8to16Loop_char hzero hstart hr len
    refine ⟨h.inside.step hmore hstep, len + units, expected', hlen.trans hloop, hstart', ?_,
      fun h4 => ?_⟩
    · rw [List.length_append]
      dsimp only at hle
      omega
    · have hb : b ∈ s := hsuffix.subset List.mem_cons_self
      have hsame := heq h4
      dsimp only at hsame
      rw [List.length_append, hsame, hexact (h4 b hb)]

theorem strdup8to16Size_eq {w len size : ℕ} (h : strdup8to16Size w len = some size) :
    size = 2 * len := by
  rw [strdup8to16Size] at h
  split_ifs at h with hsize
  obtain rfl := Option.some.inj h
  apply Nat.mod_eq_of_lt
  rw [Bool.and_eq_true, decide_eq_true_iff, decide_eq_true_iff, not_and, Nat.not_lt] at hsize
  have hpow : 0 < 2 ^ w := Nat.two_pow_pos w
  rcases Nat.eq_zero_or_pos len with rfl | hlen
  · exact hpow
  · have := (Nat.le_div_iff_mul_le hlen).mp (hsize hlen.ne')
    omega

/-- The run of `strcpy8to16` on a string. -/
theorem strcpy8to16_counted {s : List UInt8} (hs : 0 ∉ s) (rest : List UInt8) :
    ∃ units len, strcpy8to16.Ends (s ++ 0 :: rest, []) (0 :: rest, units) ∧
      strlen8to16 (s ++ 0 :: rest) = some len ∧ units.length ≤ len ∧
      ((∀ b ∈ s, utf8SeqLength b ≠ 4) → units.length = len) := by
  have hstart : Counted s rest (s ++ 0 :: rest, []) :=
    ⟨⟨s, rfl, List.suffix_rfl⟩, 0, 0, rfl, .inl le_rfl, le_rfl, fun _ => rfl⟩
  obtain ⟨⟨_, units⟩, hends⟩ : ∃ st, strcpy8to16.Ends (s ++ 0 :: rest, []) st := by
    refine Loop.ends_of_measure (Counted s rest) (fun st => st.1.length) ?_ hstart
    rintro ⟨_, dest⟩ hcounted hmore
    obtain ⟨t, rfl, -⟩ := hcounted.inside
    cases t with
    | nil => simp [strcpy8to16] at hmore
    | cons b t =>
      have hzero : b ≠ 0 := by simpa [strcpy8to16] using hmore
      obtain ⟨r, pre, t', rfl, -, -, -, hcopy⟩ :=
        copyChar_string hzero t rest dest
      refine ⟨_, hcopy, hcounted.step hmore hcopy, ?_⟩
      simp only [List.cons_append, List.length_cons, List.length_append]
      omega
  obtain ⟨hcounted, hstop⟩ := hends.invariant (Counted s rest) (fun hP hmore hstep =>
    hP.step hmore hstep) hstart
  obtain ⟨t, rfl, hsuffix⟩ := hcounted.inside
  obtain ⟨len, expected, hlen, -, hle, heq⟩ := hcounted.count
  cases t with
  | nil => exact ⟨units, len, hends, hlen, hle, heq⟩
  | cons b t =>
    have hb : b = 0 := by simpa [strcpy8to16] using hstop
    exact absurd (hsuffix.subset (hb ▸ List.mem_cons_self)) hs

/-- Inside a string, `strcpylen8to16` with its length goes on exactly as long. -/
theorem strcpylen8to16_more {s rest : List UInt8} (hs : 0 ∉ s) {st : CopyState}
    (h : Inside s rest st) :
    (strcpylen8to16 (s ++ 0 :: rest).length s.length).more st = strcpy8to16.more st := by
  obtain ⟨t, ht, hsuffix⟩ := h
  have hle := hsuffix.length_le
  cases t with
  | nil => simp [strcpylen8to16, strcpy8to16, ht]
  | cons b t =>
    have hzero : b ≠ 0 := fun h0 => hs (hsuffix.subset (h0 ▸ List.mem_cons_self))
    simp only [strcpylen8to16, strcpy8to16, ht, List.cons_append, List.head?_cons,
      List.length_append, List.length_cons]
    rw [decide_eq_true (by omega)]
    simpa using hzero

theorem strcpylen8to16_same {s rest : List UInt8} (hs : 0 ∉ s) {st : CopyState}
    (h : strcpy8to16.Ends (s ++ 0 :: rest, []) st) :
    (strcpylen8to16 (s ++ 0 :: rest).length s.length).Ends (s ++ 0 :: rest, []) st := by
  obtain ⟨st', hst', rfl, -⟩ : ∃ st',
      (strcpylen8to16 (s ++ 0 :: rest).length s.length).Ends (s ++ 0 :: rest, []) st' ∧
        st = st' ∧ Inside s rest st := by
    refine h.simulate (fun st st' => st = st' ∧ Inside s rest st) ?_ ?_
      ⟨rfl, s, rfl, List.suffix_rfl⟩
    · rintro st _ ⟨rfl, hinside⟩
      exact strcpylen8to16_more hs hinside
    · rintro st st₁ _ ⟨rfl, hinside⟩ hmore hstep
      exact ⟨st₁, hstep, rfl, hinside.step hmore hstep⟩
  exact hst'

/-- Whatever bytes a string consists of, if an `int` can count them: `strcpy8to16` ends with
    the string, and has then stored no more units than `strlen8to16` counts, exactly that many
    where no byte leads a sequence of four; they fit into what `strdup8to16` allocates.
    `strcpylen8to16` does the same with the length of the string. -/
theorem strcpy8to16_fits {s : List UInt8} (hs : 0 ∉ s) (_hint : s.length < 2 ^ 31)
    (rest : List UInt8) :
    ∃ units len, strcpy8to16.Ends (s ++ 0 :: rest, []) (0 :: rest, units) ∧
      (strcpylen8to16 (s ++ 0 :: rest).length s.length).Ends (s ++ 0 :: rest, [])
        (0 :: rest, units) ∧
      strlen8to16 (s ++ 0 :: rest) = some len ∧ units.length ≤ len ∧
      ((∀ b ∈ s, utf8SeqLength b ≠ 4) → units.length = len) ∧
      ∀ w size, strdup8to16Size w len = some size → 2 * units.length ≤ size := by
  obtain ⟨units, len, hends, hlen, hle, heq⟩ := strcpy8to16_counted hs rest
  refine ⟨units, len, hends, strcpylen8to16_same hs hends, hlen, hle, heq, fun w size hsize => ?_⟩
  rw [strdup8to16Size_eq hsize]
  exact Nat.mul_le_mul_left 2 hle

theorem strcpy8to16_fits_sample :
    ∃ units len, strcpy8to16.Ends ([0xed, 0x41] ++ 0 :: [], []) (0 :: [], units) ∧
      (strcpylen8to16 ([0xed, 0x41] ++ 0 :: []).length ([0xed, 0x41] : List UInt8).length).Ends
        ([0xed, 0x41] ++ 0 :: [], []) (0 :: [], units) ∧
      strlen8to16 ([0xed, 0x41] ++ 0 :: []) = some len ∧ units.length ≤ len ∧
      ((∀ b ∈ ([0xed, 0x41] : List UInt8), utf8SeqLength b ≠ 4) → units.length = len) ∧
      ∀ w size, strdup8to16Size w len = some size → 2 * units.length ≤ size :=
  strcpy8to16_fits (by decide) (by decide) []

/-! ## A given length -/

/-- So many bytes are read after `st`, and the units stored for them. -/
structure Within (mem : List UInt8) (length : ℤ) (st : CopyState) : Prop where
  suffix : st.1 <:+ mem
  units : (st.2.length : ℤ) ≤ mem.length - st.1.length
  bound : st.2.length ≤ length.toNat + 1
  consumed : (mem.length : ℤ) - st.1.length ≤ length.toNat + 3

theorem mem_take_of_suffix {mem t : List UInt8} {b : UInt8} {n : ℕ} (h : b :: t <:+ mem)
    (hlt : mem.length < n + (b :: t).length) : b ∈ mem.take n := by
  obtain ⟨pre, rfl⟩ := h
  rw [List.length_append] at hlt
  rw [List.take_append, List.mem_append]
  right
  obtain ⟨k, hk⟩ : ∃ k, n - pre.length = k + 1 := ⟨n - pre.length - 1, by omega⟩
  rw [hk, List.take_succ_cons]
  exact List.mem_cons_self

/-- A round of `strcpylen8to16` where no zero is in its way. -/
theorem Within.step {mem : List UInt8} {length : ℤ} (hroom : length.toNat + 3 ≤ mem.length)
    (hzero : 0 ∉ mem.take length.toNat) {st : CopyState} (h : Within mem length st)
    (hmore : (strcpylen8to16 mem.length length).more st = true) :
    ∃ st₁, copyChar st = some st₁ ∧ Within mem length st₁ ∧ st₁.1.length < st.1.length := by
  obtain ⟨m, dest⟩ := st
  have hlt : (mem.length : ℤ) - m.length < length := by simpa [strcpylen8to16] using hmore
  have hsuffix : m <:+ mem := h.suffix
  have hle := hsuffix.length_le
  have hunits : (dest.length : ℤ) ≤ mem.length - m.length := h.units
  cases m with
  | nil =>
    rw [List.length_nil] at hlt
    omega
  | cons b m =>
    rw [List.length_cons] at hlt hunits
    have hb : b ≠ 0 := fun h0 => hzero (h0 ▸ mem_take_of_suffix hsuffix (by
      rw [List.length_cons]
      omega))
    obtain ⟨⟨r, rest⟩, hr⟩ := Option.isSome_iff_exists.mp
      (getUtf32FromUtf8_isSome b m (.inl (by omega)))
    obtain ⟨pre, rfl, hlen, -, hstored⟩ := getUtf32FromUtf8_spec hb hr
    have htwo := length_storeUtf32_le r
    rw [List.length_append] at hlt hunits
    refine ⟨_, copyChar_eq hr, ⟨?_, ?_, ?_, ?_⟩, ?_⟩
    · exact ((List.suffix_append pre rest).trans (List.suffix_cons b _)).trans hsuffix
    · rw [List.length_append]
      dsimp only
      omega
    · rw [List.length_append]
      omega
    · dsimp only
      omega
    · rw [List.length_cons, List.length_append]
      dsimp only
      omega

/-- `getUtf32FromUtf8` does not go past a zero. -/
theorem copyChar_zero (mem : List UInt8) (dest : List UInt16) :
    copyChar (0 :: mem, dest) = some (0 :: mem, dest ++ [0]) := by
  have hget : getUtf32FromUtf8 (0 :: mem) = some (0, 0 :: mem) := by
    rw [getUtf32FromUtf8, if_neg (by decide), if_pos rfl]
    rfl
  exact copyChar_eq hget

theorem Inside.stay {s rest : List UInt8} {st st₁ : CopyState} (h : Inside s rest st)
    (hs : 0 ∉ s) (hstep : copyChar st = some st₁) : Inside s rest st₁ := by
  obtain ⟨_, dest⟩ := st
  obtain ⟨t, rfl, hsuffix⟩ := h
  cases t with
  | nil =>
    obtain rfl := Option.some.inj (hstep.symm.trans (copyChar_zero rest dest))
    exact ⟨[], rfl, hsuffix⟩
  | cons b t =>
    have hzero : b ≠ 0 := fun h0 => hs (hsuffix.subset (h0 ▸ List.mem_cons_self))
    exact Inside.step ⟨b :: t, rfl, hsuffix⟩ (by simpa [strcpy8to16] using hzero) hstep

/-- `strcpylen8to16` stores without end at a zero it is to convert. -/
theorem strcpylen8to16_not_ends {mem : List UInt8} {length : ℤ}
    (hzero : 0 ∈ mem.take length.toNat) :
    ¬ ∃ st, (strcpylen8to16 mem.length length).Ends (mem, []) st := by
  obtain ⟨t, rest, hsplit, hfirst⟩ := List.eq_append_cons_of_mem hzero
  have hmem : mem = t ++ 0 :: (rest ++ mem.drop length.toNat) := by
    rw [← List.cons_append, ← List.append_assoc, ← hsplit, List.take_append_drop]
  have hlen := congrArg List.length hsplit
  have htotal := congrArg List.length hmem
  rw [List.length_take, List.length_append, List.length_cons] at hlen
  rw [List.length_append, List.length_cons] at htotal
  refine Loop.not_ends (Inside t (rest ++ mem.drop length.toNat)) ?_ ?_
    ⟨t, hmem, List.suffix_rfl⟩
  · rintro ⟨m, dest⟩ ⟨t', hm, hsuffix⟩
    have hle := hsuffix.length_le
    have hrest := congrArg List.length hm
    rw [List.length_append, List.length_cons] at hrest
    dsimp only at hrest
    simp only [strcpylen8to16, decide_eq_true_eq]
    omega
  · exact fun h hstep => h.stay hfirst hstep

/-- `strcpylen8to16` ends exactly if there is no zero among the bytes it is to convert; it has
    then read at most three bytes behind them and stored at most one unit more than there
    are. -/
theorem strcpylen8to16_ends_iff {mem : List UInt8} {length : ℤ}
    (hroom : length.toNat + 3 ≤ mem.length) :
    ((∃ st, (strcpylen8to16 mem.length length).Ends (mem, []) st) ↔
        0 ∉ mem.take length.toNat) ∧
      ∀ st, (strcpylen8to16 mem.length length).Ends (mem, []) st →
        st.2.length ≤ length.toNat + 1 ∧ (mem.length : ℤ) - st.1.length ≤ length.toNat + 3 := by
  have hstart : Within mem length (mem, []) :=
    ⟨List.suffix_rfl, by simp, Nat.zero_le _, by simp; omega⟩
  have hends : (∃ st, (strcpylen8to16 mem.length length).Ends (mem, []) st) →
      0 ∉ mem.take length.toNat :=
    fun h hzero => strcpylen8to16_not_ends hzero h
  refine ⟨⟨hends, fun hzero => ?_⟩, fun st hst => ?_⟩
  · exact Loop.ends_of_measure (Within mem length) (fun st => st.1.length)
      (fun h hmore => h.step hroom hzero hmore) hstart
  · have hzero := hends ⟨st, hst⟩
    obtain ⟨h, -⟩ := hst.invariant (Within mem length) (fun h hmore hstep => by
      obtain ⟨st₁, hst₁, h₁, -⟩ := h.step hroom hzero hmore
      exact Option.some.inj (hst₁.symm.trans hstep) ▸ h₁) hstart
    exact ⟨h.bound, h.consumed⟩

theorem strcpylen8to16_ends_iff_sample :
    let mem : List UInt8 := [0xe0, 0xa4, 0x93, 0x41]
    ((∃ st, (strcpylen8to16 mem.length 1).Ends (mem, []) st) ↔ 0 ∉ mem.take (1 : ℤ).toNat) ∧
      ∀ st, (strcpylen8to16 mem.length 1).Ends (mem, []) st →
        st.2.length ≤ (1 : ℤ).toNat + 1 ∧
          (mem.length : ℤ) - st.1.length ≤ (1 : ℤ).toNat + 3 :=
  @strcpylen8to16_ends_iff [0xe0, 0xa4, 0x93, 0x41] 1 (by decide)

/-! ## To UTF-8 and back -/

/-- What `strncpy16to8` stores is a string, and `strcpy8to16` reads it back. -/
theorem strncpy16to8_spec (s : List UInt16) : ∃ bs, strncpy16to8 s = bs ++ [0] ∧
    (∀ b ∈ bs, b ≠ 0 ∧ utf8SeqLength b ≠ 4) ∧
    ∀ rest dest, strcpy8to16.Ends (bs ++ 0 :: rest, dest) (0 :: rest, dest ++ s) := by
  induction s with
  | nil =>
    refine ⟨[], rfl, by simp, fun rest dest => ?_⟩
    rw [List.append_nil]
    exact .stop (by simp [strcpy8to16])
  | cons u s ih =>
    obtain ⟨bs, hbs, hbytes, hread⟩ := ih
    obtain ⟨b, pre, hstored, hunit, hget⟩ := getUtf32FromUtf8_encodeUnit u
    refine ⟨b :: pre ++ bs, ?_, ?_, fun rest dest => ?_⟩
    · rw [strncpy16to8, hstored, hbs, List.append_assoc]
      rfl
    · intro x hx
      exact (List.mem_append.mp hx).elim (hunit x) (hbytes x)
    · have hzero := (hunit b List.mem_cons_self).1
      have hcopy : copyChar (b :: pre ++ bs ++ 0 :: rest, dest) =
          some (bs ++ 0 :: rest, dest ++ [u]) := by
        rw [List.append_assoc, List.cons_append, copyChar_eq (hget _), storeUtf32_unit]
      refine .step (by simpa [strcpy8to16] using hzero) hcopy ?_
      have hrest := hread rest (dest ++ [u])
      rwa [List.append_assoc] at hrest

/-- Every string of units comes back from its UTF-8 form, and is counted there exactly. -/
theorem strcpy8to16_strncpy16to8 (s : List UInt16) (rest : List UInt8) :
    strcpy8to16.Ends (strncpy16to8 s ++ rest, []) (0 :: rest, s) ∧
      strlen8to16 (strncpy16to8 s ++ rest) = some s.length := by
  obtain ⟨bs, hbs, hbytes, hread⟩ := strncpy16to8_spec s
  rw [hbs, List.append_assoc, List.cons_append, List.nil_append]
  have hends := hread rest []
  obtain ⟨units, len, hends', hlen, -, heq⟩ :=
    strcpy8to16_counted (fun h => (hbytes 0 h).1 rfl) rest
  obtain rfl : s = units := congrArg Prod.snd (hends.unique hends')
  exact ⟨hends, by rw [hlen, heq fun b hb => (hbytes b hb).2]⟩

/-! ## Lengths -/

theorem unitLength_eq (u : UInt16) :
    (encodeUnit u.toUInt32).1.length = unitLength u.toUInt32 := by
  rw [encodeUnit, unitLength]
  split_ifs
  · rfl
  · rfl
  · rfl

theorem length_strncpy16to8 (u : UInt16) (s : List UInt16) :
    (strncpy16to8 (u :: s)).length = unitLength u.toUInt32 + (strncpy16to8 s).length := by
  obtain ⟨b, pre, hstored, -, -⟩ := getUtf32FromUtf8_encodeUnit u
  rw [← unitLength_eq, strncpy16to8, hstored, List.length_append]
  rfl

theorem length_strncpy16to8_pos (s : List UInt16) : 0 < (strncpy16to8 s).length := by
  obtain ⟨bs, hbs, -⟩ := strncpy16to8_spec s
  rw [hbs, List.length_append]
  exact Nat.succ_pos _

theorem unitLength_le (uic : UInt32) : unitLength uic ≤ 3 := by
  rw [unitLength]
  split_ifs
  · exact le_rfl
  · exact Nat.le_succ 2
  · omega

theorem length_strncpy16to8_le (s : List UInt16) :
    (strncpy16to8 s).length ≤ 3 * s.length + 1 := by
  induction s with
  | nil => exact le_rfl
  | cons u s ih =>
    have := unitLength_le u.toUInt32
    rw [length_strncpy16to8, List.length_cons]
    omega

theorem fastLength_eq {w : ℕ} {s : List UInt16} (utf8Len : ℕ)
    (h : utf8Len + (strncpy16to8 s).length ≤ 2 ^ w) :
    fastLength w s utf8Len + 1 = utf8Len + (strncpy16to8 s).length := by
  induction s generalizing utf8Len with
  | nil => rfl
  | cons u s ih =>
    have hpos := length_strncpy16to8_pos s
    rw [length_strncpy16to8] at h ⊢
    rw [fastLength, Nat.mod_eq_of_lt (by omega), ih _ (by omega)]
    omega

/-- A sum that wraps around is noticed, as it then goes down. -/
theorem paranoidLength_eq {w : ℕ} (hw : 2 ≤ w) {s : List UInt16} {utf8Len : ℕ}
    (h : utf8Len < 2 ^ w) :
    paranoidLength w s utf8Len =
      min (utf8Len + (strncpy16to8 s).length - 1) (2 ^ w - 2) := by
  have hfour : 2 ^ 2 ≤ 2 ^ w := Nat.pow_le_pow_right (by decide) hw
  induction s generalizing utf8Len with
  | nil =>
    have hone : (strncpy16to8 []).length = 1 := rfl
    rw [paranoidLength, hone]
    split_ifs with hmax
    · omega
    · omega
  | cons u s ih =>
    have hle := unitLength_le u.toUInt32
    have hpos := length_strncpy16to8_pos s
    rw [length_strncpy16to8, paranoidLength]
    by_cases hwrap : utf8Len + unitLength u.toUInt32 < 2 ^ w
    · rw [Nat.mod_eq_of_lt hwrap, if_neg (by omega), ih hwrap]
      omega
    · have hmod : (utf8Len + unitLength u.toUInt32) % 2 ^ w =
          utf8Len + unitLength u.toUInt32 - 2 ^ w := by
        rw [Nat.mod_eq_sub_mod (by omega), Nat.mod_eq_of_lt (by omega)]
      rw [hmod, if_pos (by omega)]
      omega

/-- `strnlen16to8` gives the length of what is stored before the final zero, cut off at
    `SIZE_MAX - 1`, whichever path it takes; so `strndup16to8` fills its memory exactly, and
    gives up only where the string is too long or there is no memory. -/
theorem strndup16to8_fits {w : ℕ} (hw : 2 ≤ w) (malloc : ℕ → Bool) (s : List UInt16) :
    strnlen16to8 w s = min ((strncpy16to8 s).length - 1) (2 ^ w - 2) ∧
      strndup16to8 w malloc s =
        if (strncpy16to8 s).length < 2 ^ w - 1 && malloc (strncpy16to8 s).length then
          some ((strncpy16to8 s).length, strncpy16to8 s)
        else none := by
  have hfour : 2 ^ 2 ≤ 2 ^ w := Nat.pow_le_pow_right (by decide) hw
  have hpos := length_strncpy16to8_pos s
  have hlen : strnlen16to8 w s = min ((strncpy16to8 s).length - 1) (2 ^ w - 2) := by
    rw [strnlen16to8]
    split_ifs with hfast
    · have hle := length_strncpy16to8_le s
      have : fastLength w s 0 + 1 = _ := fastLength_eq 0 (by omega)
      omega
    · rw [paranoidLength_eq hw (by omega), Nat.zero_add]
  refine ⟨hlen, ?_⟩
  rw [strndup16to8, hlen]
  by_cases hfit : (strncpy16to8 s).length < 2 ^ w - 1
  · have hmin : min ((strncpy16to8 s).length - 1) (2 ^ w - 2) + 1 = (strncpy16to8 s).length := by
      omega
    rw [hmin, if_neg (by omega), decide_eq_true hfit, Bool.true_and]
  · rw [if_pos (by omega), decide_eq_false hfit, Bool.false_and, if_neg Bool.false_ne_true]

theorem strndup16to8_fits_sample :
    strnlen16to8 3 [0x41, 0x41, 0x41, 0x41, 0] =
        min ((strncpy16to8 [0x41, 0x41, 0x41, 0x41, 0]).length - 1) (2 ^ 3 - 2) ∧
      strndup16to8 3 (fun _ => true) [0x41, 0x41, 0x41, 0x41, 0] =
        if (strncpy16to8 [0x41, 0x41, 0x41, 0x41, 0]).length < 2 ^ 3 - 1 && true then
          some ((strncpy16to8 [0x41, 0x41, 0x41, 0x41, 0]).length,
            strncpy16to8 [0x41, 0x41, 0x41, 0x41, 0])
        else none :=
  strndup16to8_fits (by decide) (fun _ => true) [0x41, 0x41, 0x41, 0x41, 0]

end Pro5Android.Radio
