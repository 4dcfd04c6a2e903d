import Pro5Android.Python.Bytes

/-!
# Hexadecimal integers in Python

`int16` is `int(text, 16)` on a `bytes` object (CPython's
`PyLong_FromString`): white space around the number, a sign, a `0x` prefix
and single underscores between digits are all accepted. `format08x` is
`format(value, "08x")` (or `"08X"`): the digits of the absolute value, with
zeros after the sign up to a total width of 8, and more than 8 characters
when the value needs them.

Results:
* `int16_format08x`: reading what was printed gives the value back, for every
  integer.
* `length_format08x`, `length_format08x_eq_iff`: a printed value has at least
  8 characters, and exactly 8 iff it lies in `(-16^7, 16^8)`.
* `int16_bounds`: a text of at most 8 bytes reads as a value in that range.
* `int16_take_format08x`: the first 8 characters of a wider positive value
  read as a smaller one.
* `isHex_format08x_iff`: only negative values print a character that is
  not a hexadecimal digit.
-/

namespace Pro5Android.Python

/-! ## `int(text, 16)` -/

/-- The characters `Py_ISSPACE` accepts: blank, `\t`, `\n`, `\v`, `\f`, `\r`. -/
def isSpace (b : Byte) : Bool := b == 32 || (9 ≤ b && b ≤ 13)

/-- The value of a hexadecimal digit of either case. -/
def hexVal? (b : Byte) : Option ℕ :=
  if 48 ≤ b ∧ b ≤ 57 then some (b.toNat - 48)
  else if 65 ≤ b ∧ b ≤ 70 then some (b.toNat - 55)
  else if 97 ≤ b ∧ b ≤ 102 then some (b.toNat - 87)
  else none

/-- The digit loop of `long_from_binary_base`: digits, with single
    underscores (`95`) between them, up to the first other character. Returns
    the value and the rest; `none` is a doubled or trailing underscore. -/
def scanDigits : Bytes → Bool → ℕ → Option (ℕ × Bytes)
  | [], prevUnderscore, acc => if prevUnderscore then none else some (acc, [])
  | b :: rest, prevUnderscore, acc =>
    if b = 95 then if prevUnderscore then none else scanDigits rest true acc
    else match hexVal? b with
      | some d => scanDigits rest false (16 * acc + d)
      | none => if prevUnderscore then none else some (acc, b :: rest)

/-- An optional sign: `(is negative, rest)`. -/
def scanSign : Bytes → Bool × Bytes
  | [] => (false, [])
  | b :: rest => if b = 43 then (false, rest) else if b = 45 then (true, rest) else (false, b :: rest)

/-- An optional `0x` or `0X`, with one underscore allowed after it. -/
def scanPrefix : Bytes → Bytes
  | 48 :: x :: rest =>
    if x = 120 ∨ x = 88 then
      match rest with
      | 95 :: rest' => rest'
      | _ => rest
    else 48 :: x :: rest
  | s => s

/-- `int(text, 16)`; `none` is `ValueError`. The first character after sign
    and prefix has to be a digit, and only white space may follow the last. -/
def int16 (text : Bytes) : Option ℤ :=
  let (negative, signed) := scanSign (text.dropWhile isSpace)
  let digits := scanPrefix signed
  if (digits.head?.bind hexVal?).isNone then none
  else match scanDigits digits false 0 with
    | none => none
    | some (n, rest) =>
      if rest.all isSpace then some (if negative then -(n : ℤ) else n) else none

/-! ## `format(value, "08x")` -/

/-- The digit `d < 16` in lower or upper case. -/
def hexChar (upper : Bool) (d : ℕ) : Byte :=
  if d < 10 then (48 + d).toUInt8 else ((if upper then 55 else 87) + d).toUInt8

/-- `value` in base 16 without leading zeros. -/
def hexDigits (upper : Bool) (n : ℕ) : Bytes := (Nat.digits 16 n).reverse.map (hexChar upper)

/-- Padding with zeros on the left up to `width` characters. -/
def zfill (width : ℕ) (s : Bytes) : Bytes := List.replicate (width - s.length) 48 ++ s

/-- `format(value, "08X" if upper else "08x")`. -/
def format08x (upper : Bool) (value : ℤ) : Bytes :=
  if value < 0 then 45 :: zfill 7 (hexDigits upper value.natAbs)
  else zfill 8 (hexDigits upper value.natAbs)

example : format08x false (-1) = ascii "-0000001" := by decide
example : format08x true 0xABCDEF012 = ascii "ABCDEF012" := by decide
example : int16 (ascii " 0x_1_f ") = some 31 := by decide

/-! ## Strings of digits -/

/-- Every byte of `s` is a hexadecimal digit. -/
def IsHex (s : Bytes) : Prop := ∀ b ∈ s, (hexVal? b).isSome

instance (s : Bytes) : Decidable (IsHex s) := inferInstanceAs (Decidable (∀ b ∈ s, _))

/-- The value of the digits of `s`, most significant first, after `acc`. -/
def hexValueFrom (acc : ℕ) (s : Bytes) : ℕ :=
  s.foldl (fun acc b => 16 * acc + (hexVal? b).getD 0) acc

/-- The value of a string of digits. -/
def hexValue (s : Bytes) : ℕ := hexValueFrom 0 s

theorem hexVal?_hexChar (upper : Bool) {d : ℕ} (hd : d < 16) :
    hexVal? (hexChar upper d) = some d := by
  interval_cases d <;> cases upper <;> decide

theorem hexVal?_lt {b : Byte} {d : ℕ} (h : hexVal? b = some d) : d < 16 := by
  unfold hexVal? at h
  simp only [UInt8.le_iff_toNat_le] at h
  split_ifs at h with h1 h2 h3 <;> cases h <;> simp at * <;> omega

/-- A character with a digit value is none of the other characters of the
    grammar. -/
theorem hexVal?_ne {b : Byte} {d : ℕ} (h : hexVal? b = some d) :
    b ≠ 43 ∧ b ≠ 45 ∧ b ≠ 95 ∧ b ≠ 120 ∧ b ≠ 88 ∧ isSpace b = false := by
  refine ⟨?_, ?_, ?_, ?_, ?_, ?_⟩
  any_goals rintro rfl; simp [hexVal?] at h
  by_contra hsp
  simp only [isSpace, Bool.not_eq_false, Bool.or_eq_true, beq_iff_eq, Bool.and_eq_true,
    decide_eq_true_eq, UInt8.le_iff_toNat_le] at hsp
  unfold hexVal? at h
  simp only [UInt8.le_iff_toNat_le] at h
  rcases hsp with rfl | hsp
  · simp at h
  · split_ifs at h with h1 h2 h3 <;> simp at * <;> omega

theorem IsHex.cons {b : Byte} {s : Bytes} (h : IsHex (b :: s)) :
    (∃ d, hexVal? b = some d) ∧ IsHex s :=
  ⟨Option.isSome_iff_exists.mp (h b (by simp)), fun c hc => h c (by simp [hc])⟩

theorem IsHex.append {s t : Bytes} (hs : IsHex s) (ht : IsHex t) : IsHex (s ++ t) := by
  intro b hb
  rcases List.mem_append.mp hb with h | h
  · exact hs b h
  · exact ht b h

theorem isHex_map_hexChar (upper : Bool) {ds : List ℕ} (h : ∀ d ∈ ds, d < 16) :
    IsHex (ds.map (hexChar upper)) := by
  intro b hb
  obtain ⟨d, hd, rfl⟩ := List.mem_map.mp hb
  rw [hexVal?_hexChar upper (h d hd)]
  rfl

theorem IsHex.not_mem_minus {s : Bytes} (h : IsHex s) : 45 ∉ s := fun hm => by
  obtain ⟨d, hd⟩ := Option.isSome_iff_exists.mp (h 45 hm)
  exact (hexVal?_ne hd).2.1 rfl

theorem hexValueFrom_cons {b : Byte} {d : ℕ} (h : hexVal? b = some d) (acc : ℕ) (s : Bytes) :
    hexValueFrom acc (b :: s) = hexValueFrom (16 * acc + d) s := by
  simp [hexValueFrom, h]

theorem hexValueFrom_append (acc : ℕ) (s t : Bytes) :
    hexValueFrom acc (s ++ t) = hexValueFrom (hexValueFrom acc s) t :=
  List.foldl_append

/-- Appending digits multiplies the value read so far. -/
theorem le_hexValueFrom (s : Bytes) : ∀ acc, acc * 16 ^ s.length ≤ hexValueFrom acc s := by
  induction s with
  | nil => intro acc; simp [hexValueFrom]
  | cons b s ih =>
    intro acc
    calc acc * 16 ^ (b :: s).length = 16 * acc * 16 ^ s.length := by
          rw [List.length_cons, pow_succ]; ring
      _ ≤ (16 * acc + (hexVal? b).getD 0) * 16 ^ s.length :=
          Nat.mul_le_mul_right _ (Nat.le_add_right _ _)
      _ ≤ hexValueFrom acc (b :: s) := ih _

theorem hexValueFrom_map (upper : Bool) (ds : List ℕ) : ∀ acc, (∀ d ∈ ds, d < 16) →
    hexValueFrom acc (ds.map (hexChar upper)) =
      acc * 16 ^ ds.length + Nat.ofDigits 16 ds.reverse := by
  induction ds with
  | nil => intro acc _; simp [hexValueFrom]
  | cons d ds ih =>
    intro acc h
    rw [List.map_cons, hexValueFrom_cons (hexVal?_hexChar upper (h d (by simp))),
      ih _ (fun e he => h e (by simp [he])), List.reverse_cons, Nat.ofDigits_append,
      List.length_cons, List.length_reverse, Nat.ofDigits_singleton]
    ring

/-! ## Reading digits -/

theorem scanDigits_append {s : Bytes} (rest : Bytes) : ∀ acc, IsHex s →
    scanDigits (s ++ rest) false acc = scanDigits rest false (hexValueFrom acc s) := by
  induction s with
  | nil => intro acc _; rfl
  | cons b s ih =>
    intro acc hs
    obtain ⟨⟨d, hd⟩, hs⟩ := hs.cons
    rw [List.cons_append, scanDigits, if_neg (hexVal?_ne hd).2.2.1, hd,
      hexValueFrom_cons hd]
    exact ih _ hs

theorem scanPrefix_eq {s : Bytes} (hs : IsHex s) : scanPrefix s = s := by
  unfold scanPrefix
  split
  · rename_i x rest
    obtain ⟨d, hd⟩ := hs.cons.2.cons.1
    rw [if_neg]
    rintro (rfl | rfl)
    · exact (hexVal?_ne hd).2.2.2.1 rfl
    · exact (hexVal?_ne hd).2.2.2.2.1 rfl
  · rfl

/-- What `int16` computes once the sign has been read. -/
def int16Unsigned (negative : Bool) (signed : Bytes) : Option ℤ :=
  let digits := scanPrefix signed
  if (digits.head?.bind hexVal?).isNone then none
  else match scanDigits digits false 0 with
    | none => none
    | some (n, rest) =>
      if rest.all isSpace then some (if negative then -(n : ℤ) else n) else none

theorem int16_eq (text : Bytes) :
    int16 text = int16Unsigned (scanSign (text.dropWhile isSpace)).1
      (scanSign (text.dropWhile isSpace)).2 := rfl

theorem int16Unsigned_hex {s : Bytes} (hs : IsHex s) (hne : s ≠ []) (negative : Bool) :
    int16Unsigned negative s = some (if negative then -(hexValue s : ℤ) else hexValue s) := by
  obtain ⟨b, t, rfl⟩ := List.exists_cons_of_ne_nil hne
  obtain ⟨d, hd⟩ := hs.cons.1
  have hscan := scanDigits_append [] 0 hs
  rw [List.append_nil] at hscan
  simp only [int16Unsigned, scanPrefix_eq hs, List.head?_cons, Option.bind_some, hd, hscan]
  simp [scanDigits, hexValue]

theorem dropWhile_isSpace_cons {b : Byte} {s : Bytes} (h : isSpace b = false) :
    (b :: s).dropWhile isSpace = b :: s := by
  rw [List.dropWhile_cons, if_neg (by simp [h])]

/-- A nonempty string of digits reads as its value. -/
theorem int16_hex {s : Bytes} (hs : IsHex s) (hne : s ≠ []) : int16 s = some (hexValue s : ℤ) := by
  obtain ⟨b, t, rfl⟩ := List.exists_cons_of_ne_nil hne
  obtain ⟨d, hd⟩ := hs.cons.1
  obtain ⟨hplus, hminus, -, -, -, hsp⟩ := hexVal?_ne hd
  rw [int16_eq, dropWhile_isSpace_cons hsp, scanSign, if_neg hplus, if_neg hminus]
  simpa using int16Unsigned_hex hs hne false

theorem int16_minus_hex {s : Bytes} (hs : IsHex s) (hne : s ≠ []) :
    int16 (45 :: s) = some (-(hexValue s : ℤ)) := by
  rw [int16_eq, dropWhile_isSpace_cons (by decide), scanSign, if_neg (by decide), if_pos rfl]
  simpa using int16Unsigned_hex hs hne true

/-! ## Printing -/

/-- The digits of `n` with zeros on the left up to `width` digits. -/
def padDigits (width n : ℕ) : List ℕ :=
  List.replicate (width - (Nat.digits 16 n).length) 0 ++ (Nat.digits 16 n).reverse

theorem zfill_hexDigits (upper : Bool) (width n : ℕ) :
    zfill width (hexDigits upper n) = (padDigits width n).map (hexChar upper) := by
  have h0 : hexChar upper 0 = 48 := by cases upper <;> decide
  simp [zfill, hexDigits, padDigits, h0]

theorem padDigits_lt {width n d : ℕ} (h : d ∈ padDigits width n) : d < 16 := by
  rcases List.mem_append.mp h with h | h
  · rw [(List.mem_replicate.mp h).2]; norm_num
  · exact Nat.digits_lt_base (by norm_num) (List.mem_reverse.mp h)

theorem length_padDigits (width n : ℕ) :
    (padDigits width n).length = max width (Nat.digits 16 n).length := by
  simp [padDigits]; omega

theorem ofDigits_padDigits (width n : ℕ) : Nat.ofDigits 16 (padDigits width n).reverse = n := by
  rw [padDigits, List.reverse_append, List.reverse_reverse, List.reverse_replicate,
    Nat.ofDigits_append_replicate_zero, Nat.ofDigits_digits]

theorem isHex_zfill (upper : Bool) (width n : ℕ) : IsHex (zfill width (hexDigits upper n)) := by
  rw [zfill_hexDigits]
  exact isHex_map_hexChar upper fun d hd => padDigits_lt hd

theorem hexValue_zfill (upper : Bool) (width n : ℕ) :
    hexValue (zfill width (hexDigits upper n)) = n := by
  rw [zfill_hexDigits, hexValue, hexValueFrom_map upper _ _ fun d hd => padDigits_lt hd,
    ofDigits_padDigits]
  simp

theorem length_zfill (upper : Bool) (width n : ℕ) :
    (zfill width (hexDigits upper n)).length = max width (Nat.digits 16 n).length := by
  rw [zfill_hexDigits, List.length_map, length_padDigits]

theorem zfill_ne_nil (upper : Bool) {width : ℕ} (n : ℕ) (hw : 0 < width) :
    zfill width (hexDigits upper n) ≠ [] := by
  rw [← List.length_pos_iff, length_zfill]
  omega

/-- **Round trip of one number.** Reading back a printed value gives the
    value, whatever its size and sign. -/
theorem int16_format08x (upper : Bool) (value : ℤ) :
    int16 (format08x upper value) = some value := by
  unfold format08x
  split_ifs with h
  · rw [int16_minus_hex (isHex_zfill _ _ _) (zfill_ne_nil _ _ (by norm_num)), hexValue_zfill]
    congr 1; omega
  · rw [int16_hex (isHex_zfill _ _ _) (zfill_ne_nil _ _ (by norm_num)), hexValue_zfill]
    congr 1; omega

/-- The values whose printed form has exactly 8 characters. -/
def Fits08x (value : ℤ) : Prop := -16 ^ 7 < value ∧ value < 16 ^ 8

instance (value : ℤ) : Decidable (Fits08x value) := inferInstanceAs (Decidable (_ ∧ _))

theorem length_format08x (upper : Bool) (value : ℤ) : 8 ≤ (format08x upper value).length := by
  unfold format08x
  split_ifs
  · rw [List.length_cons, length_zfill]; omega
  · rw [length_zfill]; omega

theorem length_format08x_eq_iff (upper : Bool) (value : ℤ) :
    (format08x upper value).length = 8 ↔ Fits08x value := by
  have hdigits := fun k => Nat.digits_length_le_iff (b := 16) (k := k) (by norm_num) value.natAbs
  unfold format08x Fits08x
  split_ifs with h
  · rw [List.length_cons, length_zfill]
    have := hdigits 7
    omega
  · rw [length_zfill]
    have := hdigits 8
    omega

/-- The bytes of a printed field: the sign, or digits of the chosen case. -/
theorem mem_format08x {upper : Bool} {value : ℤ} {b : Byte} (h : b ∈ format08x upper value) :
    b = 45 ∨ ∃ d < 16, b = hexChar upper d := by
  have hdigit : ∀ width, b ∈ zfill width (hexDigits upper value.natAbs) →
      ∃ d < 16, b = hexChar upper d := fun width hb => by
    rw [zfill_hexDigits] at hb
    obtain ⟨d, hd, rfl⟩ := List.mem_map.mp hb
    exact ⟨d, padDigits_lt hd, rfl⟩
  unfold format08x at h
  split_ifs at h
  · rcases List.mem_cons.mp h with rfl | h
    · exact .inl rfl
    · exact .inr (hdigit 7 h)
  · exact .inr (hdigit 8 h)

/-- Only negative values print something else than digits. -/
theorem isHex_format08x_iff (upper : Bool) (value : ℤ) :
    IsHex (format08x upper value) ↔ 0 ≤ value := by
  unfold format08x
  split_ifs with h
  · refine ⟨fun hx => absurd (List.mem_cons_self ..) hx.not_mem_minus, fun h' => by omega⟩
  · exact ⟨fun _ => by omega, fun _ => isHex_zfill _ _ _⟩

theorem minus_mem_format08x_iff (upper : Bool) (value : ℤ) :
    45 ∈ format08x upper value ↔ value < 0 := by
  refine ⟨fun h => ?_, fun h => ?_⟩
  · by_contra hneg
    exact ((isHex_format08x_iff upper value).mpr (by omega)).not_mem_minus h
  · rw [format08x, if_pos h]
    exact List.mem_cons_self

theorem hexValue_format08x (upper : Bool) (n : ℕ) : hexValue (format08x upper n) = n := by
  rw [format08x, if_neg (by omega), hexValue_zfill, Int.natAbs_natCast]

/-- A positive value wider than 8 digits: its first 8 characters read as a
    smaller value. -/
theorem int16_take_format08x (upper : Bool) {value : ℤ} (h : 16 ^ 8 ≤ value) :
    ∃ v, int16 ((format08x upper value).take 8) = some v ∧ 0 ≤ v ∧ v < value := by
  have hlen : 8 < (Nat.digits 16 value.natAbs).length := by
    have := Nat.digits_length_le_iff (b := 16) (k := 8) (by norm_num) value.natAbs
    omega
  rw [format08x, if_neg (by omega)]
  set s := zfill 8 (hexDigits upper value.natAbs) with hs
  have hslen : 8 < s.length := by rw [hs, length_zfill]; omega
  have hhex : IsHex s := isHex_zfill _ _ _
  have hvalue : hexValueFrom (hexValue (s.take 8)) (s.drop 8) = value.natAbs := by
    rw [hexValue, ← hexValueFrom_append, List.take_append_drop]
    exact hexValue_zfill _ _ _
  have hle := le_hexValueFrom (s.drop 8) (hexValue (s.take 8))
  have hpow : 16 ^ 1 ≤ 16 ^ (s.drop 8).length :=
    Nat.pow_le_pow_right (by norm_num) (by rw [List.length_drop]; omega)
  have hmul := Nat.mul_le_mul_left (hexValue (s.take 8)) hpow
  refine ⟨_, int16_hex (fun b hb => hhex b (List.mem_of_mem_take hb)) ?_, by omega, by omega⟩
  rw [← List.length_pos_iff, List.length_take]
  omega

/-! ## Bounds on what is read -/

theorem scanDigits_lt {s rest : Bytes} {n : ℕ} : ∀ {prevUnderscore : Bool} {acc : ℕ},
    scanDigits s prevUnderscore acc = some (n, rest) → n < (acc + 1) * 16 ^ s.length := by
  induction s with
  | nil =>
    intro p acc h
    cases p <;> simp [scanDigits] at h
    simp [h.1]
  | cons b s ih =>
    intro p acc h
    have hpow : 0 < 16 ^ s.length := by positivity
    rw [scanDigits] at h
    rw [List.length_cons, pow_succ']
    by_cases hb : b = 95
    · rw [if_pos hb] at h
      cases p <;> simp only [Bool.false_eq_true, if_false, if_true, reduceCtorEq] at h
      calc n < (acc + 1) * 16 ^ s.length := ih h
        _ ≤ (acc + 1) * (16 * 16 ^ s.length) := Nat.mul_le_mul_left _ (by omega)
    · rw [if_neg hb] at h
      cases hd : hexVal? b with
      | none =>
        rw [hd] at h
        cases p <;> simp at h
        calc n < (acc + 1) * 1 := by omega
          _ ≤ (acc + 1) * (16 * 16 ^ s.length) := Nat.mul_le_mul_left _ (by omega)
      | some d =>
        rw [hd] at h
        have hlt := hexVal?_lt hd
        calc n < (16 * acc + d + 1) * 16 ^ s.length := ih h
          _ ≤ ((acc + 1) * 16) * 16 ^ s.length := Nat.mul_le_mul_right _ (by omega)
          _ = (acc + 1) * (16 * 16 ^ s.length) := by ring

theorem length_scanPrefix_le (s : Bytes) : (scanPrefix s).length ≤ s.length := by
  unfold scanPrefix
  split
  · split_ifs
    · split <;> simp <;> omega
    · exact le_rfl
  · exact le_rfl

theorem int16Unsigned_lt {negative : Bool} {s : Bytes} {v : ℤ}
    (h : int16Unsigned negative s = some v) :
    ∃ n : ℕ, n < 16 ^ s.length ∧ v = if negative then -(n : ℤ) else n := by
  unfold int16Unsigned at h
  dsimp only at h
  by_cases hne : ((scanPrefix s).head?.bind hexVal?).isNone
  · rw [if_pos hne] at h; cases h
  rw [if_neg hne] at h
  cases hscan : scanDigits (scanPrefix s) false 0 with
  | none => rw [hscan] at h; cases h
  | some r =>
    obtain ⟨n, rest⟩ := r
    rw [hscan] at h
    dsimp only at h
    by_cases hsp : rest.all isSpace
    · rw [if_pos hsp] at h
      refine ⟨n, ?_, (Option.some.inj h).symm⟩
      calc n < (0 + 1) * 16 ^ (scanPrefix s).length := scanDigits_lt hscan
        _ ≤ 16 ^ s.length := by
          rw [zero_add, one_mul]
          exact Nat.pow_le_pow_right (by norm_num) (length_scanPrefix_le s)
    · rw [if_neg hsp] at h; cases h

theorem length_dropWhile_isSpace_le (text : Bytes) :
    (text.dropWhile isSpace).length ≤ text.length :=
  (List.dropWhile_sublist _).length_le

/-- A text of at most 8 bytes reads as a value that prints in 8 characters. -/
theorem int16_bounds {text : Bytes} {v : ℤ} (hlen : text.length ≤ 8) (h : int16 text = some v) :
    Fits08x v := by
  rw [int16_eq] at h
  have hdrop := length_dropWhile_isSpace_le text
  obtain ⟨n, hn, rfl⟩ := int16Unsigned_lt h
  revert hn
  cases htext : text.dropWhile isSpace with
  | nil => simp [scanSign, Fits08x]; omega
  | cons b rest =>
    rw [htext, List.length_cons] at hdrop
    have h7 : 16 ^ rest.length ≤ 16 ^ 7 := Nat.pow_le_pow_right (by norm_num) (by omega)
    have h8 : 16 ^ (b :: rest).length ≤ 16 ^ 8 :=
      Nat.pow_le_pow_right (by norm_num) (by rw [List.length_cons]; omega)
    intro hn
    by_cases hplus : b = 43
    · simp only [scanSign, if_pos hplus] at hn ⊢
      simp only [Fits08x, Bool.false_eq_true, if_false]
      omega
    · by_cases hminus : b = 45
      · simp only [scanSign, if_neg hplus, if_pos hminus] at hn ⊢
        simp only [Fits08x, if_true]
        omega
      · simp only [scanSign, if_neg hplus, if_neg hminus] at hn ⊢
        simp only [Fits08x, Bool.false_eq_true, if_false]
        omega

end Pro5Android.Python
