import Pro5Android.Audio.Parameters
import Mathlib.Data.Nat.Digits.Defs

/-!
# The list of zoom ratios

`m86_find_zoom_index` (`camera_m86_module.cpp`, lines 2111–2129) reads the list of zoom ratios
of the legacy parameters with `strtol` and skips one comma behind each number. The elements of a
list can be told without the scan: a number is white space, a sign or none, and digits; the next
one follows behind a comma, or at once; and the list is over where no number stands in front.

Results:
* `strtol_of_spells`, `exists_spells`: what `strtol` reads is a number that no digit follows.
* `elements_iff`: the elements of a text are what the scan reads of it.
* `elements_of_splitOn`: the numbers between the commas of a text are its elements.
-/

namespace Pro5Android.Camera

open Audio (CString lit scanNumber isSpace digitValue)

/-! ## The scanner -/

/-- `strtol(text, &end, 10)` with a 32-bit `long`: the number and `end`; `none` where `end`
is the start. -/
def strtol (text : CString) : Option (ℤ × CString) :=
  (scanNumber 10 text).map fun (negative, n, rest) =>
    (max (-2 ^ 31) (min (2 ^ 31 - 1) (if negative then -n else n)), rest)

/-- `*end == ',' ? end + 1 : end`. -/
def skipComma : CString → CString
  | ',' :: rest => rest
  | text => text

theorem length_skipComma_le (text : CString) : (skipComma text).length ≤ text.length := by
  unfold skipComma
  split
  · exact Nat.le_succ _
  · exact le_rfl

theorem skipComma_of_ne {text : CString} (h : text.head? ≠ some ',') : skipComma text = text := by
  unfold skipComma
  split
  · exact absurd rfl h
  · rfl

/-! ## Numbers -/

/-- One or more decimal digits. -/
structure IsNumeral (digits : CString) : Prop where
  ne_nil : digits ≠ []
  isDigit : ∀ c ∈ digits, c.isDigit = true

/-- The value of a numeral. -/
def decimal (digits : CString) : ℕ :=
  Nat.ofDigits 10 (digits.reverse.map fun c => c.toNat - '0'.toNat)

/-- The number that a text stands for: white space, a sign or none, and digits. One that a
`long` cannot hold counts as the nearest one that it can. -/
inductive Spells : CString → ℤ → Prop
  | positive {spaces sign digits : CString} : (∀ c ∈ spaces, isSpace c = true) →
      sign = [] ∨ sign = ['+'] → IsNumeral digits →
      Spells (spaces ++ sign ++ digits) (min (2 ^ 31 - 1) (decimal digits))
  | negative {spaces digits : CString} : (∀ c ∈ spaces, isSpace c = true) → IsNumeral digits →
      Spells (spaces ++ ['-'] ++ digits) (max (-2 ^ 31) (-decimal digits))

/-- No digit stands in front of what is left. -/
def NoDigit (rest : CString) : Prop := ∀ c, rest.head? = some c → c.isDigit = false

theorem digitValue_lt_iff (c : Char) : digitValue c < 10 ↔ c.isDigit = true := by
  have hval : c.toNat = c.val.toNat := rfl
  unfold digitValue Char.isDigit
  simp only [Char.le_def, Bool.and_eq_true, decide_eq_true_eq, UInt32.le_iff_toNat_le, ge_iff_le]
  simp only [Char.reduceVal, UInt32.reduceToNat]
  split_ifs
  all_goals omega

theorem digitValue_of_isDigit {c : Char} (h : c.isDigit = true) :
    digitValue c = c.toNat - '0'.toNat := by
  have hrange : '0' ≤ c ∧ c ≤ '9' := by
    simpa [Char.isDigit, Char.le_def, and_comm] using h
  exact if_pos hrange

theorem foldl_digits {digits : CString} (h : ∀ c ∈ digits, c.isDigit = true) :
    digits.foldl (fun n c => n * 10 + digitValue c) 0 = decimal digits := by
  unfold decimal
  rw [List.foldl_eq_foldr_reverse, Nat.ofDigits_eq_foldr, List.foldr_map]
  refine List.foldr_ext _ _ _ fun c hc n => ?_
  rw [digitValue_of_isDigit (h c (List.mem_reverse.mp hc)), Nat.cast_id]
  omega

/-- A sign and what follows it. -/
def unsign : CString → Bool × CString
  | '-' :: rest => (true, rest)
  | '+' :: rest => (false, rest)
  | text => (false, text)

theorem unsign_of_ne {text : CString} (hminus : ∀ rest, text = '-' :: rest → False)
    (hplus : ∀ rest, text = '+' :: rest → False) : unsign text = (false, text) := by
  unfold unsign
  split
  · exact absurd rfl (hminus _)
  · exact absurd rfl (hplus _)
  · rfl

theorem scanNumber_ten (text : CString) : scanNumber 10 text =
    let (negative, text) := unsign (text.dropWhile isSpace)
    if text.takeWhile Char.isDigit = [] then none
    else some (negative, decimal (text.takeWhile Char.isDigit), text.dropWhile Char.isDigit) := by
  have hdigit : (fun c => decide (digitValue c < 10)) = Char.isDigit := by
    funext c
    rw [Bool.eq_iff_iff, decide_eq_true_iff]
    exact digitValue_lt_iff c
  have hdecimal (text : CString) : (text.takeWhile Char.isDigit).foldl
      (fun n c => n * 10 + digitValue c) 0 = decimal (text.takeWhile Char.isDigit) :=
    foldl_digits fun c hc => List.mem_takeWhile_imp hc
  unfold scanNumber
  dsimp only
  generalize text.dropWhile isSpace = unsigned
  split
  case h_4 =>
    simp only [hdigit, hdecimal]
    split
    · rfl
    · rfl
    · next hminus hplus => rw [unsign_of_ne hminus hplus]
  all_goals omega

/-- A numeral up to its end. -/
theorem takeWhile_numeral {digits rest : CString} (hdigits : IsNumeral digits)
    (hrest : NoDigit rest) :
    (digits ++ rest).takeWhile Char.isDigit = digits ∧
      (digits ++ rest).dropWhile Char.isDigit = rest := by
  rw [List.takeWhile_append_of_pos hdigits.isDigit, List.dropWhile_append_of_pos hdigits.isDigit]
  cases rest with
  | nil => exact ⟨List.append_nil _, rfl⟩
  | cons c rest =>
    have hc : ¬ c.isDigit = true := by
      rw [hrest c rfl]
      decide
    rw [List.takeWhile_cons_of_neg hc, List.dropWhile_cons_of_neg hc]
    exact ⟨List.append_nil _, rfl⟩

/-- White space up to what follows. -/
theorem dropWhile_spaces {spaces : CString} (hspaces : ∀ c ∈ spaces, isSpace c = true) {c : Char}
    (hc : isSpace c = false) (rest : CString) :
    (spaces ++ c :: rest).dropWhile isSpace = c :: rest := by
  rw [List.dropWhile_append_of_pos hspaces, List.dropWhile_cons_of_neg (by rw [hc]; decide)]

/-- A digit is neither white space nor a sign. -/
theorem of_isDigit {c : Char} (h : c.isDigit = true) : isSpace c = false ∧ c ≠ '-' ∧ c ≠ '+' := by
  have hrange : 48 ≤ c.toNat := by
    simp only [Char.isDigit, Bool.and_eq_true, decide_eq_true_eq, UInt32.le_iff_toNat_le, ge_iff_le]
      at h
    exact h.1
  refine ⟨?_, by rintro rfl; exact absurd hrange (by decide),
    by rintro rfl; exact absurd hrange (by decide)⟩
  unfold isSpace
  rw [Bool.or_eq_false_iff, beq_eq_false_iff_ne, Bool.and_eq_false_iff]
  refine ⟨by rintro rfl; exact absurd hrange (by decide), .inr ?_⟩
  rw [decide_eq_false_iff_not, Char.le_def, UInt32.le_iff_toNat_le]
  have hval : c.toNat = c.val.toNat := rfl
  have hreturn : '\r'.val.toNat = 13 := rfl
  omega

/-- What `strtol` leaves of a number with a sign, or of one without. -/
theorem unsign_numeral {spaces digits rest : CString} (hspaces : ∀ c ∈ spaces, isSpace c = true)
    (hdigits : IsNumeral digits) :
    unsign ((spaces ++ (digits ++ rest)).dropWhile isSpace) = (false, digits ++ rest) := by
  obtain ⟨d, ds, rfl⟩ := List.exists_cons_of_ne_nil hdigits.ne_nil
  obtain ⟨hspace, hminus, hplus⟩ := of_isDigit (hdigits.isDigit d List.mem_cons_self)
  rw [List.cons_append, dropWhile_spaces hspaces hspace]
  exact unsign_of_ne (fun rest h => hminus (List.cons.inj h).1)
    fun rest h => hplus (List.cons.inj h).1

/-- **What spells a number is read** up to what follows, where that is no digit. -/
theorem strtol_of_spells {piece rest : CString} {n : ℤ} (h : Spells piece n)
    (hrest : NoDigit rest) : strtol (piece ++ rest) = some (n, rest) := by
  have hscan (negative : Bool) {spaces sign digits : CString} (hdigits : IsNumeral digits)
      (hsign : unsign ((spaces ++ (sign ++ (digits ++ rest))).dropWhile isSpace) =
        (negative, digits ++ rest)) :
      scanNumber 10 (spaces ++ sign ++ digits ++ rest) = some (negative, decimal digits, rest) := by
    obtain ⟨htake, hdrop⟩ := takeWhile_numeral hdigits hrest
    rw [scanNumber_ten, List.append_assoc, List.append_assoc, hsign]
    dsimp only
    rw [htake, hdrop, if_neg hdigits.ne_nil]
  unfold strtol
  cases h with
  | positive hspaces hsign hdigits =>
    rw [hscan false hdigits]
    · simp only [Option.map_some, Bool.false_eq_true, if_false, Option.some.injEq, Prod.mk.injEq,
        and_true]
      omega
    · obtain rfl | rfl := hsign
      · rw [List.nil_append]
        exact unsign_numeral hspaces hdigits
      · rw [List.singleton_append, dropWhile_spaces hspaces (by decide)]
        rfl
  | negative hspaces hdigits =>
    rw [hscan true hdigits]
    · simp only [Option.map_some, if_true, Option.some.injEq, Prod.mk.injEq, and_true]
      omega
    · rw [List.singleton_append, dropWhile_spaces hspaces (by decide)]
      rfl

theorem noDigit_dropWhile (text : CString) : NoDigit (text.dropWhile Char.isDigit) := by
  intro c hc
  have hhead := List.head?_dropWhile_not Char.isDigit text
  rw [hc] at hhead
  exact hhead

/-- **What is read spells a number**, and no digit follows. -/
theorem exists_spells {text rest : CString} {n : ℤ} (h : strtol text = some (n, rest)) :
    ∃ piece, text = piece ++ rest ∧ piece ≠ [] ∧ Spells piece n ∧ NoDigit rest := by
  obtain ⟨⟨negative, value, rest'⟩, hscan, heq⟩ := Option.map_eq_some_iff.mp h
  obtain ⟨rfl, rfl⟩ := Prod.mk.inj heq
  have hspaces : ∀ c ∈ text.takeWhile isSpace, isSpace c = true :=
    fun c hc => List.mem_takeWhile_imp hc
  have htext : text = text.takeWhile isSpace ++ text.dropWhile isSpace :=
    List.takeWhile_append_dropWhile.symm
  rw [scanNumber_ten] at hscan
  generalize text.takeWhile isSpace = spaces at hspaces htext
  generalize text.dropWhile isSpace = signed at hscan htext
  obtain ⟨sign, unsigned, hsigned, hsign⟩ : ∃ sign unsigned, signed = sign ++ unsigned ∧
      (unsign signed = (false, unsigned) ∧ (sign = [] ∨ sign = ['+']) ∨
        unsign signed = (true, unsigned) ∧ sign = ['-']) := by
    unfold unsign
    split
    · exact ⟨['-'], _, rfl, .inr ⟨rfl, rfl⟩⟩
    · exact ⟨['+'], _, rfl, .inl ⟨rfl, .inr rfl⟩⟩
    · exact ⟨[], _, rfl, .inl ⟨rfl, .inl rfl⟩⟩
  have hdigits (hne : unsigned.takeWhile Char.isDigit ≠ []) :
      IsNumeral (unsigned.takeWhile Char.isDigit) :=
    ⟨hne, fun c hc => List.mem_takeWhile_imp hc⟩
  have hsplit : text = spaces ++ sign ++ unsigned.takeWhile Char.isDigit ++
      unsigned.dropWhile Char.isDigit := by
    rw [List.append_assoc, List.takeWhile_append_dropWhile, List.append_assoc, ← hsigned, ← htext]
  obtain ⟨hunsign, hsign⟩ | ⟨hunsign, rfl⟩ := hsign
  all_goals
    rw [hunsign] at hscan
    dsimp only at hscan
    split_ifs at hscan with hne
    obtain ⟨rfl, hvalue⟩ := Prod.mk.inj (Option.some.inj hscan)
    obtain ⟨rfl, rfl⟩ := Prod.mk.inj hvalue
    refine ⟨_, hsplit, List.append_ne_nil_of_right_ne_nil _ hne, ?_, noDigit_dropWhile unsigned⟩
  · have hvalue : max (-2 ^ 31) (min (2 ^ 31 - 1) (decimal (unsigned.takeWhile Char.isDigit) : ℤ)) =
        min (2 ^ 31 - 1) (decimal (unsigned.takeWhile Char.isDigit) : ℤ) := by omega
    rw [if_neg (by decide), hvalue]
    exact .positive hspaces hsign (hdigits hne)
  · have hvalue : max (-2 ^ 31) (min (2 ^ 31 - 1) (-(decimal (unsigned.takeWhile Char.isDigit) : ℤ))) =
        max (-2 ^ 31) (-(decimal (unsigned.takeWhile Char.isDigit) : ℤ)) := by omega
    rw [if_pos rfl, hvalue]
    exact .negative hspaces (hdigits hne)

/-- What is read shortens the text. -/
theorem length_lt_of_strtol {text rest : CString} {n : ℤ} (h : strtol text = some (n, rest)) :
    rest.length < text.length := by
  obtain ⟨piece, rfl, hne, -⟩ := exists_spells h
  have hpos := List.length_pos_iff.mpr hne
  rw [List.length_append]
  omega

/-- More digits still spell a number. -/
theorem Spells.extend {piece digits : CString} {n : ℤ} (h : Spells piece n)
    (hdigits : ∀ c ∈ digits, c.isDigit = true) : ∃ n, Spells (piece ++ digits) n := by
  have hnumeral {first : CString} (hfirst : IsNumeral first) : IsNumeral (first ++ digits) :=
    ⟨List.append_ne_nil_of_left_ne_nil hfirst.ne_nil _,
      fun c hc => (List.mem_append.mp hc).elim (hfirst.isDigit c) (hdigits c)⟩
  cases h with
  | positive hspaces hsign hfirst =>
    rw [List.append_assoc]
    exact ⟨_, .positive hspaces hsign (hnumeral hfirst)⟩
  | negative hspaces hfirst =>
    rw [List.append_assoc]
    exact ⟨_, .negative hspaces (hnumeral hfirst)⟩

/-- Where nothing is read, no number stands in front. -/
theorem not_spells_of_none {piece rest : CString} {n : ℤ} (h : strtol (piece ++ rest) = none) :
    ¬ Spells piece n := by
  intro hspells
  have hdigits : ∀ c ∈ rest.takeWhile Char.isDigit, c.isDigit = true :=
    fun c hc => List.mem_takeWhile_imp hc
  obtain ⟨n', hn'⟩ := hspells.extend hdigits
  have hread := strtol_of_spells hn' (noDigit_dropWhile rest)
  rw [List.append_assoc, List.takeWhile_append_dropWhile, h] at hread
  cases hread

/-! ## Elements -/

/-- The elements of a list of numbers: each behind a comma or, where something else than a
comma or a digit follows, at once behind the one before; none where no number stands in
front. -/
inductive Elements : CString → List ℤ → Prop
  | done {text : CString} : (∀ piece rest n, text = piece ++ rest → ¬ Spells piece n) →
      Elements text []
  | comma {piece rest : CString} {n : ℤ} {ns : List ℤ} : Spells piece n → Elements rest ns →
      Elements (piece ++ ',' :: rest) (n :: ns)
  | adjacent {piece rest : CString} {n : ℤ} {ns : List ℤ} : Spells piece n → NoDigit rest →
      rest.head? ≠ some ',' → Elements rest ns → Elements (piece ++ rest) (n :: ns)

/-- The numbers that the scan reads of a list. -/
def readable (cursor : CString) : List ℤ :=
  if cursor = [] then []
  else
    match _h : strtol cursor with
    | none => []
    | some (parsed, rest) => parsed :: readable (skipComma rest)
termination_by cursor.length
decreasing_by
  exact Nat.lt_of_le_of_lt (length_skipComma_le rest) (length_lt_of_strtol (by assumption))

theorem strtol_nil : strtol [] = none := rfl

theorem readable_of_none {cursor : CString} (h : strtol cursor = none) : readable cursor = [] := by
  rw [readable]
  split_ifs
  · rfl
  · split
    · rfl
    · next heq => exact absurd (heq.symm.trans h) (Option.some_ne_none _)

theorem readable_of_some {cursor rest : CString} {parsed : ℤ}
    (h : strtol cursor = some (parsed, rest)) :
    readable cursor = parsed :: readable (skipComma rest) := by
  have hne : cursor ≠ [] := by
    rintro rfl
    cases h
  rw [readable, if_neg hne]
  split
  · next heq => exact absurd (h.symm.trans heq) (Option.some_ne_none _)
  · next heq =>
    obtain ⟨rfl, rfl⟩ := Prod.mk.inj (Option.some.inj (heq.symm.trans h))
    rfl

/-- The scan reads elements, by induction on the length of the text. -/
theorem elements_readable (n : ℕ) :
    ∀ text : CString, text.length < n → Elements text (readable text) := by
  induction n with
  | zero => exact fun text h => absurd h (Nat.not_lt_zero _)
  | succ n ih =>
    intro text hn
    cases hread : strtol text with
    | none =>
      rw [readable_of_none hread]
      refine .done fun piece rest m htext => ?_
      subst htext
      exact not_spells_of_none hread
    | some element =>
      obtain ⟨parsed, rest⟩ := element
      have hshort := length_lt_of_strtol hread
      have hskip := length_skipComma_le rest
      have hrest := ih (skipComma rest) (by omega)
      rw [readable_of_some hread]
      obtain ⟨piece, rfl, -, hspells, hdigit⟩ := exists_spells hread
      by_cases hcomma : rest.head? = some ','
      · obtain ⟨rest', rfl⟩ := List.head?_eq_some_iff.mp hcomma
        exact .comma hspells hrest
      · rw [skipComma_of_ne hcomma] at hrest ⊢
        exact .adjacent hspells hdigit hcomma hrest

/-- **The elements of a text** are the numbers that the scan reads of it. -/
theorem elements_iff (text : CString) (ns : List ℤ) : Elements text ns ↔ ns = readable text := by
  constructor
  · intro h
    induction h with
    | done hnone =>
      rename_i text
      cases hread : strtol text with
      | none => rw [readable_of_none hread]
      | some element =>
        obtain ⟨piece, htext, -, hspells, -⟩ := exists_spells hread
        exact absurd hspells (hnone piece _ _ htext)
    | comma hspells _ ih =>
      rw [ih, readable_of_some (strtol_of_spells hspells fun c hc => by
        obtain rfl := Option.some.inj hc
        rfl)]
      rfl
    | adjacent hspells hdigit hcomma _ ih =>
      rw [ih, readable_of_some (strtol_of_spells hspells hdigit), skipComma_of_ne hcomma]
  · rintro rfl
    exact elements_readable _ text (Nat.lt_succ_self _)

/-- **The numbers between the commas** of a text are its elements. -/
theorem elements_of_splitOn {text : CString} {ns : List ℤ}
    (h : List.Forall₂ Spells (text.splitOn ',') ns) : Elements text ns := by
  have hjoin : [','].intercalate (text.splitOn ',') = text := List.intercalate_splitOn ','
  rw [← hjoin]
  generalize text.splitOn ',' = pieces at h
  have hnil : Elements [] [] := (elements_iff [] []).mpr (readable_of_none strtol_nil).symm
  induction h with
  | nil => exact hnil
  | cons hspells hpieces ih =>
    cases hpieces with
    | nil =>
      rw [List.intercalate_singleton]
      have hdigit : NoDigit [] := fun c hc => by cases hc
      have hlast := Elements.adjacent hspells hdigit (by decide) hnil
      rwa [List.append_nil] at hlast
    | cons hnext hpieces =>
      rw [List.intercalate_cons_cons, List.append_assoc, List.singleton_append]
      exact .comma hspells ih

end Pro5Android.Camera
