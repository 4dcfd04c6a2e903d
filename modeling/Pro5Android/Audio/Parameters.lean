import Mathlib.Data.BitVec
import Mathlib.Data.List.TakeWhile
import Mathlib.Tactic.Ring

/-!
# Parameter strings

The C strings of `hardware/meizu/m86/audio/audio_primary_m86.cpp`: key and value
pairs between separators `;` and `,`, as `m86_find_parameter` and
`m86_replace_parameter` (lines 168–239) read and rewrite them, and the numbers
that `strtoul` and `strtol` read.

Results:
* `findLoop_eq`: the value of the first token with the key.
* `tokens_replaceParameter`: every token with the key is replaced, and the others
  are kept.
-/

namespace Pro5Android.Audio

/-- A C string, without its terminator. -/
abbrev CString := List Char

/-- The text of a string literal. -/
abbrev lit (s : String) : CString := s.toList

/-- `;` or `,`. -/
def isSeparator (c : Char) : Bool := c == ';' || c == ','

/-- What both loops skip before a token. -/
def isSkipped (c : Char) : Bool := isSeparator c || c == ' '

/-- A text without separators. -/
def Unseparated (text : CString) : Prop := ∀ c ∈ text, isSeparator c = false

instance (text : CString) : Decidable (Unseparated text) :=
  List.decidableBAll (fun c => isSeparator c = false) text

/-! ## Tokens -/

/-- The tokens between separators, without leading spaces; empty ones are left out. -/
def tokens (kvPairs : CString) : List CString :=
  ((kvPairs.splitOnP isSeparator).map (·.dropWhile (· == ' '))).filter (· ≠ [])

/-- A token with the key. -/
def hasKey (key token : CString) : Bool := (key ++ ['=']).isPrefixOf token

theorem tokens_nil : tokens [] = [] := by
  rw [tokens, List.splitOnP_nil]
  rfl

theorem tokens_append_separator {c : Char} (hc : isSeparator c = true) (x y : CString) :
    tokens (x ++ c :: y) = tokens x ++ tokens y := by
  rw [tokens, List.splitOnP_append_cons x y hc, List.map_append, List.filter_append]
  rfl

theorem tokens_cons_separator {c : Char} (hc : isSeparator c = true) (x : CString) :
    tokens (c :: x) = tokens x := by
  have := tokens_append_separator hc [] x
  rwa [List.nil_append, tokens_nil, List.nil_append] at this

theorem tokens_cons_space (x : CString) : tokens (' ' :: x) = tokens x := by
  have hspace : isSeparator ' ' = false := by decide
  obtain ⟨head, tail, hsplit⟩ := List.exists_cons_of_ne_nil (List.splitOnP_ne_nil isSeparator x)
  rw [tokens, tokens, List.splitOnP_cons_eq_if_modifyHead, hspace, hsplit]
  rfl

/-- What the loops skip does not matter. -/
theorem tokens_dropWhile (x : CString) : tokens (x.dropWhile isSkipped) = tokens x := by
  induction x with
  | nil => rfl
  | cons c x ih =>
    by_cases hc : isSkipped c = true
    · rw [List.dropWhile_cons_of_pos hc, ih]
      rw [isSkipped, Bool.or_eq_true] at hc
      rcases hc with hc | hc
      · rw [tokens_cons_separator hc]
      · rw [beq_iff_eq.mp hc, tokens_cons_space]
    · rw [List.dropWhile_cons_of_neg hc]

/-- What makes a text a token: it is not empty, has no separator and does not start
    with a space. -/
structure IsToken (token : CString) : Prop where
  ne_nil : token ≠ []
  head : token.head? ≠ some ' '
  separators : Unseparated token

instance (token : CString) : Decidable (IsToken token) :=
  decidable_of_iff (token ≠ [] ∧ token.head? ≠ some ' ' ∧ Unseparated token)
    ⟨fun h => ⟨h.1, h.2.1, h.2.2⟩, fun h => ⟨h.ne_nil, h.head, h.separators⟩⟩

theorem IsToken.tokens {token : CString} (h : IsToken token) : tokens token = [token] := by
  have hdrop : token.dropWhile (· == ' ') = token := by
    cases token with
    | nil => rfl
    | cons c token =>
      apply List.dropWhile_cons_of_neg
      intro hc
      exact h.head (congrArg some (beq_iff_eq.mp hc))
  rw [Audio.tokens, List.splitOnP_eq_singleton fun c hc => by simp [h.separators c hc]]
  simp [hdrop, h.ne_nil]

/-- The token at the start of a string. -/
def firstToken (x : CString) : CString := x.takeWhile fun c => !isSeparator c

/-- What stands behind the first token and its separator. -/
def behindToken (x : CString) : CString := (x.dropWhile fun c => !isSeparator c).drop 1

theorem head_dropWhile {p : Char → Bool} {x rest : CString} {c : Char}
    (h : x.dropWhile p = c :: rest) : p c = false := by
  have := List.head?_dropWhile_not p x
  rw [h] at this
  simpa using this

theorem firstToken_cons {c : Char} {x : CString} (hc : isSkipped c = false) :
    firstToken (c :: x) = c :: firstToken x := by
  rw [isSkipped, Bool.or_eq_false_iff] at hc
  apply List.takeWhile_cons_of_pos
  rw [hc.1]
  rfl

theorem tokens_split (x : CString) : tokens x = tokens (firstToken x) ++ tokens (behindToken x) := by
  have hsplit : firstToken x ++ x.dropWhile (fun c => !isSeparator c) = x :=
    List.takeWhile_append_dropWhile
  unfold behindToken
  cases hrest : x.dropWhile fun c => !isSeparator c with
  | nil =>
    rw [hrest, List.append_nil] at hsplit
    rw [List.drop_nil, tokens_nil, List.append_nil, hsplit]
  | cons c rest =>
    rw [hrest] at hsplit
    have hc := head_dropWhile hrest
    rw [Bool.not_eq_false'] at hc
    calc tokens x = tokens (firstToken x ++ c :: rest) := by rw [hsplit]
      _ = tokens (firstToken x) ++ tokens rest := tokens_append_separator hc _ _

theorem isToken_firstToken {c : Char} {x : CString} (hc : isSkipped c = false) :
    IsToken (firstToken (c :: x)) := by
  have hfirst := firstToken_cons (x := x) hc
  refine ⟨?_, ?_, ?_⟩
  · rw [hfirst]
    exact List.cons_ne_nil _ _
  · rw [hfirst, List.head?_cons]
    intro hspace
    rw [Option.some.inj hspace] at hc
    exact absurd hc (by decide)
  · intro d hd
    have := List.mem_takeWhile_imp hd
    rwa [Bool.not_eq_true'] at this

/-- The tokens of a string that starts with one. -/
theorem tokens_cons {c : Char} {x : CString} (hc : isSkipped c = false) :
    tokens (c :: x) = firstToken (c :: x) :: tokens (behindToken (c :: x)) := by
  rw [tokens_split, (isToken_firstToken hc).tokens, List.singleton_append]

/-- A token has a key without separators just if the string it starts has. -/
theorem hasKey_firstToken {key : CString} (hkey : Unseparated key) (x : CString) :
    hasKey key (firstToken x) = hasKey key x := by
  have hpre : ∀ {pre x : CString}, Unseparated pre →
      pre.isPrefixOf (firstToken x) = pre.isPrefixOf x := by
    intro pre
    induction pre with
    | nil =>
      intro x _
      cases firstToken x <;> rfl
    | cons c pre ih =>
      intro x hsep
      obtain ⟨hc, hrest⟩ := List.forall_mem_cons.mp hsep
      cases x with
      | nil => rfl
      | cons d x =>
        by_cases hd : isSeparator d = true
        · have hne : (c == d) = false := by
            rw [beq_eq_false_iff_ne]
            rintro rfl
            rw [hc] at hd
            cases hd
          have hnil : firstToken (d :: x) = [] := List.takeWhile_cons_of_neg (by simp [hd])
          rw [hnil, List.isPrefixOf_cons_cons, hne]
          rfl
        · have hcons : firstToken (d :: x) = d :: firstToken x :=
            List.takeWhile_cons_of_pos (by simpa using hd)
          rw [hcons, List.isPrefixOf_cons_cons, List.isPrefixOf_cons_cons, ih hrest]
  apply hpre
  intro c hc
  rcases List.mem_append.mp hc with hc | hc
  · exact hkey c hc
  · rw [List.mem_singleton.mp hc]
    decide

/-! ## Reading a parameter -/

theorem length_behindToken_lt {x y : CString} (h : x.length ≤ y.length) (hy : y ≠ []) :
    (behindToken x).length < y.length := by
  have hdrop := List.length_dropWhile_le (fun c => !isSeparator c) x
  have hpos := List.length_pos_of_ne_nil hy
  rw [behindToken, List.length_drop]
  omega

/-- The loop of `m86_find_parameter` (lines 175–194) from `cursor` on; the value is
    cut to fit in `valueSize` bytes with its terminator. -/
def findLoop (key : CString) (valueSize : ℕ) (cursor : CString) : Option CString :=
  if h : cursor = [] then none
  else
    let start := cursor.dropWhile isSkipped
    if hasKey key start then
      some ((firstToken (start.drop (key.length + 1))).take (valueSize - 1))
    else findLoop key valueSize (behindToken start)
termination_by cursor.length
decreasing_by exact length_behindToken_lt (List.length_dropWhile_le _ _) h

/-- `m86_find_parameter` (lines 168–196) on a value buffer that is there. -/
def findParameter (kvPairs : Option CString) (key : CString) (valueSize : ℕ) : Option CString :=
  kvPairs.bind (findLoop key valueSize)

/-- The value of a token with the key. -/
def tokenValue (key : CString) (valueSize : ℕ) (token : CString) : CString :=
  (token.drop (key.length + 1)).take (valueSize - 1)

theorem firstToken_append {x y : CString} (hx : Unseparated x) :
    firstToken (x ++ y) = x ++ firstToken y := by
  apply List.takeWhile_append_of_pos
  intro c hc
  rw [hx c hc]
  rfl

/-- The value of a key without separators stands in its token. -/
theorem firstToken_drop {key x : CString} (hkey : Unseparated key)
    (h : hasKey key x = true) :
    firstToken (x.drop (key.length + 1)) = (firstToken x).drop (key.length + 1) := by
  obtain ⟨rest, rfl⟩ := List.isPrefixOf_iff_prefix.mp h
  have hlen : key.length + 1 = (key ++ ['=']).length := by rw [List.length_append]; rfl
  have hsep : Unseparated (key ++ ['=']) := by
    intro c hc
    rcases List.mem_append.mp hc with hc | hc
    · exact hkey c hc
    · rw [List.mem_singleton.mp hc]
      decide
  rw [firstToken_append hsep, hlen, List.drop_left, List.drop_left]

theorem hasKey_nil (key : CString) : hasKey key [] = false := by
  cases key <;> rfl

/-- One turn of the loops: the string behind what they skip starts with the first
    token, or there is none. -/
theorem tokens_turn (cursor : CString) :
    (cursor.dropWhile isSkipped = [] ∧ tokens cursor = []) ∨
      (cursor.dropWhile isSkipped ≠ [] ∧
        tokens cursor = firstToken (cursor.dropWhile isSkipped) ::
          tokens (behindToken (cursor.dropWhile isSkipped))) := by
  have htokens := tokens_dropWhile cursor
  cases hstart : cursor.dropWhile isSkipped with
  | nil =>
    rw [hstart, tokens_nil] at htokens
    exact .inl ⟨rfl, htokens.symm⟩
  | cons c start =>
    rw [hstart, tokens_cons (head_dropWhile hstart)] at htokens
    exact .inr ⟨List.cons_ne_nil _ _, htokens.symm⟩

/-- **The value that is found** is that of the first token with the key. -/
theorem findLoop_eq {key : CString} (hkey : Unseparated key) (valueSize : ℕ)
    (cursor : CString) :
    findLoop key valueSize cursor =
      ((tokens cursor).find? (hasKey key)).map (tokenValue key valueSize) := by
  induction cursor using findLoop.induct key with
  | case1 => rw [findLoop, dif_pos rfl, tokens_nil, List.find?_nil, Option.map_none]
  | case2 cursor hne start hfound =>
    rw [findLoop, dif_neg hne]
    dsimp only
    rw [if_pos hfound]
    rcases tokens_turn cursor with ⟨hnil, -⟩ | ⟨-, hturn⟩
    · rw [show start = [] from hnil, hasKey_nil] at hfound
      cases hfound
    · have htoken : hasKey key (firstToken start) = true := by rwa [hasKey_firstToken hkey]
      rw [hturn, List.find?_cons_of_pos htoken, Option.map_some, tokenValue,
        firstToken_drop hkey hfound]
  | case3 cursor hne start hfound ih =>
    rw [findLoop, dif_neg hne]
    dsimp only
    rw [if_neg hfound]
    rcases tokens_turn cursor with ⟨hnil, hturn⟩ | ⟨-, hturn⟩
    · have hbehind : behindToken start = [] := by rw [show start = [] from hnil]; rfl
      rw [hbehind, hturn, findLoop, dif_pos rfl]
      rfl
    · have htoken : ¬ hasKey key (firstToken start) = true := by rwa [hasKey_firstToken hkey]
      rw [ih, hturn, List.find?_cons_of_neg htoken]

/-! ## Rewriting a parameter -/

/-- `token` (lines 220–224). -/
def replacedToken (key replacement start : CString) : CString :=
  if hasKey key start then replacement else firstToken start

/-- The output with one more token (lines 225–234). -/
def appendToken (output token : CString) : CString :=
  output ++ (if output = [] then [] else [';']) ++ token

/-- The loop of `m86_replace_parameter` (lines 209–237) from `cursor` on; `none` is
    an output that does not fit. -/
def replaceLoop (key replacement : CString) (outputSize : ℕ) (cursor output : CString)
    (replaced : Bool) : Option (CString × Bool) :=
  if _h : cursor = [] then some (output, replaced)
  else
    let start := cursor.dropWhile isSkipped
    if start = [] then some (output, replaced)
    else
      let longer := appendToken output (replacedToken key replacement start)
      if longer.length + 1 > outputSize then none
      else
        replaceLoop key replacement outputSize (behindToken start) longer
          (replaced || hasKey key start)
termination_by cursor.length
decreasing_by exact length_behindToken_lt (List.length_dropWhile_le _ _) _h

/-- `m86_replace_parameter` (lines 198–239): the output where it returns `true`. -/
def replaceParameter (kvPairs : Option CString) (key replacement : CString) (outputSize : ℕ) :
    Option CString := do
  let (output, replaced) ← replaceLoop key replacement outputSize (← kvPairs) [] false
  if replaced then some output else none

/-- A token of the output. -/
def rewriteToken (key replacement token : CString) : CString :=
  if hasKey key token then replacement else token

theorem tokens_appendToken {output token : CString} (h : IsToken token) :
    tokens (appendToken output token) = tokens output ++ [token] := by
  unfold appendToken
  by_cases hnil : output = []
  · rw [hnil, if_pos rfl, List.append_nil, List.nil_append, tokens_nil, List.nil_append, h.tokens]
  · rw [if_neg hnil, List.append_assoc, List.singleton_append,
      tokens_append_separator (by decide), h.tokens]

theorem replacedToken_eq {key : CString} (hkey : Unseparated key)
    (replacement start : CString) :
    replacedToken key replacement start = rewriteToken key replacement (firstToken start) := by
  rw [rewriteToken, hasKey_firstToken hkey, replacedToken]

theorem isToken_replacedToken {key replacement cursor : CString} (h : IsToken replacement)
    (hne : cursor.dropWhile isSkipped ≠ []) :
    IsToken (replacedToken key replacement (cursor.dropWhile isSkipped)) := by
  unfold replacedToken
  split_ifs
  · exact h
  · cases hstart : cursor.dropWhile isSkipped with
    | nil => exact absurd hstart hne
    | cons c start => exact isToken_firstToken (head_dropWhile hstart)

theorem tokens_replaceLoop {key replacement : CString} {outputSize : ℕ}
    (hkey : Unseparated key) (hreplacement : IsToken replacement)
    {cursor output out : CString} {replaced isReplaced : Bool}
    (h : replaceLoop key replacement outputSize cursor output replaced = some (out, isReplaced)) :
    tokens out = tokens output ++ (tokens cursor).map (rewriteToken key replacement) := by
  induction cursor, output, replaced using replaceLoop.induct key replacement outputSize with
  | case1 output replaced =>
    rw [replaceLoop, dif_pos rfl] at h
    obtain ⟨rfl, rfl⟩ := Prod.mk.inj (Option.some.inj h)
    rw [tokens_nil, List.map_nil, List.append_nil]
  | case2 cursor output replaced hne start hstart =>
    rw [replaceLoop, dif_neg hne] at h
    dsimp only at h
    rw [if_pos hstart] at h
    obtain ⟨rfl, rfl⟩ := Prod.mk.inj (Option.some.inj h)
    rcases tokens_turn cursor with ⟨-, hturn⟩ | ⟨hne, -⟩
    · rw [hturn, List.map_nil, List.append_nil]
    · exact absurd hstart hne
  | case3 cursor output replaced hne start hstart longer hlong =>
    rw [replaceLoop, dif_neg hne] at h
    dsimp only at h
    rw [if_neg hstart, if_pos hlong] at h
    cases h
  | case4 cursor output replaced hne start hstart longer hlong ih =>
    rw [replaceLoop, dif_neg hne] at h
    dsimp only at h
    rw [if_neg hstart, if_neg hlong] at h
    rcases tokens_turn cursor with ⟨hnil, -⟩ | ⟨-, hturn⟩
    · exact absurd hnil hstart
    · rw [ih h, tokens_appendToken (isToken_replacedToken hreplacement hstart), hturn,
        replacedToken_eq hkey, List.map_cons, List.append_assoc, List.singleton_append]

/-- **What is rewritten**: the tokens with the key. -/
theorem tokens_replaceParameter {kvPairs key replacement out : CString} {outputSize : ℕ}
    (hkey : Unseparated key) (hreplacement : IsToken replacement)
    (h : replaceParameter (some kvPairs) key replacement outputSize = some out) :
    tokens out = (tokens kvPairs).map (rewriteToken key replacement) := by
  obtain ⟨⟨output, replaced⟩, hloop, hout⟩ := Option.bind_eq_some_iff.mp h
  dsimp only at hout
  split_ifs at hout
  obtain rfl := Option.some.inj hout
  rw [tokens_replaceLoop hkey hreplacement hloop, tokens_nil, List.nil_append]

/-! ## Numbers -/

/-- What `isspace` accepts. -/
def isSpace (c : Char) : Bool := c == ' ' || ('\t' ≤ c && c ≤ '\r')

/-- The value of a digit up to base 36. -/
def digitValue (c : Char) : ℕ :=
  if '0' ≤ c ∧ c ≤ '9' then c.toNat - 48
  else if 'a' ≤ c ∧ c ≤ 'z' then c.toNat - 87
  else if 'A' ≤ c ∧ c ≤ 'Z' then c.toNat - 55
  else 36

/-- The sign, the magnitude and what `*end` points to, as `strtoul` and `strtol` of
    base 0 or 10 read them; `none` where `end` is the start. -/
def scanNumber (base : ℕ) (text : CString) : Option (Bool × ℕ × CString) :=
  let text := text.dropWhile isSpace
  let (negative, text) :=
    match text with
    | '-' :: rest => (true, rest)
    | '+' :: rest => (false, rest)
    | _ => (false, text)
  let (base, text) :=
    match base, text with
    | 0, '0' :: x :: c :: rest =>
      if (x = 'x' ∨ x = 'X') ∧ digitValue c < 16 then (16, c :: rest) else (8, text)
    | 0, '0' :: _ => (8, text)
    | 0, _ => (10, text)
    | _, _ => (base, text)
  let digits := text.takeWhile fun c => digitValue c < base
  if digits = [] then none
  else
    some (negative, digits.foldl (fun n c => n * base + digitValue c) 0,
      text.dropWhile fun c => digitValue c < base)

/-- `strtoul(text, &end, 0)` with a 32-bit `unsigned long`, where it reads all of
    the text. -/
def strtoulAll (text : CString) : Option (BitVec 32) :=
  match scanNumber 0 text with
  | some (negative, n, []) =>
    some (if n < 2 ^ 32 then (if negative then -BitVec.ofNat 32 n else BitVec.ofNat 32 n) else -1)
  | _ => none

/-- `strtol(text, &end, 10)` with a 32-bit `long`, where it reads all of the text. -/
def strtolAll (text : CString) : Option ℤ :=
  match scanNumber 10 text with
  | some (negative, n, []) => some (max (-2 ^ 31) (min (2 ^ 31 - 1) (if negative then -n else n)))
  | _ => none

example : strtoulAll (lit "0x8") = some 8 := by decide
example : strtoulAll (lit "4,") = none := by decide

end Pro5Android.Audio
