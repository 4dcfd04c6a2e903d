import Pro5Android.Audio.Parameters

/-!
# Rewriting a parameter and looking it up

`m86_find_parameter` and `m86_replace_parameter` (lines 168–239) scan one string
apart from each other. Seen through its tokens a string is a list of keyed texts:
the first token with a key is what is found, and replacing maps the tokens.

Results:
* `replaceParameter_eq_some_iff`: when replacing succeeds, and with what output.
* `filter_rewriteToken_of_ne`: the tokens of another key stay.
* `replace_coherent`: replacing and looking up fit together.
-/

namespace Pro5Android.Audio

/-- A key: not empty, without `=` and separators, and without a leading space. -/
structure IsKey (key : CString) : Prop where
  ne_nil : key ≠ []
  equals : '=' ∉ key
  head : key.head? ≠ some ' '
  separators : Unseparated key

instance (key : CString) : Decidable (IsKey key) :=
  decidable_of_iff (key ≠ [] ∧ '=' ∉ key ∧ key.head? ≠ some ' ' ∧ Unseparated key)
    ⟨fun h => ⟨h.1, h.2.1, h.2.2.1, h.2.2.2⟩, fun h => ⟨h.ne_nil, h.equals, h.head, h.separators⟩⟩

/-- `"key=value"`. -/
def pairText (key value : CString) : CString := key ++ '=' :: value

/-- The output with these tokens appended. -/
def joinFrom (output : CString) (texts : List CString) : CString := texts.foldl appendToken output

theorem joinFrom_cons (output text : CString) (texts : List CString) :
    joinFrom output (text :: texts) = joinFrom (appendToken output text) texts := rfl

/-- Tokens between semicolons. -/
abbrev joinTokens (texts : List CString) : CString := joinFrom [] texts

/-! ## Keys of tokens -/

theorem hasKey_eq_true_iff {key token : CString} :
    hasKey key token = true ↔ ∃ value, token = pairText key value := by
  rw [hasKey, List.isPrefixOf_iff_prefix]
  constructor
  · rintro ⟨value, rfl⟩
    exact ⟨value, by rw [pairText, List.append_assoc, List.singleton_append]⟩
  · rintro ⟨value, rfl⟩
    exact ⟨value, by rw [pairText, List.append_assoc, List.singleton_append]⟩

theorem hasKey_pairText (key value : CString) : hasKey key (pairText key value) = true :=
  hasKey_eq_true_iff.mpr ⟨value, rfl⟩

/-- The key of a pair is what stands before its first `=`. -/
theorem takeWhile_pairText {key : CString} (hkey : '=' ∉ key) (value : CString) :
    (pairText key value).takeWhile (· ≠ '=') = key := by
  have hpos : ∀ c ∈ key, decide (c ≠ '=') = true := by
    intro c hc
    apply decide_eq_true
    rintro rfl
    exact hkey hc
  rw [pairText, List.takeWhile_append_of_pos hpos, List.takeWhile_cons_of_neg (by simp),
    List.append_nil]

/-- A token has one key at most. -/
theorem hasKey_unique {key key' token : CString} (hkey : '=' ∉ key) (hkey' : '=' ∉ key')
    (h : hasKey key token = true) (h' : hasKey key' token = true) : key = key' := by
  obtain ⟨value, rfl⟩ := hasKey_eq_true_iff.mp h
  obtain ⟨value', heq⟩ := hasKey_eq_true_iff.mp h'
  rw [← takeWhile_pairText hkey value, heq, takeWhile_pairText hkey' value']

theorem IsKey.isToken {key value : CString} (h : IsKey key) (hvalue : Unseparated value) :
    IsToken (pairText key value) := by
  obtain ⟨c, rest, rfl⟩ := List.exists_cons_of_ne_nil h.ne_nil
  refine ⟨List.cons_ne_nil _ _, h.head, ?_⟩
  intro d hd
  rcases List.mem_append.mp hd with hd | hd
  · exact h.separators d hd
  · rcases List.mem_cons.mp hd with rfl | hd
    · decide
    · exact hvalue d hd

theorem tokenValue_pairText (key value : CString) (valueSize : ℕ) :
    tokenValue key valueSize (pairText key value) = value.take (valueSize - 1) := by
  have hdrop : (pairText key value).drop (key.length + 1) = value := by
    rw [pairText, List.drop_append, List.drop_eq_nil_of_le (by omega),
      Nat.add_sub_cancel_left, List.nil_append, List.drop_one, List.tail_cons]
  rw [tokenValue, hdrop]

/-! ## When the output fits -/

theorem length_le_joinFrom (output : CString) (texts : List CString) :
    output.length ≤ (joinFrom output texts).length := by
  induction texts generalizing output with
  | nil => exact Nat.le_refl _
  | cons text texts ih =>
    refine le_trans ?_ (ih (appendToken output text))
    rw [appendToken, List.append_assoc, List.length_append]
    exact Nat.le_add_right _ _

/-- The loop writes the rewritten tokens, if all of them fit. -/
theorem replaceLoop_eq {key : CString} (hkey : Unseparated key) (replacement : CString)
    (outputSize : ℕ) (cursor output : CString) (replaced : Bool) :
    replaceLoop key replacement outputSize cursor output replaced =
      if tokens cursor = [] ∨ (joinFrom output
          ((tokens cursor).map (rewriteToken key replacement))).length + 1 ≤ outputSize then
        some (joinFrom output ((tokens cursor).map (rewriteToken key replacement)),
          replaced || (tokens cursor).any (hasKey key))
      else none := by
  induction cursor, output, replaced using replaceLoop.induct key replacement outputSize with
  | case1 output replaced =>
    rw [replaceLoop, dif_pos rfl, tokens_nil, if_pos (.inl rfl), List.any_nil, Bool.or_false]
    rfl
  | case2 cursor output replaced hne start hstart =>
    rw [replaceLoop, dif_neg hne]
    dsimp only
    rw [if_pos hstart]
    rcases tokens_turn cursor with ⟨-, hturn⟩ | ⟨hne, -⟩
    · rw [hturn, if_pos (.inl rfl), List.any_nil, Bool.or_false]
      rfl
    · exact absurd hstart hne
  | case3 cursor output replaced hne start hstart longer hlong =>
    rw [replaceLoop, dif_neg hne]
    dsimp only
    rw [if_neg hstart, if_pos hlong]
    rcases tokens_turn cursor with ⟨hnil, -⟩ | ⟨-, hturn⟩
    · exact absurd hnil hstart
    · rw [hturn, if_neg]
      rintro (hnil | hfits)
      · exact absurd hnil (List.cons_ne_nil _ _)
      · rw [List.map_cons, joinFrom_cons, ← replacedToken_eq hkey] at hfits
        have hle := length_le_joinFrom longer
          ((tokens (behindToken start)).map (rewriteToken key replacement))
        exact absurd (le_trans (Nat.succ_le_succ hle) hfits) (Nat.not_le_of_gt hlong)
  | case4 cursor output replaced hne start hstart longer hlong ih =>
    rw [replaceLoop, dif_neg hne]
    dsimp only
    rw [if_neg hstart, if_neg hlong, ih]
    rcases tokens_turn cursor with ⟨hnil, -⟩ | ⟨-, hturn⟩
    · exact absurd hnil hstart
    · have hhead : appendToken output (rewriteToken key replacement (firstToken start)) = longer := by
        rw [← replacedToken_eq hkey]
      have hkeys : hasKey key (firstToken start) = hasKey key start := hasKey_firstToken hkey start
      have hturn : tokens cursor = firstToken start :: tokens (behindToken start) := hturn
      simp only [hturn, List.map_cons, joinFrom_cons, List.any_cons, ← Bool.or_assoc, hhead, hkeys]
      by_cases hnil : tokens (behindToken start) = []
      · have hfits : longer.length + 1 ≤ outputSize := Nat.le_of_not_gt hlong
        rw [hnil, if_pos (.inl rfl), if_pos (.inr hfits)]
      · simp only [hnil, List.cons_ne_nil, false_or]

/-- **When replacing succeeds**: a token has the key and the output fits. -/
theorem replaceParameter_eq_some_iff {kvPairs key replacement out : CString} {outputSize : ℕ}
    (hkey : Unseparated key) :
    replaceParameter (some kvPairs) key replacement outputSize = some out ↔
      (tokens kvPairs).any (hasKey key) = true ∧
        out = joinTokens ((tokens kvPairs).map (rewriteToken key replacement)) ∧
        out.length + 1 ≤ outputSize := by
  have heq : replaceParameter (some kvPairs) key replacement outputSize =
      (replaceLoop key replacement outputSize kvPairs [] false).bind fun r =>
        if r.2 then some r.1 else none := rfl
  rw [heq, replaceLoop_eq hkey, Bool.false_or]
  by_cases hnil : tokens kvPairs = []
  · rw [hnil, if_pos (.inl rfl)]
    simp
  · simp only [hnil, false_or]
    split_ifs with hfits
    · rw [Option.bind_some]
      split_ifs with hany
      · rw [Option.some.injEq]
        exact ⟨fun h => ⟨hany, h.symm, h ▸ hfits⟩, fun h => h.2.1.symm⟩
      · exact iff_of_false id fun h => hany h.1
    · rw [Option.bind_none]
      refine iff_of_false (Option.some_ne_none _).symm ?_
      rintro ⟨-, rfl, hlength⟩
      exact hfits hlength

/-! ## Looking up what was rewritten -/

theorem isSome_findParameter {kvPairs key : CString} (hkey : Unseparated key) (valueSize : ℕ) :
    (findParameter (some kvPairs) key valueSize).isSome = (tokens kvPairs).any (hasKey key) := by
  rw [findParameter, Option.bind_some, findLoop_eq hkey, Option.isSome_map, List.isSome_find?]

/-- A token with the key becomes the pair; the others stay. -/
theorem rewriteToken_of_hasKey {key replacement token : CString} (h : hasKey key token = true) :
    rewriteToken key replacement token = replacement := if_pos h

theorem rewriteToken_of_not_hasKey {key replacement token : CString}
    (h : hasKey key token = false) : rewriteToken key replacement token = token :=
  if_neg (by rw [h]; exact Bool.false_ne_true)

/-- The first token with the key is the pair. -/
theorem find?_rewriteToken {key value : CString} {texts : List CString}
    (h : texts.any (hasKey key) = true) :
    (texts.map (rewriteToken key (pairText key value))).find? (hasKey key) =
      some (pairText key value) := by
  induction texts with
  | nil => cases h
  | cons text texts ih =>
    rw [List.map_cons]
    cases htext : hasKey key text with
    | true =>
      rw [rewriteToken_of_hasKey htext, List.find?_cons_of_pos (hasKey_pairText key value)]
    | false =>
      rw [List.any_cons, htext, Bool.false_or] at h
      rw [rewriteToken_of_not_hasKey htext, List.find?_cons_of_neg (by simp [htext]), ih h]

/-- **The tokens of another key** stay, in their order. -/
theorem filter_rewriteToken_of_ne {key key' value : CString} (hkey : '=' ∉ key)
    (hkey' : '=' ∉ key') (hne : key' ≠ key) (texts : List CString) :
    (texts.map (rewriteToken key (pairText key value))).filter (hasKey key') =
      texts.filter (hasKey key') := by
  induction texts with
  | nil => rfl
  | cons text texts ih =>
    rw [List.map_cons]
    cases htext : hasKey key text with
    | true =>
      have hother : ∀ {token}, hasKey key token = true → ¬ hasKey key' token = true :=
        fun h h' => hne (hasKey_unique hkey' hkey h' h)
      rw [rewriteToken_of_hasKey htext, List.filter_cons_of_neg (hother (hasKey_pairText key value)),
        List.filter_cons_of_neg (hother htext), ih]
    | false => rw [rewriteToken_of_not_hasKey htext, List.filter_cons, List.filter_cons, ih]

/-- **Replacing and looking up fit together.** Where a key is found and the output fits,
replacing succeeds; then the key has the new value, another key has the value it had, and
the other tokens keep their text and order. Replacing fails only where the key is not found
or the output does not fit. -/
theorem replace_coherent {key value : CString} (hkey : IsKey key) (hvalue : Unseparated value)
    (kvPairs : CString) :
    let replacement := pairText key value
    let rewritten := (tokens kvPairs).map (rewriteToken key replacement)
    (∀ valueSize outputSize, 0 < valueSize →
      (findParameter (some kvPairs) key valueSize).isSome = true →
      (joinTokens rewritten).length < outputSize →
      ∃ out, replaceParameter (some kvPairs) key replacement outputSize = some out ∧
        (∀ n, 0 < n → findParameter (some out) key n = some (value.take (n - 1))) ∧
        (∀ n, value.length < n → findParameter (some out) key n = some value) ∧
        (∀ key', IsKey key' → key' ≠ key → ∀ n, 0 < n →
          findParameter (some out) key' n = findParameter (some kvPairs) key' n) ∧
        tokens out = rewritten) ∧
    ∀ outputSize, replaceParameter (some kvPairs) key replacement outputSize = none →
      (∀ n, 0 < n → findParameter (some kvPairs) key n = none) ∨
        outputSize ≤ (joinTokens rewritten).length := by
  intro replacement rewritten
  constructor
  · intro valueSize outputSize _ hfound hfits
    rw [isSome_findParameter hkey.separators] at hfound
    have hout : replaceParameter (some kvPairs) key replacement outputSize =
        some (joinTokens rewritten) :=
      (replaceParameter_eq_some_iff hkey.separators).mpr ⟨hfound, rfl, hfits⟩
    have htokens : tokens (joinTokens rewritten) = rewritten :=
      tokens_replaceParameter hkey.separators (hkey.isToken hvalue) hout
    have hlookup : ∀ n, findParameter (some (joinTokens rewritten)) key n =
        some (value.take (n - 1)) := by
      intro n
      rw [findParameter, Option.bind_some, findLoop_eq hkey.separators, htokens,
        find?_rewriteToken hfound, Option.map_some, tokenValue_pairText]
    refine ⟨_, hout, fun n _ => hlookup n, fun n hn => ?_, ?_, htokens⟩
    · rw [hlookup n, List.take_of_length_le (by omega)]
    · intro key' hkey' hne n _
      rw [findParameter, findParameter, Option.bind_some, Option.bind_some,
        findLoop_eq hkey'.separators, findLoop_eq hkey'.separators, htokens,
        ← List.head?_filter, filter_rewriteToken_of_ne hkey.equals hkey'.equals hne,
        List.head?_filter]
  · intro outputSize hnone
    by_contra! h
    obtain ⟨⟨n, -, hfound⟩, hfits⟩ := h
    have hfound := Option.isSome_iff_ne_none.mpr hfound
    rw [isSome_findParameter hkey.separators] at hfound
    have hout : replaceParameter (some kvPairs) key replacement outputSize =
        some (joinTokens rewritten) :=
      (replaceParameter_eq_some_iff hkey.separators).mpr ⟨hfound, rfl, hfits⟩
    exact absurd (hnone.symm.trans hout) (Option.some_ne_none _).symm

/-- A string with an empty token, spaces, both separators and a key that is a prefix of
another. -/
theorem replace_coherent_mixed :
    ∃ out, replaceParameter (some (lit ";hifi=1, hifi_state=off;;routing=4")) (lit "hifi_state")
        (pairText (lit "hifi_state") (lit "on")) 512 = some out ∧
      findParameter (some out) (lit "hifi_state") 32 = some (lit "on") ∧
      findParameter (some out) (lit "hifi") 32 = some (lit "1") := by
  have hkey : IsKey (lit "hifi_state") := by decide
  have hvalue : Unseparated (lit "on") := by decide
  obtain ⟨out, hout, -, hfound, hothers, -⟩ :=
    (replace_coherent hkey hvalue (lit ";hifi=1, hifi_state=off;;routing=4")).1 32 512 (by decide)
      (by rw [isSome_findParameter hkey.separators]; decide) (by decide)
  refine ⟨out, hout, hfound 32 (by decide), ?_⟩
  rw [hothers (lit "hifi") (by decide) (by decide) 32 (by decide), findParameter, Option.bind_some,
    findLoop_eq (by decide)]
  decide

end Pro5Android.Audio
