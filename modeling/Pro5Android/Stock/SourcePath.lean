import Pro5Android.Python.PurePath

/-!
# The two readers of the proprietary-files list

`source_path` of `tools/extract-stock-files.py` (lines 23–37) and of
`tools/audit-proprietary-files.py` (lines 20–37). Both take a line apart in the same
way (`listEntry`) and then check what is left. The extractor refuses an empty and an
absolute entry; the audit skips the empty one and resolves the absolute one, which
takes the place of the `/` that it is joined to.

Results:
* `Extract.sourcePath_relative`, `Audit.sourcePath_relative`: what each makes of a
  relative entry; likewise of an absolute one.
* `sourcePaths_agree_iff`: they agree on the lines that leave an entry which is not
  empty and not absolute, and on a few more.
-/

namespace Pro5Android.Stock

open Python PurePosixPath

/-- The `ValueError` of both readers. -/
inductive PathError
  /-- `Unsafe proprietary path: {line.rstrip()}` -/
  | unsafePath (line : Str)
deriving DecidableEq

/-- What both readers leave of a line; `none` is a line they skip. -/
def listEntry (line : Str) : Option Str :=
  let entry := strip line
  if entry = [] ∨ entry.head? = some '#' then none
  else
    let entry := lstripChar '-' entry
    let entry := before '|' entry
    let entry := before ';' entry
    let entry := before ':' entry
    let entry := removeStrPrefix (str "/") entry
    some (removeStrPrefix (str "system/") entry)

/-- `source_path` of the extractor. -/
def Extract.sourcePath (line : Str) : Except PathError (Option Str) :=
  match listEntry line with
  | none => .ok none
  | some entry =>
    let normalized := parse entry
    if entry = [] ∨ normalized.isAbsolute ∨ str ".." ∈ normalized.parts then
      .error (.unsafePath (rstrip line))
    else .ok (some normalized.toStr)

/-- `source_path` of the audit. -/
def Audit.sourcePath (line : Str) : Except PathError (Option Str) :=
  match listEntry line with
  | none => .ok none
  | some entry =>
    if entry = [] then .ok none
    else
      let normalized := parse (join (str "/") entry)
      if str ".." ∈ normalized.parts then .error (.unsafePath (rstrip line))
      else .ok (some normalized.toStr)

/-! ## What each makes of an entry -/

section

variable {line entry : Str}

theorem dotdot_mem_parts {root : Str} {tail : List Str} (h : root ≠ str "..") :
    str ".." ∈ (PurePosixPath.mk root tail).parts ↔ str ".." ∈ tail := by
  rw [parts]
  split_ifs
  · rfl
  · simp [h.symm]

theorem root_parse_absolute (h : entry.head? = some '/') :
    (parse entry).root ≠ [] ∧ (parse entry).root ≠ str ".." := by
  show (splitRoot entry).1 ≠ [] ∧ (splitRoot entry).1 ≠ str ".."
  rcases splitRoot_absolute h with hroot | hroot <;> rw [hroot] <;> decide

/-- The extractor takes a relative entry without `..`. -/
theorem Extract.sourcePath_relative (h : listEntry line = some entry) (hne : entry ≠ [])
    (hrel : entry.head? ≠ some '/') :
    Extract.sourcePath line =
      if str ".." ∈ segments entry then .error (.unsafePath (rstrip line))
      else .ok (some (PurePosixPath.mk [] (segments entry)).toStr) := by
  have hcheck : (entry = [] ∨ (parse entry).isAbsolute = true ∨ str ".." ∈ (parse entry).parts) ↔
      str ".." ∈ segments entry := by
    rw [parse_relative hrel, dotdot_mem_parts (by decide)]
    simp [hne, isAbsolute]
  rw [Extract.sourcePath, h]
  exact if_congr hcheck rfl (by rw [parse_relative hrel])

/-- The extractor refuses an absolute entry. -/
theorem Extract.sourcePath_absolute (h : listEntry line = some entry)
    (habs : entry.head? = some '/') :
    Extract.sourcePath line = .error (.unsafePath (rstrip line)) := by
  have hcheck : (parse entry).isAbsolute = true := decide_eq_true (root_parse_absolute habs).1
  rw [Extract.sourcePath, h]
  exact if_pos (.inr (.inl hcheck))

/-- What the extractor returns is the text of plain names. -/
theorem Extract.sourcePath_eq_ok {relative : Str} (h : Extract.sourcePath line = .ok (some relative)) :
    ∃ l : List Str, (∀ x ∈ l, IsSegment x ∧ x ≠ str "..") ∧
      relative = (PurePosixPath.mk [] l).toStr := by
  cases hentry : listEntry line with
  | none =>
    rw [Extract.sourcePath, hentry] at h
    cases h
  | some entry =>
    by_cases hne : entry = []
    · rw [Extract.sourcePath, hentry] at h
      dsimp only at h
      rw [if_pos (.inl hne)] at h
      cases h
    by_cases hslash : entry.head? = some '/'
    · rw [Extract.sourcePath_absolute hentry hslash] at h
      cases h
    · rw [Extract.sourcePath_relative hentry hne hslash] at h
      split_ifs at h with hdot
      refine ⟨segments entry, fun x hx => ⟨isSegment_of_mem hx, ?_⟩, ?_⟩
      · rintro rfl
        exact hdot hx
      · exact (Option.some.inj (Except.ok.inj h)).symm

/-- The audit takes the same entries. -/
theorem Audit.sourcePath_relative (h : listEntry line = some entry) (hne : entry ≠ [])
    (hrel : entry.head? ≠ some '/') :
    Audit.sourcePath line =
      if str ".." ∈ segments entry then .error (.unsafePath (rstrip line))
      else .ok (some (PurePosixPath.mk ['/'] (segments entry)).toStr) := by
  have hparse : parse (join (str "/") entry) = ⟨['/'], segments entry⟩ := parse_join_slash hrel
  have hcheck : str ".." ∈ (parse (join (str "/") entry)).parts ↔ str ".." ∈ segments entry := by
    rw [hparse]
    exact dotdot_mem_parts (by decide)
  rw [Audit.sourcePath, h]
  dsimp only
  rw [if_neg hne]
  exact if_congr hcheck rfl (by rw [hparse])

/-- The audit takes an absolute entry without `..` as it is. -/
theorem Audit.sourcePath_absolute (h : listEntry line = some entry)
    (habs : entry.head? = some '/') :
    Audit.sourcePath line =
      if str ".." ∈ (parse entry).parts then .error (.unsafePath (rstrip line))
      else .ok (some (parse entry).toStr) := by
  have hne : entry ≠ [] := by
    rintro rfl
    cases habs
  rw [Audit.sourcePath, h]
  dsimp only
  rw [if_neg hne, join_absolute habs]

end

/-! ## Agreement -/

/-- Both refuse, both skip, or both return a path, and then the same one. -/
def Agree (same : Str → Str → Prop) :
    Except PathError (Option Str) → Except PathError (Option Str) → Prop
  | .error _, .error _ => True
  | .ok none, .ok none => True
  | .ok (some p), .ok (some q) => same p q
  | _, _ => False

/-- The second path is the first one below `/`. -/
def BelowRoot (p q : Str) : Prop := q = (parse (join (str "/") p)).toStr

/-- The second text is the first one behind a slash. -/
def BehindSlash (p q : Str) : Prop := q = '/' :: p

/-- What is left of the line is not empty, and not absolute unless a `..` rules it out
    anyway. -/
def Supported (line : Str) : Prop :=
  ∀ entry, listEntry line = some entry →
    entry ≠ [] ∧ (entry.head? = some '/' → str ".." ∈ (parse entry).parts)

/-- What is left of the line is not made up of `.` and slashes. -/
def NamesFile (line : Str) : Prop :=
  ∀ entry, listEntry line = some entry → (parse entry).tail ≠ []

/-- The two paths of a relative entry. -/
theorem belowRoot_segments (entry : Str) :
    BelowRoot (PurePosixPath.mk [] (segments entry)).toStr
      (PurePosixPath.mk ['/'] (segments entry)).toStr := by
  have hseg : ∀ x ∈ segments entry, IsSegment x := fun x hx => isSegment_of_mem hx
  show _ = (parse (join ['/'] (PurePosixPath.mk [] (segments entry)).toStr)).toStr
  rw [parse_join_slash (head_toStr_ne_slash hseg), segments_toStr hseg]

theorem behindSlash_iff {l : List Str} :
    BehindSlash (PurePosixPath.mk [] l).toStr (PurePosixPath.mk ['/'] l).toStr ↔ l ≠ [] := by
  rw [BehindSlash, toStr, toStr, if_pos (List.cons_ne_nil _ _), if_neg (not_not_intro rfl)]
  by_cases hl : l = []
  · subst hl
    decide
  · rw [if_neg hl]
    simp [hl]

/-- What both readers do with a line that leaves an entry. -/
theorem agree_iff_of_entry {line entry : Str} {same : Str → Str → Prop}
    (h : listEntry line = some entry) :
    Agree same (Extract.sourcePath line) (Audit.sourcePath line) ↔
      entry ≠ [] ∧ (entry.head? = some '/' → str ".." ∈ (parse entry).parts) ∧
        (entry.head? ≠ some '/' → str ".." ∉ segments entry →
          same (PurePosixPath.mk [] (segments entry)).toStr
            (PurePosixPath.mk ['/'] (segments entry)).toStr) := by
  by_cases hne : entry = []
  · rw [Extract.sourcePath, Audit.sourcePath, h]
    subst hne
    simp [Agree]
  by_cases hslash : entry.head? = some '/'
  · rw [Extract.sourcePath_absolute h hslash, Audit.sourcePath_absolute h hslash]
    by_cases hdot : str ".." ∈ (parse entry).parts <;> simp [hne, hslash, hdot, Agree]
  · rw [Extract.sourcePath_relative h hne hslash, Audit.sourcePath_relative h hne hslash]
    by_cases hdot : str ".." ∈ segments entry <;> simp [hne, hslash, hdot, Agree]

theorem tail_ne_nil_of_dotdot {entry : Str} (habs : entry.head? = some '/')
    (hdot : str ".." ∈ (parse entry).parts) : (parse entry).tail ≠ [] := by
  have hmem : str ".." ∈ (parse entry).tail :=
    (dotdot_mem_parts (root_parse_absolute habs).2).mp hdot
  exact List.ne_nil_of_mem hmem

/-- The readers agree on a line just when it is supported. Where the paths are compared
    as texts, `.` and `/` differ, and the line must name a file as well. -/
theorem sourcePaths_agree_iff (line : Str) :
    (Agree BelowRoot (Extract.sourcePath line) (Audit.sourcePath line) ↔ Supported line) ∧
      (Agree BehindSlash (Extract.sourcePath line) (Audit.sourcePath line) ↔
        Supported line ∧ NamesFile line) := by
  cases h : listEntry line with
  | none => simp [Extract.sourcePath, Audit.sourcePath, Supported, NamesFile, h, Agree]
  | some entry =>
    rw [agree_iff_of_entry h, agree_iff_of_entry h]
    simp only [Supported, NamesFile, h, Option.some.injEq, forall_eq']
    refine ⟨?_, ?_⟩
    · simp [belowRoot_segments]
    · simp only [behindSlash_iff, and_assoc]
      refine and_congr_right fun hne => and_congr_right fun habs => ⟨fun hrel => ?_, fun htail => ?_⟩
      · by_cases hslash : entry.head? = some '/'
        · exact tail_ne_nil_of_dotdot hslash (habs hslash)
        · rw [parse_relative hslash]
          by_cases hdot : str ".." ∈ segments entry
          · exact List.ne_nil_of_mem hdot
          · exact hrel hslash hdot
      · intro hslash _
        rwa [parse_relative hslash] at htail

/-- The line `//etc/x`: the extractor refuses it, the audit looks for `/etc/x`. -/
theorem sourcePaths_differ :
    Extract.sourcePath (str "//etc/x") = .error (.unsafePath (str "//etc/x")) ∧
      Audit.sourcePath (str "//etc/x") = .ok (some (str "/etc/x")) ∧
      ¬ Agree BelowRoot (Extract.sourcePath (str "//etc/x")) (Audit.sourcePath (str "//etc/x")) ∧
      ¬ Agree BehindSlash (Extract.sourcePath (str "//etc/x"))
        (Audit.sourcePath (str "//etc/x")) := by
  have hextract : Extract.sourcePath (str "//etc/x") = .error (.unsafePath (str "//etc/x")) := by
    decide
  have haudit : Audit.sourcePath (str "//etc/x") = .ok (some (str "/etc/x")) := by decide
  rw [hextract, haudit]
  exact ⟨rfl, rfl, id, id⟩

end Pro5Android.Stock
