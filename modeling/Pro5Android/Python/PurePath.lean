import Mathlib.Data.List.DropRight
import Mathlib.Tactic.SplitIfs

/-!
# Texts by their code points, and pure paths

A `str` that is taken apart character by character, as the list of its code points,
and the `PurePosixPath` of a text: the root, which is empty, `/` or, for exactly two
leading slashes, `//`, and the segments, of which empty ones and `.` are dropped.

Results:
* `segments_toStr`: the text of a relative path is split into its segments again.
* `parse_join_slash`: a relative text below `/` has the root `/` and its own segments;
  an absolute one takes the place of `/`.
-/

namespace Pro5Android.Python

/-- A `str`. -/
abbrev Str := List Char

/-- The text of a literal. -/
def str (s : String) : Str := s.toList

/-- `c.isspace()`. -/
def isSpaceChar (c : Char) : Bool :=
  let n := c.toNat
  (0x09 ≤ n && n ≤ 0x0D) || (0x1C ≤ n && n ≤ 0x20) || n == 0x85 || n == 0xA0 || n == 0x1680 ||
    (0x2000 ≤ n && n ≤ 0x200A) || n == 0x2028 || n == 0x2029 || n == 0x202F || n == 0x205F ||
    n == 0x3000

/-- `s.rstrip()`. -/
def rstrip (s : Str) : Str := s.rdropWhile isSpaceChar

/-- `s.strip()`. -/
def strip (s : Str) : Str := rstrip (s.dropWhile isSpaceChar)

/-- `s.lstrip(c)` for one character. -/
def lstripChar (c : Char) (s : Str) : Str := s.dropWhile (· = c)

/-- `s.split(c, 1)[0]`. -/
def before (c : Char) (s : Str) : Str := s.takeWhile (· ≠ c)

/-- `s.removeprefix(pre)`. -/
def removeStrPrefix (pre s : Str) : Str := if pre.isPrefixOf s then s.drop pre.length else s

/-! ## Pure paths -/

/-- A `PurePosixPath`. -/
structure PurePosixPath where
  root : Str
  tail : List Str
deriving DecidableEq

namespace PurePosixPath

/-- `posixpath.splitroot`: the root and what follows it. -/
def splitRoot : Str → Str × Str
  | '/' :: '/' :: '/' :: rest => (['/'], '/' :: '/' :: rest)
  | '/' :: '/' :: rest => (['/', '/'], rest)
  | '/' :: rest => (['/'], rest)
  | s => ([], s)

/-- `x and x != "."`. -/
def keepsSegment (x : Str) : Bool := x ≠ [] && x ≠ ['.']

/-- The segments of a text. -/
def segments (s : Str) : List Str := (s.splitOn '/').filter keepsSegment

/-- `PurePosixPath(s)`. -/
def parse (s : Str) : PurePosixPath := ⟨(splitRoot s).1, segments (splitRoot s).2⟩

/-- `posixpath.join(a, b)`. -/
def join (a b : Str) : Str :=
  if b.head? = some '/' then b
  else if a = [] ∨ a.getLast? = some '/' then a ++ b
  else a ++ '/' :: b

/-- `p.is_absolute()`. -/
def isAbsolute (p : PurePosixPath) : Bool := p.root ≠ []

/-- `p.parts`. -/
def parts (p : PurePosixPath) : List Str := if p.root = [] then p.tail else p.root :: p.tail

/-- `str(p)`. -/
def toStr (p : PurePosixPath) : Str :=
  if p.root ≠ [] then p.root ++ ['/'].intercalate p.tail
  else if p.tail = [] then ['.'] else ['/'].intercalate p.tail

/-! ### Segments -/

theorem notMem_of_mem_splitOn {c : Char} {s : Str} : ∀ {x : Str}, x ∈ s.splitOn c → c ∉ x := by
  induction s with
  | nil => simp
  | cons d s ih =>
    intro x hx
    rw [List.splitOn_cons_eq_if_modifyHead] at hx
    split_ifs at hx with hd
    · rcases List.mem_cons.mp hx with rfl | hx
      · exact List.not_mem_nil
      · exact ih hx
    · cases hs : s.splitOn c with
      | nil => exact absurd hs (List.splitOn_ne_nil c s)
      | cons y ys =>
        rw [hs, List.modifyHead_cons] at hx
        rcases List.mem_cons.mp hx with rfl | hx
        · have hy : c ∉ y := ih (hs ▸ List.mem_cons_self ..)
          exact fun hmem => (List.mem_cons.mp hmem).elim (fun h => hd (by simp [h])) hy
        · exact ih (hs ▸ List.mem_cons_of_mem _ hx)

/-- A segment is not empty, not `.`, and has no slash. -/
structure IsSegment (x : Str) : Prop where
  ne_nil : x ≠ []
  ne_dot : x ≠ ['.']
  no_slash : '/' ∉ x

theorem isSegment_of_mem {s x : Str} (h : x ∈ segments s) : IsSegment x := by
  obtain ⟨hx, hkeep⟩ := List.mem_filter.mp h
  simp only [keepsSegment, Bool.and_eq_true, decide_eq_true_eq] at hkeep
  exact ⟨hkeep.1, hkeep.2, notMem_of_mem_splitOn hx⟩

/-- Segments joined by slashes are split into the same segments. -/
theorem segments_intercalate {l : List Str} (h : ∀ x ∈ l, IsSegment x) :
    segments (['/'].intercalate l) = l := by
  cases l with
  | nil => rfl
  | cons x l =>
    rw [segments, List.splitOn_intercalate '/' (fun x hx => (h x hx).no_slash) (by simp)]
    refine List.filter_eq_self.mpr fun x hx => ?_
    simp [keepsSegment, (h x hx).ne_nil, (h x hx).ne_dot]

theorem head_intercalate_ne_slash {l : List Str} (h : ∀ x ∈ l, IsSegment x) :
    (['/'].intercalate l).head? ≠ some '/' := by
  cases l with
  | nil => simp
  | cons x l =>
    have hx := h x (List.mem_cons_self ..)
    obtain ⟨c, y, rfl⟩ := List.exists_cons_of_ne_nil hx.ne_nil
    have hc : c ≠ '/' := fun hc => hx.no_slash (by simp [hc])
    cases l with
    | nil => simpa using hc
    | cons z l => simpa [List.intercalate_cons_cons] using hc

/-- The text of a relative path has the path's segments. -/
theorem segments_toStr {l : List Str} (h : ∀ x ∈ l, IsSegment x) :
    segments (PurePosixPath.mk [] l).toStr = l := by
  by_cases hl : l = []
  · subst hl
    decide
  · rw [toStr, if_neg (not_not_intro rfl), if_neg hl, segments_intercalate h]

theorem head_toStr_ne_slash {l : List Str} (h : ∀ x ∈ l, IsSegment x) :
    (PurePosixPath.mk [] l).toStr.head? ≠ some '/' := by
  rw [toStr, if_neg (not_not_intro rfl)]
  split_ifs
  · decide
  · exact head_intercalate_ne_slash h

/-! ### Relative texts and the root -/

theorem splitRoot_relative {s : Str} (h : s.head? ≠ some '/') : splitRoot s = ([], s) := by
  cases s with
  | nil => rfl
  | cons c s =>
    have hc : c ≠ '/' := fun hc => h (by rw [hc]; rfl)
    rw [splitRoot]
    all_goals simp_all

theorem splitRoot_absolute {s : Str} (h : s.head? = some '/') :
    (splitRoot s).1 = ['/'] ∨ (splitRoot s).1 = ['/', '/'] := by
  obtain ⟨s, rfl⟩ : ∃ s', s = '/' :: s' := by
    cases s with
    | nil => cases h
    | cons c s => exact ⟨s, by rw [Option.some.inj h]⟩
  rw [splitRoot.eq_def]
  split
  · exact .inl rfl
  · exact .inr rfl
  · exact .inl rfl
  · rename_i hslash
    exact absurd rfl (hslash s)

/-- Below `/`, a relative text keeps its segments. -/
theorem splitRoot_slash {s : Str} (h : s.head? ≠ some '/') : splitRoot ('/' :: s) = (['/'], s) := by
  cases s with
  | nil => rfl
  | cons c s =>
    have hc : c ≠ '/' := fun hc => h (by rw [hc]; rfl)
    rw [splitRoot]
    all_goals simp_all

theorem parse_relative {s : Str} (h : s.head? ≠ some '/') : parse s = ⟨[], segments s⟩ := by
  rw [parse, splitRoot_relative h]

theorem parse_join_slash {s : Str} (h : s.head? ≠ some '/') :
    parse (join ['/'] s) = ⟨['/'], segments s⟩ := by
  rw [join, if_neg h, if_pos (.inr rfl), parse]
  show PurePosixPath.mk (splitRoot ('/' :: s)).1 (segments (splitRoot ('/' :: s)).2) = _
  rw [splitRoot_slash h]

/-- An absolute text takes the place of what it is joined to. -/
theorem join_absolute {a s : Str} (h : s.head? = some '/') : join a s = s := if_pos h

end PurePosixPath

end Pro5Android.Python
