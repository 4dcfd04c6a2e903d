import Pro5Android.Lib.Overlap
import Pro5Android.Python.Dict

/-!
# Searching the files of an image

The scan of one file in `main` of `tools/search-ext4-bytes.py` (lines 29–34 and
62–78). The file is read in chunks; between two chunks the scan keeps as many bytes
as the longest search string has, less one. A `str` is represented by its UTF-8
bytes, so that `encode` does nothing. The walk over the directories and errors of
the reads are left out.

Results:
* `scanChunk_scanned`: one chunk keeps the invariant `Scanned`.
* `scanFile_finds`: however the reads split the file, the scan finds the search
  strings that it contains.
-/

namespace Pro5Android.Stock

open Python Lib

/-- The exceptions `main` raises before it opens the image. -/
inductive SearchError
  /-- `Search strings must not be empty.` -/
  | emptySearchString
  /-- `ValueError` of `max()` of no lengths -/
  | emptyMax
deriving DecidableEq, Repr

/-- `needles` (line 29). -/
def needlesOf (args : List Bytes) : OrderedDict Bytes Bytes :=
  OrderedDict.ofPairs (args.map fun value => (value, value))

/-- `needles` and `overlap` (lines 29–34). -/
def searchSetup (args : List Bytes) : Except SearchError (OrderedDict Bytes Bytes × ℤ) :=
  let needles := needlesOf args
  if needles.items.any fun item => item.2 = [] then .error .emptySearchString
  else match (needles.items.map fun item => item.2.length).max? with
    | none => .error .emptyMax
    | some longest => .ok (needles, longest - 1)

/-- The variables of the scan of a file; `bytesScanned` counts this file only. -/
structure FileScan where
  foundHere : Finset Bytes
  tail : Bytes
  bytesScanned : ℕ

/-- The body of the inner loop (lines 71–72). -/
def addFound (candidate : Bytes) (foundHere : Finset Bytes) (item : Bytes × Bytes) :
    Finset Bytes :=
  if item.1 ∉ foundHere ∧ item.2 <:+: candidate then insert item.1 foundHere else foundHere

/-- The body of the loop over the chunks (lines 67–73). -/
def scanChunk (needles : OrderedDict Bytes Bytes) (overlap : ℤ) (s : FileScan) (chunk : Bytes) :
    FileScan :=
  let candidate := s.tail ++ chunk
  { foundHere := needles.items.foldl (addFound candidate) s.foundHere
    tail := if overlap ≠ 0 then sliceFrom candidate (-overlap) else []
    bytesScanned := s.bytesScanned + chunk.length }

/-- The loop over the chunks; `reads` are the results of `source.read`, of which an
    empty one ends it. -/
def scanReads (needles : OrderedDict Bytes Bytes) (overlap : ℤ) : FileScan → List Bytes → FileScan
  | s, [] => s
  | s, chunk :: reads =>
    if chunk = [] then s else scanReads needles overlap (scanChunk needles overlap s chunk) reads

/-- The scan of a file (lines 63–73). -/
def scanFile (needles : OrderedDict Bytes Bytes) (overlap : ℤ) (reads : List Bytes) : FileScan :=
  scanReads needles overlap ⟨∅, [], 0⟩ reads

/-! ## The setup -/

theorem mem_needlesOf {args : List Bytes} {label needle : Bytes} :
    (label, needle) ∈ (needlesOf args).items ↔ label ∈ args ∧ needle = label := by
  rw [OrderedDict.mem_items, needlesOf, OrderedDict.get?_ofPairs,
    Dict.ofPairs_graph fun value => value]
  split_ifs with h <;> simp [h, eq_comm]

/-- The strings are accepted, and none is longer than the overlap and one. -/
theorem searchSetup_eq_ok {args : List Bytes} (hargs : args ≠ []) (hne : ∀ v ∈ args, v ≠ []) :
    ∃ overlap : ℕ, searchSetup args = .ok (needlesOf args, overlap) ∧
      ∀ v ∈ args, v.length ≤ overlap + 1 := by
  have hempty : ¬ ((needlesOf args).items.any fun item => item.2 = []) = true := by
    intro h
    obtain ⟨⟨label, needle⟩, hitem, hnil⟩ := List.any_eq_true.mp h
    obtain ⟨hlabel, rfl⟩ := mem_needlesOf.mp hitem
    exact hne _ hlabel (of_decide_eq_true hnil)
  cases hmax : ((needlesOf args).items.map fun item => item.2.length).max? with
  | none =>
    obtain ⟨v, hv⟩ := List.exists_mem_of_ne_nil args hargs
    have hitem : (v, v) ∈ (needlesOf args).items := mem_needlesOf.mpr ⟨hv, rfl⟩
    rw [List.map_eq_nil_iff.mp (List.max?_eq_none_iff.mp hmax)] at hitem
    cases hitem
  | some longest =>
    have hle : ∀ v ∈ args, v.length ≤ longest := fun v hv =>
      (List.max?_eq_some_iff.mp hmax).2 _
        (List.mem_map.mpr ⟨(v, v), mem_needlesOf.mpr ⟨hv, rfl⟩, rfl⟩)
    obtain ⟨v, hv⟩ := List.exists_mem_of_ne_nil args hargs
    have hpos : 0 < longest := (List.length_pos_of_ne_nil (hne v hv)).trans_le (hle v hv)
    refine ⟨longest - 1, ?_, fun w hw => by have := hle w hw; omega⟩
    rw [searchSetup]
    rw [if_neg hempty, hmax, Nat.cast_sub hpos, Nat.cast_one]

/-! ## The scan -/

/-- `candidate[-n:]`, and nothing if `n` is 0. -/
theorem tail_eq_rtake (candidate : Bytes) (n : ℕ) :
    (if (n : ℤ) ≠ 0 then sliceFrom candidate (-n) else []) = candidate.rtake n := by
  split_ifs with h
  · rw [sliceFrom, List.rtake, sliceIndex, if_pos (by omega)]
    congr 1
    omega
  · rw [show n = 0 by omega, List.rtake_zero]

theorem mem_foldl_addFound {candidate v : Bytes} {items : List (Bytes × Bytes)} :
    ∀ {found : Finset Bytes}, v ∈ items.foldl (addFound candidate) found ↔
      v ∈ found ∨ ∃ needle, (v, needle) ∈ items ∧ needle <:+: candidate := by
  induction items with
  | nil => simp
  | cons item items ih =>
    intro found
    have hstep : v ∈ addFound candidate found item ↔
        v ∈ found ∨ v = item.1 ∧ item.2 <:+: candidate := by
      rw [addFound]
      split_ifs with h
      · rw [Finset.mem_insert]
        tauto
      · refine ⟨.inl, fun hv => hv.elim id ?_⟩
        rintro ⟨rfl, hin⟩
        by_contra hnot
        exact h ⟨hnot, hin⟩
    rw [List.foldl_cons, ih, hstep, or_assoc]
    refine or_congr_right ⟨?_, ?_⟩
    · rintro (⟨rfl, hin⟩ | ⟨needle, hmem, hin⟩)
      · exact ⟨item.2, List.mem_cons_self .., hin⟩
      · exact ⟨needle, List.mem_cons_of_mem _ hmem, hin⟩
    · rintro ⟨needle, hmem, hin⟩
      rcases List.mem_cons.mp hmem with rfl | hmem
      · exact .inl ⟨rfl, hin⟩
      · exact .inr ⟨needle, hmem, hin⟩

/-- What the scan of `args` knows after it has read `content`. -/
structure Scanned (args : List Bytes) (overlap : ℕ) (content : Bytes) (s : FileScan) : Prop where
  tail : s.tail = content.rtake overlap
  found : ∀ v, v ∈ s.foundHere ↔ v ∈ args ∧ v <:+: content
  bytes : s.bytesScanned = content.length

section

variable {args : List Bytes} {overlap : ℕ} {content : Bytes} {s : FileScan}

theorem scanChunk_scanned (hlen : ∀ v ∈ args, v.length ≤ overlap + 1)
    (h : Scanned args overlap content s) (chunk : Bytes) :
    Scanned args overlap (content ++ chunk) (scanChunk (needlesOf args) overlap s chunk) where
  tail := by
    show (if (overlap : ℤ) ≠ 0 then sliceFrom (s.tail ++ chunk) (-overlap) else []) = _
    rw [tail_eq_rtake, h.tail, rtake_rtake_append]
  found v := by
    have hneedle : (∃ needle, (v, needle) ∈ (needlesOf args).items ∧ needle <:+: s.tail ++ chunk) ↔
        v ∈ args ∧ v <:+: s.tail ++ chunk := by
      simp only [mem_needlesOf]
      exact ⟨fun ⟨_, ⟨hv, rfl⟩, hin⟩ => ⟨hv, hin⟩, fun ⟨hv, hin⟩ => ⟨v, ⟨hv, rfl⟩, hin⟩⟩
    show v ∈ (needlesOf args).items.foldl (addFound (s.tail ++ chunk)) s.foundHere ↔ _
    rw [mem_foldl_addFound, hneedle, h.found, ← and_or_left, h.tail]
    exact and_congr_right fun hv => (infix_append_iff (hlen v hv)).symm
  bytes := by
    show s.bytesScanned + chunk.length = _
    rw [h.bytes, List.length_append]

theorem scanReads_scanned (hlen : ∀ v ∈ args, v.length ≤ overlap + 1) :
    ∀ {reads : List Bytes} {content : Bytes} {s : FileScan}, (∀ c ∈ reads, c ≠ []) →
      Scanned args overlap content s →
      Scanned args overlap (content ++ reads.flatten)
        (scanReads (needlesOf args) overlap s reads) := by
  intro reads
  induction reads with
  | nil =>
    intro content s _ h
    rwa [List.flatten_nil, List.append_nil]
  | cons chunk reads ih =>
    intro content s hreads h
    rw [scanReads, if_neg (hreads chunk (List.mem_cons_self ..)), List.flatten_cons,
      ← List.append_assoc]
    exact ih (fun c hc => hreads c (List.mem_cons_of_mem _ hc)) (scanChunk_scanned hlen h chunk)

end

theorem scanned_init {args : List Bytes} {overlap : ℕ} (hne : ∀ v ∈ args, v ≠ []) :
    Scanned args overlap [] ⟨∅, [], 0⟩ where
  tail := (List.rtake_nil overlap).symm
  found v := by
    refine ⟨fun h => absurd h (Finset.notMem_empty v), ?_⟩
    rintro ⟨hv, hin⟩
    exact absurd (List.infix_nil.mp hin) (hne v hv)
  bytes := rfl

/-- For every set of non-empty search strings and every way in which the reads split
    the file, the scan finds the strings that the file contains, and no others. -/
theorem scanFile_finds (args reads : List Bytes) (hargs : args ≠ []) (hne : ∀ v ∈ args, v ≠ [])
    (hreads : ∀ c ∈ reads, c ≠ []) :
    ∃ needles overlap, searchSetup args = .ok (needles, overlap) ∧
      ∀ v, v ∈ (scanFile needles overlap reads).foundHere ↔ v ∈ args ∧ v <:+: reads.flatten := by
  obtain ⟨overlap, hsetup, hlen⟩ := searchSetup_eq_ok hargs hne
  have hscan := scanReads_scanned hlen hreads (scanned_init hne)
  exact ⟨needlesOf args, overlap, hsetup, hscan.found⟩

/-- A string of three bytes over three chunks of one byte, beside one of one byte. -/
theorem scanFile_finds_straddling :
    ∃ needles overlap, searchSetup [ascii "abc", ascii "b"] = .ok (needles, overlap) ∧
      ∀ v, v ∈ (scanFile needles overlap [ascii "a", ascii "b", ascii "c"]).foundHere ↔
        v ∈ [ascii "abc", ascii "b"] ∧ v <:+: [ascii "a", ascii "b", ascii "c"].flatten :=
  scanFile_finds _ _ (by decide) (by decide) (by decide)

end Pro5Android.Stock
