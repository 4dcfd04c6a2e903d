import Pro5Android.Newc.Archive

/-!
# `NewcArchive.parse`

Model of `NewcArchive.parse` (`tools/rewrite-newc-ramdisk.py`, lines 120–186).
Every size is a Python integer read by `int16`, so it may be negative and the
cursor `offset` may move backwards, even below zero; slices then count from
the end, as in Python.

The `while True` loop is `parseLoop` with a bound on the number of iterations.
Each iteration that does not leave the loop adds a new path, and every path is
a slice of the input, so `(len + 1)^2 + 1` iterations are never used up
(`parseLoop_isSome`); `parse` is the loop run with that bound.

Results:
* `parseEntry_eq_ok_iff`: what one successful iteration has read.
* `parseLoop_isSome`: the loop ends with an archive or an error.
* `parse_eq_of_parseLoop`: the loop run with any other sufficient bound gives the same.
-/

namespace Pro5Android.Newc

open Python

/-- The exceptions `parse` raises, with what their messages name. -/
inductive ParseError
  /-- `truncated newc header` -/
  | truncatedHeader
  /-- `unsupported newc magic at offset {offset}: {magic!r}` -/
  | unsupportedMagic (offset : ℤ) (magic : Bytes)
  /-- `invalid newc header at offset {offset}` -/
  | invalidHeader (offset : ℤ)
  /-- `invalid newc name size at offset {offset}` -/
  | invalidNameSize (offset : ℤ)
  /-- `truncated newc name at offset {offset}` -/
  | truncatedName (offset : ℤ)
  /-- `IndexError` of `payload[name_end - 1]` -/
  | indexError
  /-- `non-UTF-8 newc name at offset {offset}` -/
  | nonUtf8Name (offset : ℤ)
  /-- `truncated newc data for {path!r}` -/
  | truncatedData (path : Path)
  /-- `duplicate newc path: {path!r}` -/
  | duplicatePath (path : Path)
deriving DecidableEq, Repr

/-- `header[field_offset : field_offset + 8]` for the `i`-th element of
    `range(6, NEWC_HEADER_SIZE, 8)`. -/
def headerField (header : Bytes) (i : ℕ) : Bytes := slice header (6 + 8 * i) (6 + 8 * i + 8)

/-- The tuple `fields` (lines 137–140); `none` is `ValueError`. -/
def parseFields (header : Bytes) : Option (List ℤ) :=
  (List.range 13).mapM fun i => int16 (headerField header i)

/-- `any(byte in b"ABCDEF" for byte in header[6:])` (line 167). -/
def hasUpper (header : Bytes) : Bool := (sliceFrom header 6).any fun b => 65 ≤ b && b ≤ 70

/-- One iteration of the loop up to `entries.append(entry)` (lines 127–181):
    the entry read at `offset`, and the next offset. -/
def parseEntry (payload : Bytes) (offset : ℤ) : Except ParseError (NewcEntry × ℤ) :=
  let headerEnd := offset + newcHeaderSize
  if headerEnd > payload.length then .error .truncatedHeader
  else
    let header := slice payload offset headerEnd
    let magic := slice header 0 6
    if magic ≠ ascii "070701" ∧ magic ≠ ascii "070702" then
      .error (.unsupportedMagic offset magic)
    else match parseFields header with
      | some [inode, mode, uid, gid, links, mtime, fileSize, devMajor, devMinor, rdevMajor,
          rdevMinor, nameSize, _check] =>
        if nameSize < 1 then .error (.invalidNameSize offset)
        else
          let nameEnd := headerEnd + nameSize
          if nameEnd > payload.length then .error (.truncatedName offset)
          else match index? payload (nameEnd - 1) with
            | none => .error .indexError
            | some nul =>
              if nul ≠ 0 then .error (.truncatedName offset)
              else
                let name := slice payload headerEnd (nameEnd - 1)
                if utf8Valid name = false then .error (.nonUtf8Name offset)
                else
                  let dataStart := align nameEnd 4
                  let dataEnd := dataStart + fileSize
                  if dataEnd > payload.length then .error (.truncatedData name)
                  else
                    .ok ({ magic := magic, hexUpper := hasUpper header, inode := inode,
                           mode := mode, uid := uid, gid := gid, links := links,
                           mtime := mtime, devMajor := devMajor, devMinor := devMinor,
                           rdevMajor := rdevMajor, rdevMinor := rdevMinor, name := name,
                           data := slice payload dataStart dataEnd },
                         align dataEnd 4)
      | _ => .error (.invalidHeader offset)

/-- The loop (lines 126–186) run for at most `fuel` iterations on
    `(entries, paths, offset)`; `none` when they are used up. -/
def parseLoop (payload : Bytes) :
    ℕ → List NewcEntry → List Path → ℤ → Option (Except ParseError NewcArchive)
  | 0, _, _, _ => none
  | fuel + 1, entries, seen, offset =>
    match parseEntry payload offset with
    | .error e => some (.error e)
    | .ok (entry, next) =>
      if entry.path = trailerPath then
        some (.ok { entries := entries ++ [entry], tail := sliceFrom payload next })
      else if entry.path ∈ seen then some (.error (.duplicatePath entry.path))
      else parseLoop payload fuel (entries ++ [entry]) (entry.path :: seen) next

/-! ## One iteration -/

/-- What a successful iteration at `offset` has read: `e`, from a header with
    the fields `fileSize`, `nameSize` and `check`. -/
structure ReadAt (payload : Bytes) (offset : ℤ) (e : NewcEntry)
    (fileSize nameSize check : ℤ) : Prop where
  header_le : offset + newcHeaderSize ≤ payload.length
  magic_eq : slice (slice payload offset (offset + newcHeaderSize)) 0 6 = e.magic
  magic_ok : e.magic = ascii "070701" ∨ e.magic = ascii "070702"
  fields_eq : parseFields (slice payload offset (offset + newcHeaderSize)) =
    some [e.inode, e.mode, e.uid, e.gid, e.links, e.mtime, fileSize, e.devMajor, e.devMinor,
      e.rdevMajor, e.rdevMinor, nameSize, check]
  hexUpper_eq : hasUpper (slice payload offset (offset + newcHeaderSize)) = e.hexUpper
  nameSize_pos : 1 ≤ nameSize
  name_le : offset + newcHeaderSize + nameSize ≤ payload.length
  name_nul : index? payload (offset + newcHeaderSize + nameSize - 1) = some 0
  name_eq : slice payload (offset + newcHeaderSize)
    (offset + newcHeaderSize + nameSize - 1) = e.name
  name_utf8 : utf8Valid e.name = true
  data_le : align (offset + newcHeaderSize + nameSize) 4 + fileSize ≤ payload.length
  data_eq : slice payload (align (offset + newcHeaderSize + nameSize) 4)
    (align (offset + newcHeaderSize + nameSize) 4 + fileSize) = e.data

/-- The offset after an entry with these sizes. -/
def nextOffset (offset fileSize nameSize : ℤ) : ℤ :=
  align (align (offset + newcHeaderSize + nameSize) 4 + fileSize) 4

/-- A check that passes. -/
theorem ite_error_eq_ok {ε α : Type*} {c : Prop} [Decidable c] {e : ε} {x : Except ε α} {v : α} :
    (if c then .error e else x) = .ok v ↔ ¬ c ∧ x = .ok v := by
  by_cases h : c
  · rw [if_pos h]
    refine iff_of_false (fun heq => ?_) fun hx => hx.1 h
    cases heq
  · rw [if_neg h, and_iff_right h]

theorem parseEntry_eq_ok_iff {payload : Bytes} {offset next : ℤ} {e : NewcEntry} :
    parseEntry payload offset = .ok (e, next) ↔
      ∃ fileSize nameSize check, ReadAt payload offset e fileSize nameSize check ∧
        next = nextOffset offset fileSize nameSize := by
  constructor
  · intro h
    unfold parseEntry at h
    dsimp only at h
    obtain ⟨h1, h⟩ := ite_error_eq_ok.mp h
    obtain ⟨h2, h⟩ := ite_error_eq_ok.mp h
    split at h
    · rename_i inode mode uid gid links mtime fileSize devMajor devMinor rdevMajor rdevMinor
        nameSize check hfields
      obtain ⟨h3, h⟩ := ite_error_eq_ok.mp h
      obtain ⟨h4, h⟩ := ite_error_eq_ok.mp h
      cases hnul : index? payload (offset + newcHeaderSize + nameSize - 1) with
      | none =>
        rw [hnul] at h
        cases h
      | some nul =>
        rw [hnul] at h
        obtain ⟨h5, h⟩ := ite_error_eq_ok.mp h
        obtain ⟨h6, h⟩ := ite_error_eq_ok.mp h
        obtain ⟨h7, h⟩ := ite_error_eq_ok.mp h
        simp only [Except.ok.injEq, Prod.mk.injEq] at h
        obtain ⟨rfl, rfl⟩ := h
        refine ⟨fileSize, nameSize, check, ?_, rfl⟩
        exact ⟨by omega, rfl, or_iff_not_and_not.mpr h2, hfields, rfl, by omega, by omega,
          by simpa [hnul] using h5, rfl, by simpa using h6, by omega, rfl⟩
    · cases h
  · rintro ⟨fileSize, nameSize, check, h, rfl⟩
    have h2 : ¬ (e.magic ≠ ascii "070701" ∧ e.magic ≠ ascii "070702") :=
      or_iff_not_and_not.mp h.magic_ok
    have hutf8 : ¬ utf8Valid e.name = false := by simp [h.name_utf8]
    unfold parseEntry
    dsimp only
    rw [if_neg (by have := h.header_le; omega), h.magic_eq, if_neg h2, h.fields_eq]
    dsimp only
    rw [if_neg (by have := h.nameSize_pos; omega), if_neg (by have := h.name_le; omega), h.name_nul]
    dsimp only
    rw [if_neg (by simp), h.name_eq, if_neg hutf8, if_neg (by have := h.data_le; omega),
      h.data_eq, h.hexUpper_eq]
    rfl

theorem mapM_eq_some_iff {α β : Type} {f : α → Option β} {l : List α} {r : List β} :
    l.mapM f = some r ↔ r.length = l.length ∧ ∀ i (h : i < l.length), f l[i] = r[i]? := by
  induction l generalizing r with
  | nil => cases r <;> simp
  | cons a l ih =>
    rw [List.mapM_cons]
    cases ha : f a with
    | none =>
      refine ⟨fun h => (by cases h), fun ⟨hlen, h⟩ => ?_⟩
      have h0 := h 0 (by simp)
      rw [List.getElem_cons_zero, ha, List.getElem?_eq_getElem (by rw [hlen]; simp)] at h0
      cases h0
    | some b =>
      cases r with
      | nil =>
        refine ⟨fun h => ?_, fun ⟨hlen, _⟩ => by simp at hlen⟩
        cases hm : l.mapM f <;> rw [hm] at h <;> cases h
      | cons c r =>
        have hcons : (do let b ← some b; let bs ← l.mapM f; pure (b :: bs)) = some (c :: r) ↔
            b = c ∧ l.mapM f = some r := by
          cases hm : l.mapM f <;> simp
        rw [hcons, ih]
        constructor
        · rintro ⟨rfl, hlen, h⟩
          refine ⟨by simp [hlen], fun i hi => ?_⟩
          cases i with
          | zero => simp [ha]
          | succ i => simpa using h i (by simpa using hi)
        · rintro ⟨hlen, h⟩
          refine ⟨?_, by simpa using hlen, fun i hi => ?_⟩
          · have h0 := h 0 (by simp)
            rw [List.getElem_cons_zero, ha] at h0
            simpa using h0
          · have hs := h (i + 1) (by simpa using hi)
            rwa [List.getElem_cons_succ, List.getElem?_cons_succ] at hs

/-- `parseFields` reads the thirteen texts one by one. -/
theorem parseFields_eq_some_iff {header : Bytes} {fields : List ℤ} :
    parseFields header = some fields ↔
      fields.length = 13 ∧ ∀ i < 13, int16 (headerField header i) = fields[i]? := by
  rw [parseFields, mapM_eq_some_iff]
  simp

/-- The path an iteration reads is a slice of the input. -/
theorem parseEntry_path_mem {payload : Bytes} {offset next : ℤ} {e : NewcEntry}
    (h : parseEntry payload offset = .ok (e, next)) : e.path ∈ slices payload := by
  obtain ⟨_, _, _, hread, -⟩ := parseEntry_eq_ok_iff.mp h
  rw [NewcEntry.path, ← hread.name_eq]
  exact slice_mem_slices _ _ _

/-! ## Termination -/

/-- The number of iterations `parse` allows. -/
def parseFuel (payload : Bytes) : ℕ := (payload.length + 1) * (payload.length + 1) + 1

/-- The paths seen so far are distinct slices of the input, so the loop stops
    before it has seen more of them than there are slices. -/
theorem parseLoop_isSome_of_seen (payload : Bytes) : ∀ fuel entries seen offset,
    seen.Nodup → (∀ p ∈ seen, p ∈ slices payload) → parseFuel payload ≤ seen.length + fuel →
    (parseLoop payload fuel entries seen offset).isSome := by
  intro fuel
  induction fuel with
  | zero =>
    intro entries seen offset hnodup hmem hfuel
    have hcard : seen.length ≤ (slices payload).card := by
      rw [← List.toFinset_card_of_nodup hnodup]
      exact Finset.card_le_card fun p hp => hmem p (List.mem_toFinset.mp hp)
    have := card_slices_le payload
    unfold parseFuel at hfuel
    omega
  | succ fuel ih =>
    intro entries seen offset hnodup hmem hfuel
    rw [parseLoop]
    split
    · rfl
    · rename_i entry next hentry
      split_ifs with htrailer hseen
      · rfl
      · rfl
      · refine ih _ _ _ (List.nodup_cons.mpr ⟨hseen, hnodup⟩) ?_ (by simp; omega)
        intro p hp
        rcases List.mem_cons.mp hp with rfl | hp
        · exact parseEntry_path_mem hentry
        · exact hmem p hp

theorem parseLoop_isSome (payload : Bytes) :
    (parseLoop payload (parseFuel payload) [] [] 0).isSome :=
  parseLoop_isSome_of_seen payload _ _ _ _ List.nodup_nil (by simp) (by simp)

/-- `NewcArchive.parse` (lines 120–186). -/
def NewcArchive.parse (payload : Bytes) : Except ParseError NewcArchive :=
  (parseLoop payload (parseFuel payload) [] [] 0).get (parseLoop_isSome payload)

/-- More iterations do not change the result. -/
theorem parseLoop_mono {payload : Bytes} {r : Except ParseError NewcArchive} :
    ∀ {fuel fuel' : ℕ} {entries seen offset}, fuel ≤ fuel' →
      parseLoop payload fuel entries seen offset = some r →
      parseLoop payload fuel' entries seen offset = some r := by
  intro fuel
  induction fuel with
  | zero => intro fuel' entries seen offset _ h; cases h
  | succ fuel ih =>
    intro fuel' entries seen offset hle h
    obtain ⟨k, rfl⟩ : ∃ k, fuel' = k + 1 := ⟨fuel' - 1, by omega⟩
    rw [parseLoop] at h ⊢
    split at h
    · exact h
    · split_ifs at h ⊢
      · exact h
      · exact h
      · exact ih (by omega) h

/-- The loop run with any bound under which it ends gives `parse`. -/
theorem parse_eq_of_parseLoop {payload : Bytes} {fuel : ℕ} {r : Except ParseError NewcArchive}
    (h : parseLoop payload fuel [] [] 0 = some r) : NewcArchive.parse payload = r := by
  obtain ⟨r', hr'⟩ := Option.isSome_iff_exists.mp (parseLoop_isSome payload)
  have h1 := parseLoop_mono (Nat.le_max_left fuel (parseFuel payload)) h
  have h2 := parseLoop_mono (Nat.le_max_right fuel (parseFuel payload)) hr'
  rw [h1] at h2
  simp only [NewcArchive.parse, hr', Option.get_some]
  exact (Option.some.inj h2).symm

theorem parseLoop_parse (payload : Bytes) :
    parseLoop payload (parseFuel payload) [] [] 0 = some (NewcArchive.parse payload) := by
  rw [NewcArchive.parse, Option.some_get]

end Pro5Android.Newc
