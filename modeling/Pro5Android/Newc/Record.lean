import Pro5Android.Newc.Parse

/-!
# Printing and reading back one newc entry

`record e` is what `serialize` writes for an entry. An entry whose thirteen
numbers all print in 8 characters (`Fits`) is read back from its record by one
iteration of `parse`, whatever stands before (a multiple of 4 bytes) and after
it (`parseEntry_record`). Conversely, when the iteration at the start of a
record returns the entry that was printed, the entry fits
(`fits_of_parseEntry`): a field of nine digits shifts the rest of the header,
and the number read in its place is smaller.
-/

namespace Pro5Android.Newc

open Python

/-! ## Entries that fit -/

/-- All thirteen numbers of the header print in 8 characters. -/
def NewcEntry.Fits (e : NewcEntry) : Prop := ∀ f ∈ e.fields, Fits08x f

instance (e : NewcEntry) : Decidable e.Fits := inferInstanceAs (Decidable (∀ f ∈ e.fields, _))

/-- The magics `parse` accepts. -/
def NewcEntry.MagicOk (e : NewcEntry) : Prop :=
  e.magic = ascii "070701" ∨ e.magic = ascii "070702"

instance (e : NewcEntry) : Decidable e.MagicOk := inferInstanceAs (Decidable (_ ∨ _))

/-- The entry with the hex-case flag `parse` infers from its header. -/
def NewcEntry.recased (e : NewcEntry) : NewcEntry := { e with hexUpper := hasUpper e.header }

/-- Equal up to the hex-case flag. -/
def SameButCase (e e' : NewcEntry) : Prop := { e with hexUpper := e'.hexUpper } = e'

@[simp] theorem path_recased (e : NewcEntry) : e.recased.path = e.path := rfl

theorem sameButCase_recased (e : NewcEntry) : SameButCase e.recased e := rfl

theorem SameButCase.fields_eq {e e' : NewcEntry} (h : SameButCase e e') : e.fields = e'.fields := by
  unfold SameButCase at h
  rw [← h]
  rfl

theorem length_magic {e : NewcEntry} (h : e.MagicOk) : e.magic.length = 6 := by
  rcases h with h | h <;> rw [h] <;> rfl

theorem length_fields (e : NewcEntry) : e.fields.length = 13 := rfl

theorem fits_checksum (e : NewcEntry) : Fits08x e.checksum := by
  unfold NewcEntry.checksum Fits08x
  split_ifs <;> omega

/-! ## The texts of a header -/

/-- The printed fields. -/
def NewcEntry.texts (e : NewcEntry) : List Bytes := e.fields.map (format08x e.hexUpper)

theorem header_eq (e : NewcEntry) : e.header = e.magic ++ e.texts.flatten := by
  rw [NewcEntry.header, NewcEntry.texts, List.flatMap_def]

theorem length_flatten_eight {l : List Bytes} (h : ∀ t ∈ l, t.length = 8) :
    l.flatten.length = 8 * l.length := by
  induction l with
  | nil => rfl
  | cons t l ih =>
    rw [List.flatten_cons, List.length_append, h t (by simp), ih fun s hs => h s (by simp [hs]),
      List.length_cons]
    ring

theorem length_header {e : NewcEntry} (hm : e.MagicOk) (hf : e.Fits) :
    e.header.length = newcHeaderSize := by
  rw [header_eq, List.length_append, length_magic hm, length_flatten_eight]
  · simp [NewcEntry.texts, length_fields, newcHeaderSize]
  · intro t ht
    obtain ⟨f, hf', rfl⟩ := List.mem_map.mp ht
    exact (length_format08x_eq_iff _ _).mpr (hf f hf')

/-- The text `parse` reads for field `i`, when the fields before it have 8
    characters each: the first 8 characters of what stands there. -/
theorem headerField_texts {magic : Bytes} (hm : magic.length = 6) {texts : List Bytes} {i : ℕ}
    (hi : i < texts.length) (h13 : i < 13) (hbefore : ∀ t ∈ texts.take i, t.length = 8)
    (h8 : 8 ≤ texts[i].length) (s : Bytes) :
    headerField ((magic ++ texts.flatten ++ s).take newcHeaderSize) i = texts[i].take 8 := by
  -- cut the header before field `i`
  set before := magic ++ (texts.take i).flatten with hcut
  have hsplit : magic ++ texts.flatten ++ s =
      before ++ (texts[i] ++ ((texts.drop (i + 1)).flatten ++ s)) := by
    conv_lhs => rw [← List.take_append_drop i texts, List.drop_eq_getElem_cons hi]
    rw [List.flatten_append, List.flatten_cons, hcut]
    simp only [List.append_assoc]
  have hlen : before.length = 6 + 8 * i := by
    rw [hcut, List.length_append, hm, length_flatten_eight hbefore, List.length_take]
    omega
  set header := (magic ++ texts.flatten ++ s).take newcHeaderSize with hheader
  have hfield : headerField header i = (header.take (6 + 8 * i + 8)).drop (6 + 8 * i) := by
    rw [headerField]
    exact_mod_cast slice_natCast _ (6 + 8 * i) (6 + 8 * i + 8)
  rw [hfield, hheader, List.take_take, Nat.min_eq_left (by unfold newcHeaderSize; omega), hsplit,
    ← hlen, List.take_length_add_append, List.drop_left, List.take_append_of_le_length h8]

theorem headerField_record {e : NewcEntry} (hm : e.MagicOk) {i : ℕ} (hi : i < e.fields.length)
    (hfit : ∀ j (hj : j < e.fields.length), j < i → Fits08x e.fields[j]) (s : Bytes) :
    headerField ((e.header ++ s).take newcHeaderSize) i =
      (format08x e.hexUpper e.fields[i]).take 8 := by
  have hi' : i < e.texts.length := by simpa [NewcEntry.texts] using hi
  have hget : e.texts[i] = format08x e.hexUpper e.fields[i] := List.getElem_map _
  have hbefore : ∀ t ∈ e.texts.take i, t.length = 8 := by
    intro t ht
    obtain ⟨j, hj, rfl⟩ := List.mem_iff_getElem.mp ht
    simp only [List.length_take, lt_min_iff] at hj
    rw [List.getElem_take]
    simp only [NewcEntry.texts, List.getElem_map]
    exact (length_format08x_eq_iff _ _).mpr (hfit j _ hj.1)
  have hread := headerField_texts (length_magic hm) hi' (length_fields e ▸ hi) hbefore
    (hget ▸ length_format08x _ _) s
  rw [hget, ← header_eq] at hread
  exact hread

/-! ## Reading a block -/

/-- The zeros that pad a text of length `n`. -/
def zeros4 (n : ℕ) : Bytes := List.replicate (align n 4 - n).toNat 0

/-- A block, cut at the end of the header and of the name. -/
theorem block_eq (header name data : Bytes) :
    block header name data = header ++ (name ++ 0 :: (zeros4 (header ++ name ++ [0]).length ++ data ++
      zeros4 (pad4 (header ++ name ++ [0]) ++ data).length)) := by
  have h : block header name data = header ++ name ++ [0] ++
      zeros4 (header ++ name ++ [0]).length ++ data ++
      zeros4 (pad4 (header ++ name ++ [0]) ++ data).length := rfl
  rw [h]
  generalize zeros4 (header ++ name ++ [0]).length = z1
  generalize zeros4 (pad4 (header ++ name ++ [0]) ++ data).length = z2
  simp

section
variable {header : Bytes} (hlen : header.length = newcHeaderSize)
include hlen

/-- The header at the start of a block. -/
theorem slice_header_block (out name data rest : Bytes) :
    slice (out ++ (block header name data ++ rest)) out.length (out.length + newcHeaderSize) =
      header := by
  rw [block_eq, List.append_assoc header, ← List.append_assoc out]
  exact slice_append _ _ _ rfl (by rw [hlen])

/-- The name follows the header. -/
theorem slice_name_block (out name data rest : Bytes) :
    slice (out ++ (block header name data ++ rest)) (out.length + newcHeaderSize)
      (out.length + newcHeaderSize + (name.length + 1) - 1) = name := by
  rw [block_eq, List.append_assoc header, ← List.append_assoc out, List.append_assoc name,
    ← List.append_assoc]
  exact slice_append _ _ _ (by rw [List.length_append, hlen]; push_cast; ring)
    (by rw [List.length_append, hlen]; push_cast; ring)

/-- The offset after a block. -/
theorem nextOffset_block {out : Bytes} (hout : 4 ∣ out.length) (name data : Bytes) :
    nextOffset out.length data.length (name.length + 1) =
      (out ++ block header name data).length := by
  obtain ⟨k, hk⟩ := hout
  rw [List.length_append, block, length_pad4, List.length_append, length_pad4, hk]
  simp only [List.length_append, hlen, List.length_singleton]
  unfold nextOffset align newcHeaderSize
  omega

end

/-- The first 110 bytes from some offset on. -/
theorem slice_header (out s : Bytes) (hlen : newcHeaderSize ≤ s.length) :
    slice (out ++ s) out.length (out.length + newcHeaderSize) = s.take newcHeaderSize := by
  have := slice_append out (s.take newcHeaderSize) (s.drop newcHeaderSize) rfl
    (j := out.length + newcHeaderSize) (by simp [Nat.min_eq_left hlen])
  rwa [List.append_assoc, List.take_append_drop] at this

/-! ## Reading a record -/

/-- **One entry round trip.** The iteration at the start of the record of an
    entry that fits reads that entry. -/
theorem readAt_record {e : NewcEntry} (hm : e.MagicOk) (hu : utf8Valid e.name = true) (hf : e.Fits)
    {out : Bytes} (hout : 4 ∣ out.length) (rest : Bytes) :
    ReadAt (out ++ (record e ++ rest)) out.length e.recased e.data.length (e.name.length + 1)
      e.checksum := by
  have hlen := length_header hm hf
  have hslice : slice (out ++ (record e ++ rest)) out.length (out.length + newcHeaderSize) =
      e.header := slice_header_block hlen out e.name e.data rest
  have hname := slice_name_block hlen out e.name e.data rest
  set z1 := zeros4 (e.header ++ e.name ++ [0]).length with hz1
  set z2 := zeros4 (pad4 (e.header ++ e.name ++ [0]) ++ e.data).length with hz2
  have hrec : record e ++ rest = e.header ++ (e.name ++ 0 :: (z1 ++ e.data ++ z2 ++ rest)) := by
    rw [record, block_eq, ← hz1, ← hz2]; simp [List.append_assoc]
  -- the data starts where the padded name ends
  have hpad : (out ++ pad4 (e.header ++ e.name ++ [0])).length =
      align (out.length + newcHeaderSize + (e.name.length + 1)) 4 := by
    obtain ⟨k, hk⟩ := hout
    rw [List.length_append, length_pad4, hk]
    simp only [List.length_append, hlen, List.length_singleton]
    unfold align newcHeaderSize
    omega
  have hdata : out ++ (record e ++ rest) =
      (out ++ pad4 (e.header ++ e.name ++ [0])) ++ e.data ++ (z2 ++ rest) := by
    rw [hrec, hz1]; simp [pad4, zeros4, List.append_assoc]
  have htotal : (out ++ (record e ++ rest)).length =
      (out ++ pad4 (e.header ++ e.name ++ [0])).length + e.data.length + (z2 ++ rest).length := by
    rw [hdata, List.length_append, List.length_append]
  refine ⟨?_, ?_, hm, ?_, by rw [hslice]; rfl, by omega, ?_, ?_, hname, hu, ?_, ?_⟩
  · rw [hrec]; simp [hlen]; omega
  · rw [hslice, header_eq]
    exact slice_append [] e.magic _ rfl (by simp [length_magic hm])
  · rw [hslice, parseFields_eq_some_iff]
    refine ⟨rfl, fun i hi => ?_⟩
    have hi' : i < e.fields.length := hi
    have hfield := headerField_record hm hi' (fun j hj _ => hf _ (List.getElem_mem hj)) []
    rw [List.append_nil, ← hlen, List.take_length,
      List.take_of_length_le ((length_format08x_eq_iff _ _).mpr (hf _ (List.getElem_mem hi'))).le]
      at hfield
    rw [hfield, int16_format08x]
    exact (List.getElem?_eq_getElem hi').symm
  · rw [hrec]; simp [hlen]; omega
  · rw [hrec, ← List.append_assoc, ← List.append_assoc]
    exact index?_append _ _ _ (by simp [hlen]; ring)
  · rw [← hpad, htotal]; push_cast; omega
  · rw [← hpad, hdata]
    exact slice_append _ _ _ rfl rfl

theorem parseEntry_record {e : NewcEntry} (hm : e.MagicOk) (hu : utf8Valid e.name = true)
    (hf : e.Fits) {out : Bytes} (hout : 4 ∣ out.length) (rest : Bytes) :
    parseEntry (out ++ (record e ++ rest)) out.length =
      .ok (e.recased, ((out ++ record e).length : ℤ)) :=
  parseEntry_eq_ok_iff.mpr ⟨_, _, _, readAt_record hm hu hf hout rest,
    (nextOffset_block (length_header hm hf) hout e.name e.data).symm⟩

/-- **Converse.** If the iteration at the start of a record returns the
    printed entry, every field of the entry fits: by induction over the header,
    as the fields before an overlong one are read where they were printed. -/
theorem fits_of_parseEntry {e e' : NewcEntry} (hm : e.MagicOk) {out rest : Bytes} {next : ℤ}
    (h : parseEntry (out ++ (record e ++ rest)) out.length = .ok (e', next))
    (hsame : SameButCase e' e) : e.Fits := by
  obtain ⟨fileSize, nameSize, check, hread, -⟩ := parseEntry_eq_ok_iff.mp h
  unfold SameButCase at hsame
  have hhead : newcHeaderSize ≤ (record e ++ rest).length := by
    have := hread.header_le
    rw [List.length_append] at this
    push_cast at this
    omega
  have hfields := hread.fields_eq
  rw [slice_header _ _ hhead] at hfields
  obtain ⟨s, hs⟩ : ∃ s, record e ++ rest = e.header ++ s :=
    ⟨_, by rw [record, block_eq, List.append_assoc e.header]⟩
  rw [hs] at hfields
  obtain ⟨-, hfield⟩ := parseFields_eq_some_iff.mp hfields
  have hall : ∀ i, ∀ hi : i < e.fields.length, Fits08x e.fields[i] := by
    intro i
    induction i using Nat.strong_induction_on with
    | _ i ih =>
      intro hi
      have hfit : ∀ j (hj : j < e.fields.length), j < i → Fits08x e.fields[j] :=
        fun j hj hji => ih j hji hj
      have htext := hfield i hi
      rw [headerField_record hm hi hfit] at htext
      by_cases h6 : i = 6
      · -- the size field: the data read has at most as many bytes as it says
        subst h6
        by_contra hnot
        have hbig : (16 : ℤ) ^ 8 ≤ e.data.length := by
          by_contra hsmall
          exact hnot ⟨by simp [NewcEntry.fields]; omega, by simpa [NewcEntry.fields] using hsmall⟩
        obtain ⟨v, hv, hv0, hvlt⟩ := int16_take_format08x e.hexUpper hbig
        have hsize : v = fileSize := Option.some.inj (hv.symm.trans htext)
        have hlen := length_slice_le (out ++ (record e ++ rest))
          (i := align (out.length + newcHeaderSize + nameSize) 4)
          (j := align (out.length + newcHeaderSize + nameSize) 4 + fileSize) (by omega)
        rw [hread.data_eq, ← show e.data = e'.data by rw [← hsame]] at hlen
        omega
      · by_cases h11 : i = 11
        · -- the name size field, in the same way
          subst h11
          by_contra hnot
          have hbig : (16 : ℤ) ^ 8 ≤ (e.name.length : ℤ) + 1 := by
            by_contra hsmall
            exact hnot ⟨by simp [NewcEntry.fields], by simpa [NewcEntry.fields] using hsmall⟩
          obtain ⟨v, hv, hv0, hvlt⟩ := int16_take_format08x e.hexUpper hbig
          have hsize : v = nameSize := Option.some.inj (hv.symm.trans htext)
          have hpos := hread.nameSize_pos
          have hlen := length_slice_le (out ++ (record e ++ rest))
            (i := out.length + newcHeaderSize)
            (j := out.length + newcHeaderSize + nameSize - 1) (by omega)
          rw [hread.name_eq, ← show e.name = e'.name by rw [← hsame]] at hlen
          omega
        · by_cases h12 : i = 12
          · subst h12
            exact fits_checksum e
          · -- every other field is returned unchanged, and was read from 8 bytes
            refine int16_bounds (by rw [List.length_take]; omega) (htext.trans ?_)
            rw [← hsame]
            have h13 : i < 13 := hi
            interval_cases i <;> first | rfl | omega
  intro f hf
  obtain ⟨i, hi, rfl⟩ := List.mem_iff_getElem.mp hf
  exact hall i hi

end Pro5Android.Newc
