import Pro5Android.Newc.RoundTrip

/-!
# What the round-trip gate accepts

`Canonical` states the newc format without reference to `parse` and
`serialize`: a tiling of the input by raw entries whose thirteen fields are
8 hexadecimal digits each. `main` takes an input as newc when it serializes
back to itself, and `int(text, 16)` also reads a sign: a field such as
`-0000001` is read as a negative number and printed again as it stood.

Results:
* `Canonical.noSign`: no header of a canonical stream has a sign.
* `headerAt_record`: under the gate, the headers are where the records start.
* `gate_canonical_iff`: an accepted input is canonical just when no header
  has a sign.
-/

namespace Pro5Android.Newc

open Python

/-! ## The format -/

/-- One entry of a canonical stream: a magic of 6 bytes, 13 fields of 8
    hexadecimal digits, and a name and data of the sizes the fields say. -/
structure RawEntry where
  magic : Bytes
  fields : List Bytes
  name : Bytes
  data : Bytes
  magic_newc : magic = ascii "070701" ∨ magic = ascii "070702"
  fields_length : fields.length = 13
  fields_hex : ∀ f ∈ fields, f.length = 8 ∧ IsHex f
  file_size : fields[6]?.map hexValue = some data.length
  name_size : fields[11]?.map hexValue = some (name.length + 1)

namespace RawEntry

def header (e : RawEntry) : Bytes := e.magic ++ e.fields.flatten

def bytes (e : RawEntry) : Bytes := block e.header e.name e.data

theorem length_magic (e : RawEntry) : e.magic.length = 6 := by
  rcases e.magic_newc with h | h <;> rw [h] <;> rfl

theorem length_header (e : RawEntry) : e.header.length = newcHeaderSize := by
  rw [header, List.length_append, e.length_magic, length_flatten_eight fun f hf => (e.fields_hex f hf).1,
    e.fields_length]
  rfl

theorem no_sign (e : RawEntry) : 45 ∉ e.header := by
  intro h
  rcases List.mem_append.mp h with h | h
  · rcases e.magic_newc with hm | hm <;> rw [hm] at h <;> revert h <;> decide
  · obtain ⟨f, hf, hb⟩ := List.mem_flatten.mp h
    exact (e.fields_hex f hf).2.not_mem_minus hb

/-- The text at the place of field `i` is field `i`. -/
theorem headerField_header (e : RawEntry) {i : ℕ} (hi' : i < e.fields.length) :
    headerField e.header i = e.fields[i] := by
  have hi : i < 13 := e.fields_length ▸ hi'
  have h8 : ∀ f ∈ e.fields, f.length = 8 := fun f hf => (e.fields_hex f hf).1
  have hread := headerField_texts e.length_magic hi' hi (fun t ht => h8 t (List.mem_of_mem_take ht))
    (h8 _ (List.getElem_mem hi')).ge []
  rw [List.append_nil, ← header, List.take_of_length_le e.length_header.le,
    List.take_of_length_le (h8 _ (List.getElem_mem hi')).le] at hread
  exact hread

/-- The number read at the place of field `i`. -/
theorem int16_headerField (e : RawEntry) {i n : ℕ} (hi : i < 13)
    (h : e.fields[i]?.map hexValue = some n) : int16 (headerField e.header i) = some (n : ℤ) := by
  have hi' : i < e.fields.length := by rw [e.fields_length]; exact hi
  obtain ⟨hlen, hhex⟩ := e.fields_hex _ (List.getElem_mem hi')
  rw [List.getElem?_eq_getElem hi', Option.map_some, Option.some.injEq] at h
  rw [e.headerField_header hi', int16_hex hhex, h]
  rw [← List.length_pos_iff, hlen]
  norm_num

end RawEntry

theorem four_dvd_length_bytes (l : List RawEntry) : 4 ∣ (l.flatMap RawEntry.bytes).length := by
  induction l with
  | nil => simp
  | cons e es ih =>
    rw [List.flatMap_cons, List.length_append]
    exact Nat.dvd_add (four_dvd_length_block _ _ _) ih

/-- A canonical newc stream: entries tile it up to and including the only
    `TRAILER!!!` entry, and a tail follows. -/
def Canonical (p : Bytes) : Prop :=
  ∃ (init : List RawEntry) (trailer : RawEntry) (tail : Bytes),
    (∀ e ∈ init, e.name ≠ trailerPath) ∧ trailer.name = trailerPath ∧
      p = (init ++ [trailer]).flatMap RawEntry.bytes ++ tail

/-! ## The headers of an input -/

/-- The offsets at which `p` has headers: the first at 0, each next one after
    the name and the data of an entry that is not the trailer, whose sizes are
    the numbers in its header. -/
inductive HeaderAt (p : Bytes) : ℤ → Prop
  | first : HeaderAt p 0
  | next {offset fileSize nameSize : ℤ} : HeaderAt p offset →
      int16 (headerField (slice p offset (offset + newcHeaderSize)) 6) = some fileSize →
      int16 (headerField (slice p offset (offset + newcHeaderSize)) 11) = some nameSize →
      slice p (offset + newcHeaderSize) (offset + newcHeaderSize + nameSize - 1) ≠ trailerPath →
      HeaderAt p (nextOffset offset fileSize nameSize)

/-- No header of `p` contains the byte `-`. -/
def NoSign (p : Bytes) : Prop :=
  ∀ offset, HeaderAt p offset → 45 ∉ slice p offset (offset + newcHeaderSize)

/-- **Headers of a canonical stream** start where its entries do: by induction
    along the headers; an entry that is not the trailer has a next one. -/
theorem headerAt_bytes {init : List RawEntry} {trailer : RawEntry} {tail : Bytes}
    (htrailer : trailer.name = trailerPath) {offset : ℤ}
    (h : HeaderAt ((init ++ [trailer]).flatMap RawEntry.bytes ++ tail) offset) :
    ∃ pre e post, init ++ [trailer] = pre ++ e :: post ∧
      offset = (pre.flatMap RawEntry.bytes).length := by
  induction h with
  | first =>
    cases init with
    | nil => exact ⟨[], trailer, [], rfl, rfl⟩
    | cons e init => exact ⟨[], e, init ++ [trailer], rfl, rfl⟩
  | @next offset fileSize nameSize _ hfile hname hne ih =>
    obtain ⟨pre, e, post, hsplit, rfl⟩ := ih
    have hp : (init ++ [trailer]).flatMap RawEntry.bytes ++ tail = pre.flatMap RawEntry.bytes ++
        (block e.header e.name e.data ++ (post.flatMap RawEntry.bytes ++ tail)) := by
      rw [hsplit, List.flatMap_append, List.flatMap_cons, RawEntry.bytes]
      simp only [List.append_assoc]
    rw [hp] at hfile hname hne
    rw [slice_header_block e.length_header, e.int16_headerField (by norm_num) e.file_size] at hfile
    rw [slice_header_block e.length_header, e.int16_headerField (by norm_num) e.name_size] at hname
    obtain rfl : (e.data.length : ℤ) = fileSize := Option.some.inj hfile
    obtain rfl : ((e.name.length + 1 : ℕ) : ℤ) = nameSize := Option.some.inj hname
    push_cast at hne ⊢
    rw [slice_name_block e.length_header] at hne
    rw [nextOffset_block e.length_header (four_dvd_length_bytes pre)]
    cases post with
    | nil =>
      -- `e` would be the trailer
      have := congrArg List.getLast? hsplit
      simp only [List.getLast?_append, List.getLast?_singleton, Option.some_or,
        Option.some.injEq] at this
      exact absurd (this ▸ htrailer) hne
    | cons e' post =>
      refine ⟨pre ++ [e], e', post, by simp [hsplit], ?_⟩
      simp [RawEntry.bytes]

/-- **Main direction.** A canonical stream has no sign in a header. -/
theorem Canonical.noSign {p : Bytes} (h : Canonical p) : NoSign p := by
  obtain ⟨init, trailer, tail, -, htrailer, rfl⟩ := h
  intro offset hat
  obtain ⟨pre, e, post, hsplit, rfl⟩ := headerAt_bytes htrailer hat
  rw [hsplit, List.flatMap_append, List.flatMap_cons, List.append_assoc, List.append_assoc,
    RawEntry.bytes, slice_header_block e.length_header]
  exact e.no_sign

/-! ## Accepted inputs -/

/-- Under the gate, every entry's record starts at a header. -/
theorem headerAt_record {p : Bytes} {a : NewcArchive} (h : Gate p a) :
    ∀ pre e post, a.entries = pre ++ e :: post → HeaderAt p (pre.flatMap record).length := by
  intro pre
  induction pre using List.reverseRecOn with
  | nil => intro e post _; exact .first
  | append_singleton pre d ih =>
    intro e post hsplit
    have hsplit' : a.entries = pre ++ d :: (e :: post) := by simpa using hsplit
    have hd : d ∈ a.entries := by rw [hsplit']; simp
    have hlen := length_header (h.wellFormed.magic_ok d hd) (h.fits d hd)
    have hread := readAt_record (h.wellFormed.magic_ok d hd) (h.wellFormed.name_utf8 d hd)
      (h.fits d hd) (four_dvd_length_records pre) ((e :: post).flatMap record ++ a.tail)
    have hp : p = pre.flatMap record ++ (record d ++ ((e :: post).flatMap record ++ a.tail)) := by
      rw [← h.round_trips, serialize_eq, hsplit', List.flatMap_append, List.flatMap_cons]
      simp only [List.append_assoc]
    rw [← hp] at hread
    have hfields := (parseFields_eq_some_iff.mp hread.fields_eq).2
    have hne : d.name ≠ trailerPath := h.wellFormed.ne_trailer hsplit'
    have hnext := HeaderAt.next (ih d (e :: post) hsplit') (hfields 6 (by norm_num))
      (hfields 11 (by norm_num)) (by rw [hread.name_eq]; exact hne)
    rw [nextOffset_block hlen (four_dvd_length_records pre)] at hnext
    rw [List.flatMap_append, List.flatMap_singleton]
    exact hnext

/-- The raw entry an entry without negative fields prints. -/
def NewcEntry.raw (e : NewcEntry) (hm : e.MagicOk) (hf : e.Fits) (h0 : ∀ f ∈ e.fields, 0 ≤ f) :
    RawEntry where
  magic := e.magic
  fields := e.texts
  name := e.name
  data := e.data
  magic_newc := hm
  fields_length := by rw [NewcEntry.texts, List.length_map, length_fields]
  fields_hex t ht := by
    obtain ⟨f, hmem, rfl⟩ := List.mem_map.mp ht
    exact ⟨(length_format08x_eq_iff _ _).mpr (hf f hmem), (isHex_format08x_iff _ _).mpr (h0 f hmem)⟩
  file_size := congrArg some (hexValue_format08x e.hexUpper e.data.length)
  name_size := congrArg some (hexValue_format08x e.hexUpper (e.name.length + 1))

/-- Under the gate, no header has a sign just when no field is negative. -/
theorem nonneg_of_noSign {p : Bytes} {a : NewcArchive} (h : Gate p a) (hsign : NoSign p) :
    ∀ e ∈ a.entries, ∀ f ∈ e.fields, 0 ≤ f := by
  intro e he f hf
  obtain ⟨pre, post, hsplit⟩ := List.append_of_mem he
  have hp : p = pre.flatMap record ++ (record e ++ (post.flatMap record ++ a.tail)) := by
    rw [← h.round_trips, serialize_eq, hsplit, List.flatMap_append, List.flatMap_cons]
    simp only [List.append_assoc]
  have hheader := hsign _ (headerAt_record h pre e post hsplit)
  rw [hp, record, slice_header_block (length_header (h.wellFormed.magic_ok e he) (h.fits e he))]
    at hheader
  by_contra hneg
  refine hheader (List.mem_append_right _ (List.mem_flatMap.mpr ⟨f, hf, ?_⟩))
  exact (minus_mem_format08x_iff _ _).mpr (by omega)

/-- An archive of entries that fit, without negative fields, serializes to a
    canonical stream. -/
theorem canonical_serialize {a : NewcArchive} (hw : WellFormed a) (hf : a.Fits)
    (h0 : ∀ e ∈ a.entries, ∀ f ∈ e.fields, 0 ≤ f) : Canonical a.serialize := by
  have hraw : ∀ l : List NewcEntry, (∀ e ∈ l, e ∈ a.entries) → ∃ raws : List RawEntry,
      raws.flatMap RawEntry.bytes = l.flatMap record ∧ ∀ r ∈ raws, ∃ e ∈ l, r.name = e.name := by
    intro l
    induction l with
    | nil => exact fun _ => ⟨[], rfl, by simp⟩
    | cons e l ih =>
      intro hl
      obtain ⟨raws, hbytes, hnames⟩ := ih fun d hd => hl d (by simp [hd])
      have he := hl e (by simp)
      refine ⟨e.raw (hw.magic_ok e he) (hf e he) (h0 e he) :: raws, ?_, ?_⟩
      · rw [List.flatMap_cons, List.flatMap_cons, hbytes, RawEntry.bytes, RawEntry.header, record,
          header_eq]
        rfl
      · intro r hr
        rcases List.mem_cons.mp hr with rfl | hr
        · exact ⟨e, by simp, rfl⟩
        · obtain ⟨d, hd, hname⟩ := hnames r hr
          exact ⟨d, by simp [hd], hname⟩
  obtain ⟨init, t, hentries, ht⟩ := hw.trailer_last
  have hmem : t ∈ a.entries := by rw [hentries]; simp
  obtain ⟨raws, hbytes, hnames⟩ := hraw init fun e he => by rw [hentries]; simp [he]
  refine ⟨raws, t.raw (hw.magic_ok t hmem) (hf t hmem) (h0 t hmem), a.tail, ?_, ht, ?_⟩
  · intro r hr
    obtain ⟨e, he, hname⟩ := hnames r hr
    rw [hname]
    exact hw.init_ne hentries ht e he
  · rw [serialize_eq, hentries, List.flatMap_append, List.flatMap_append, hbytes,
      List.flatMap_singleton, List.flatMap_singleton, RawEntry.bytes, RawEntry.header, record,
      header_eq]
    rfl

/-- **The gate is exact up to signs.** An input `main` accepts is a canonical
    newc stream if and only if no header has a sign. -/
theorem gate_canonical_iff {p : Bytes} {a : NewcArchive} (h : Gate p a) :
    Canonical p ↔ NoSign p := by
  refine ⟨Canonical.noSign, fun hsign => ?_⟩
  rw [← h.round_trips]
  exact canonical_serialize h.wellFormed h.fits (nonneg_of_noSign h hsign)

theorem gate_canonical_iff_file :
    Canonical fileArchive.serialize ↔ NoSign fileArchive.serialize :=
  gate_canonical_iff gate_fileArchive

/-- A trailer whose inode field is `-0000001`. -/
def signedPayload : Bytes :=
  ascii "070701-0000001000000000000000000000000000000010000000000000000" ++
    ascii "000000000000000000000000000000000000000b00000000TRAILER!!!" ++ [0, 0, 0, 0]

theorem gate_accepts_sign :
    Gate signedPayload ⟨[{ trailerEntry with inode := -1 }], []⟩ ∧ ¬ Canonical signedPayload := by
  constructor
  · have hpayload : signedPayload =
        NewcArchive.serialize ⟨[{ trailerEntry with inode := -1 }], []⟩ := by decide +kernel
    rw [hpayload]
    refine gate_serialize ⟨by decide, ?_, by decide, [], _, rfl, by decide⟩ (by decide) (by decide)
    intro e he
    rw [List.mem_singleton.mp he]
    exact utf8Valid_of_ascii (by decide)
  · intro h
    have := h.noSign 0 .first
    revert this
    decide +kernel

end Pro5Android.Newc
