import Pro5Android.Newc.Record

/-!
# Round trips of whole newc archives

Results:
* `parse_serialize`: a well-formed archive that fits is read back as
  `recased`, the same archive with the hex-case flags the reader infers.
* `fits_of_parse_serialize`: if a serialization is read back as the archive it
  came from (up to the hex-case flags), the archive fits.
* `wellFormed_of_parse`: what `parse` accepts is well formed.
* `Gate.fits`: what passes the round-trip gate of `main` fits.
* `newc_round_trip`: the round trip under the format's own conditions, with
  the hex-case flag kept by every header that shows it.
-/

namespace Pro5Android.Newc

open Python

/-! ## Well-formed archives -/

/-- Every entry of the archive fits. -/
def NewcArchive.Fits (a : NewcArchive) : Prop := ∀ e ∈ a.entries, e.Fits

instance (a : NewcArchive) : Decidable a.Fits := inferInstanceAs (Decidable (∀ e ∈ a.entries, _))

/-- The archive with the hex-case flags `parse` infers. -/
def NewcArchive.recased (a : NewcArchive) : NewcArchive :=
  { a with entries := a.entries.map NewcEntry.recased }

/-- Equal up to the hex-case flags. -/
structure SameArchive (a a' : NewcArchive) : Prop where
  entries : List.Forall₂ SameButCase a.entries a'.entries
  tail : a.tail = a'.tail

/-- What `parse` guarantees: known magics, distinct decodable names, and the
    trailer as the last entry (and only there, as names are distinct). -/
structure WellFormed (a : NewcArchive) : Prop where
  magic_ok : ∀ e ∈ a.entries, e.MagicOk
  name_utf8 : ∀ e ∈ a.entries, utf8Valid e.name = true
  nodup : (paths a.entries).Nodup
  trailer_last : ∃ init t, a.entries = init ++ [t] ∧ t.path = trailerPath

theorem mem_paths {entries : List NewcEntry} {p : Path} :
    p ∈ paths entries ↔ ∃ e ∈ entries, e.path = p :=
  List.mem_map

theorem sameArchive_recased (a : NewcArchive) : SameArchive a.recased a := by
  refine ⟨?_, rfl⟩
  rw [NewcArchive.recased, List.forall₂_map_left_iff]
  exact List.forall₂_same.mpr fun e _ => sameButCase_recased e

/-- Two entries of one archive with the same path are the same entry. -/
theorem eq_of_path_eq {entries : List NewcEntry} (h : (paths entries).Nodup) {e e' : NewcEntry}
    (he : e ∈ entries) (he' : e' ∈ entries) (hp : e.path = e'.path) : e = e' :=
  List.inj_on_of_nodup_map h he he' hp

theorem WellFormed.init_ne {a : NewcArchive} (h : WellFormed a) {init : List NewcEntry}
    {t : NewcEntry} (hentries : a.entries = init ++ [t]) (ht : t.path = trailerPath) :
    ∀ e ∈ init, e.path ≠ trailerPath := by
  have hnodup := h.nodup
  rw [hentries, paths, List.map_append] at hnodup
  intro e he hp
  exact (List.nodup_append.mp hnodup).2.2 e.path (List.mem_map_of_mem he) t.path (by simp)
    (hp.trans ht.symm)

/-- An entry with another one behind it is not the trailer. -/
theorem WellFormed.ne_trailer {a : NewcArchive} (h : WellFormed a) {pre post : List NewcEntry}
    {d e : NewcEntry} (hsplit : a.entries = pre ++ d :: e :: post) : d.path ≠ trailerPath := by
  obtain ⟨init, t, hentries, ht⟩ := h.trailer_last
  have hinit : pre ++ d :: (e :: post).dropLast = init := by
    have := congrArg List.dropLast (hsplit.symm.trans hentries)
    rwa [List.dropLast_concat, List.dropLast_append_of_ne_nil (by simp),
      List.dropLast_cons_of_ne_nil (by simp)] at this
  exact h.init_ne hentries ht d (by rw [← hinit]; simp)

/-! ## The loop over records -/

/-- One iteration of the loop that ends in an archive. -/
theorem parseLoop_succ_ok {payload : Bytes} {fuel : ℕ} {entries : List NewcEntry}
    {seen : List Path} {offset : ℤ} {a : NewcArchive} :
    parseLoop payload (fuel + 1) entries seen offset = some (.ok a) ↔
      ∃ e next, parseEntry payload offset = .ok (e, next) ∧
        (e.path = trailerPath ∧ a = ⟨entries ++ [e], sliceFrom payload next⟩ ∨
          e.path ≠ trailerPath ∧ e.path ∉ seen ∧
            parseLoop payload fuel (entries ++ [e]) (e.path :: seen) next = some (.ok a)) := by
  rw [parseLoop]
  cases parseEntry payload offset with
  | error err => simp
  | ok r =>
    obtain ⟨e, next⟩ := r
    simp only [Except.ok.injEq, Prod.mk.injEq]
    by_cases ht : e.path = trailerPath
    · rw [if_pos ht]
      simp [ht, eq_comm]
    · rw [if_neg ht]
      by_cases hs : e.path ∈ seen
      · rw [if_pos hs]
        simp [ht, hs]
      · rw [if_neg hs]
        simp [ht, hs]

/-- The loop only appends to the entries read so far. -/
theorem parseLoop_prefix {payload : Bytes} {a : NewcArchive} : ∀ {fuel entries seen offset},
    parseLoop payload fuel entries seen offset = some (.ok a) →
      ∃ more, more ≠ [] ∧ a.entries = entries ++ more := by
  intro fuel
  induction fuel with
  | zero => intro entries seen offset h; cases h
  | succ fuel ih =>
    intro entries seen offset h
    obtain ⟨e, next, -, ⟨-, rfl⟩ | ⟨-, -, h⟩⟩ := parseLoop_succ_ok.mp h
    · exact ⟨[e], by simp, rfl⟩
    · obtain ⟨more, -, hmore⟩ := ih h
      exact ⟨e :: more, by simp, by simp [hmore]⟩

/-- Reading the records of entries that fit, the last of which is the first
    trailer, after `out` has been read. -/
theorem parseLoop_records {t : NewcEntry} (htrailer : t.path = trailerPath) (tail : Bytes) :
    ∀ (es : List NewcEntry) (out : Bytes) (acc : List NewcEntry) (seen : List Path),
      4 ∣ out.length →
      (∀ e ∈ es ++ [t], e.MagicOk ∧ utf8Valid e.name = true ∧ e.Fits) →
      (∀ e ∈ es, e.path ≠ trailerPath) → (paths es).Nodup → (∀ e ∈ es, e.path ∉ seen) →
      parseLoop (out ++ ((es ++ [t]).flatMap record ++ tail)) (es.length + 1) acc seen out.length =
        some (.ok ⟨acc ++ (es ++ [t]).map NewcEntry.recased, tail⟩) := by
  intro es
  induction es with
  | nil =>
    intro out acc seen hout hok _ _ _
    obtain ⟨hm, hu, hf⟩ := hok t (by simp)
    have hentry := parseEntry_record hm hu hf hout tail
    simp only [List.nil_append, List.flatMap_cons, List.flatMap_nil, List.append_nil]
    refine parseLoop_succ_ok.mpr ⟨_, _, hentry, .inl ⟨htrailer, ?_⟩⟩
    rw [← List.append_assoc, sliceFrom_append _ _ rfl]
    rfl
  | cons e es ih =>
    intro out acc seen hout hok hne hnodup hseen
    obtain ⟨hm, hu, hf⟩ := hok e (by simp)
    have hentry := parseEntry_record hm hu hf hout ((es ++ [t]).flatMap record ++ tail)
    have hpayload : out ++ ((e :: es ++ [t]).flatMap record ++ tail) =
        out ++ (record e ++ ((es ++ [t]).flatMap record ++ tail)) := by
      simp [List.append_assoc]
    obtain ⟨hnotin, hnodup⟩ := List.nodup_cons.mp hnodup
    have hrest := ih (out ++ record e) (acc ++ [e.recased]) (e.path :: seen)
      (by rw [List.length_append]; exact Nat.dvd_add hout (four_dvd_length_record e))
      (fun e' he' => hok e' (by simp at he' ⊢; tauto))
      (fun e' he' => hne e' (by simp [he'])) hnodup
      (fun e' he' hmem => by
        rcases List.mem_cons.mp hmem with hp | hp
        · exact hnotin (mem_paths.mpr ⟨e', he', hp⟩)
        · exact hseen e' (by simp [he']) hp)
    rw [hpayload]
    refine parseLoop_succ_ok.mpr ⟨_, _, hentry, .inr ⟨hne e (by simp), hseen e (by simp), ?_⟩⟩
    rw [List.append_assoc out] at hrest
    exact hrest.trans (by simp)

/-- Along the records of `es`, the loop only returns entries that fit, as long
    as it returns the entries that were printed. -/
theorem fits_of_parseLoop {tail tail' : Bytes} : ∀ (fuel : ℕ) (es : List NewcEntry) (out : Bytes)
    (acc more : List NewcEntry) (seen : List Path), 4 ∣ out.length →
    (∀ e ∈ es, e.MagicOk ∧ utf8Valid e.name = true) →
    parseLoop (out ++ (es.flatMap record ++ tail)) fuel acc seen out.length =
      some (.ok ⟨acc ++ more, tail'⟩) →
    List.Forall₂ SameButCase more es → ∀ e ∈ es, e.Fits := by
  intro fuel
  induction fuel with
  | zero => intro es out acc more seen _ _ h; cases h
  | succ fuel ih =>
    intro es out acc more seen hout hok h hsame
    cases hsame with
    | nil => simp
    | @cons e' e more es hee' hsame =>
      obtain ⟨hm, hu⟩ := hok e (by simp)
      have hpayload : out ++ ((e :: es).flatMap record ++ tail) =
          out ++ (record e ++ (es.flatMap record ++ tail)) := by
        simp [List.append_assoc]
      rw [hpayload] at h
      obtain ⟨e₀, next, hentry, hstep⟩ := parseLoop_succ_ok.mp h
      -- the entry read first is the first entry of the result
      have hfirst : e₀ = e' := by
        rcases hstep with ⟨-, hres⟩ | ⟨-, -, hloop⟩
        · have := List.append_cancel_left (congrArg NewcArchive.entries hres)
          exact (List.cons.inj this).1.symm
        · obtain ⟨more', -, hmore⟩ := parseLoop_prefix hloop
          simp only [List.append_assoc, List.append_cancel_left_eq, List.singleton_append] at hmore
          exact (List.cons.inj hmore).1.symm
      subst hfirst
      have hf := fits_of_parseEntry hm hentry hee'
      have hnext := hentry.symm.trans (parseEntry_record hm hu hf hout (es.flatMap record ++ tail))
      simp only [Except.ok.injEq, Prod.mk.injEq] at hnext
      have hes : ∀ e ∈ es, e.Fits := by
        rcases hstep with ⟨-, hres⟩ | ⟨-, -, hloop⟩
        · have := List.append_cancel_left (congrArg NewcArchive.entries hres)
          rw [(List.cons.inj this).2] at hsame
          cases hsame
          simp
        · rw [hnext.2, ← List.append_assoc] at hloop
          refine ih es (out ++ record e) (acc ++ [e₀]) more (e₀.path :: seen) ?_ (fun d hd => hok d (by simp [hd]))
            ?_ hsame
          · rw [List.length_append]
            exact Nat.dvd_add hout (four_dvd_length_record e)
          · rw [hloop]
            simp
      intro d hd
      rcases List.mem_cons.mp hd with rfl | hd
      · exact hf
      · exact hes d hd

/-! ## Whole archives -/

/-- **Main round trip.** A well-formed archive that fits is read back, with
    the hex-case flags its headers show. -/
theorem parse_serialize {a : NewcArchive} (hw : WellFormed a) (hf : a.Fits) :
    NewcArchive.parse a.serialize = .ok a.recased := by
  obtain ⟨init, t, hentries, ht⟩ := hw.trailer_last
  have hnodup : (paths init ++ [t.path]).Nodup := by
    have := hw.nodup
    rwa [hentries, paths, List.map_append] at this
  have hloop := parseLoop_records ht a.tail init [] [] [] (by simp)
    (fun e he => by
      rw [← hentries] at he
      exact ⟨hw.magic_ok e he, hw.name_utf8 e he, hf e he⟩)
    (hw.init_ne hentries ht) (List.nodup_append.mp hnodup).1 (by simp)
  rw [← hentries, List.nil_append, List.nil_append, ← serialize_eq] at hloop
  exact parse_eq_of_parseLoop hloop

/-- The converse: only archives that fit are read back. -/
theorem fits_of_parse_serialize {a a' : NewcArchive}
    (hok : ∀ e ∈ a.entries, e.MagicOk ∧ utf8Valid e.name = true)
    (h : NewcArchive.parse a.serialize = .ok a') (hsame : SameArchive a' a) : a.Fits := by
  have hloop := parseLoop_parse a.serialize
  rw [h] at hloop
  have hrun : parseLoop ([] ++ (a.entries.flatMap record ++ a.tail)) (parseFuel a.serialize) [] []
      ([] : Bytes).length = some (.ok ⟨[] ++ a'.entries, a'.tail⟩) := by
    rw [List.nil_append, ← serialize_eq]
    exact hloop
  exact fits_of_parseLoop _ a.entries [] [] a'.entries [] (by simp) hok hrun hsame.entries

/-- What the loop accepts is well formed, given what was read before is. -/
theorem wellFormed_of_parseLoop {payload : Bytes} {a : NewcArchive} :
    ∀ {fuel entries seen offset}, parseLoop payload fuel entries seen offset = some (.ok a) →
      (∀ e ∈ entries, e.MagicOk ∧ utf8Valid e.name = true ∧ e.path ≠ trailerPath) →
      (paths entries).Nodup → (∀ p ∈ paths entries, p ∈ seen) → WellFormed a := by
  intro fuel
  induction fuel with
  | zero => intro entries seen offset h; cases h
  | succ fuel ih =>
    intro entries seen offset h hok hnodup hseen
    obtain ⟨e, next, hentry, hstep⟩ := parseLoop_succ_ok.mp h
    obtain ⟨_, _, _, hread, -⟩ := parseEntry_eq_ok_iff.mp hentry
    -- the paths stay distinct whether or not the new one is the trailer
    have happend : e.path ∉ paths entries → (paths (entries ++ [e])).Nodup := fun hnew => by
      rw [paths, List.map_append]
      refine List.nodup_append.mpr ⟨hnodup, by simp, fun p hp q hq heq => hnew ?_⟩
      simp only [List.map_cons, List.map_nil, List.mem_singleton] at hq
      rw [← hq, ← heq]
      exact hp
    rcases hstep with ⟨ht, rfl⟩ | ⟨hne, hnotin, h⟩
    · have hnew : e.path ∉ paths entries := fun hp => by
        obtain ⟨d, hd, hdp⟩ := mem_paths.mp hp
        exact (hok d hd).2.2 (hdp.trans ht)
      refine ⟨fun d hd => ?_, fun d hd => ?_, happend hnew, ⟨entries, e, rfl, ht⟩⟩
      · rcases List.mem_append.mp hd with hd | hd
        · exact (hok d hd).1
        · rw [List.mem_singleton.mp hd]
          exact hread.magic_ok
      · rcases List.mem_append.mp hd with hd | hd
        · exact (hok d hd).2.1
        · rw [List.mem_singleton.mp hd]
          exact hread.name_utf8
    · refine ih h (fun d hd => ?_) (happend fun hp => hnotin (hseen _ hp)) fun p hp => ?_
      · rcases List.mem_append.mp hd with hd | hd
        · exact hok d hd
        · rw [List.mem_singleton.mp hd]
          exact ⟨hread.magic_ok, hread.name_utf8, hne⟩
      · rw [paths, List.map_append] at hp
        rcases List.mem_append.mp hp with hp | hp
        · exact List.mem_cons_of_mem _ (hseen p hp)
        · simp only [List.map_cons, List.map_nil, List.mem_singleton] at hp
          simp [hp]

/-- `parse` accepts only well-formed archives. -/
theorem wellFormed_of_parse {payload : Bytes} {a : NewcArchive}
    (h : NewcArchive.parse payload = .ok a) : WellFormed a := by
  have hloop := parseLoop_parse payload
  rw [h] at hloop
  exact wellFormed_of_parseLoop hloop (by simp) List.nodup_nil (by simp [paths])

/-! ## The gate -/

/-- The check `main` makes on base and donor (lines 477–480 and 488–492): the
    archive read from `payload` serializes to `payload` again. -/
structure Gate (payload : Bytes) (a : NewcArchive) : Prop where
  parsed : NewcArchive.parse payload = .ok a
  round_trips : a.serialize = payload

theorem Gate.wellFormed {payload : Bytes} {a : NewcArchive} (h : Gate payload a) : WellFormed a :=
  wellFormed_of_parse h.parsed

/-- What passes the gate fits the header fields. -/
theorem Gate.fits {payload : Bytes} {a : NewcArchive} (h : Gate payload a) : a.Fits := by
  refine fits_of_parse_serialize (fun e he => ⟨h.wellFormed.magic_ok e he,
    h.wellFormed.name_utf8 e he⟩) ?_ ⟨List.forall₂_same.mpr fun e _ => rfl, rfl⟩
  rw [h.round_trips, h.parsed]

/-- A well-formed archive that fits passes the gate, if its hex-case flags are
    those its headers show. -/
theorem gate_serialize {a : NewcArchive} (hw : WellFormed a) (hf : a.Fits) (hc : a.recased = a) :
    Gate a.serialize a :=
  ⟨by rw [parse_serialize hw hf, hc], rfl⟩

/-! ## The round trip under the format's conditions -/

/-- A hexadecimal digit that is a letter. -/
def isLetterDigit (b : Byte) : Bool := (65 ≤ b && b ≤ 70) || (97 ≤ b && b ≤ 102)

theorem hexChar_letter : ∀ d < 16, isLetterDigit (hexChar true d) = true →
    (65 ≤ hexChar true d && hexChar true d ≤ 70) = true := by
  decide

theorem hexChar_not_upper : ∀ d < 16, (65 ≤ hexChar false d && hexChar false d ≤ 70) = false := by
  decide

/-- The flag is kept by an entry whose header shows a letter. -/
theorem hasUpper_header {e : NewcEntry} (hm : e.MagicOk) (hl : e.header.any isLetterDigit = true) :
    hasUpper e.header = e.hexUpper := by
  have hrest : sliceFrom e.header 6 = e.fields.flatMap (format08x e.hexUpper) :=
    sliceFrom_append _ _ (by rw [length_magic hm]; rfl)
  have hmagic : e.magic.any isLetterDigit = false := by
    rcases hm with h | h <;> rw [h] <;> decide
  rw [NewcEntry.header, List.any_append, hmagic, Bool.false_or, List.any_eq_true] at hl
  obtain ⟨b, hb, hletter⟩ := hl
  rw [hasUpper, hrest]
  cases hcase : e.hexUpper with
  | true =>
    rw [hcase] at hb
    obtain ⟨f, -, hf⟩ := List.mem_flatMap.mp hb
    rw [List.any_eq_true]
    refine ⟨b, hb, ?_⟩
    rcases mem_format08x hf with rfl | ⟨d, hd, rfl⟩
    · exact absurd hletter (by decide)
    · exact hexChar_letter d hd hletter
  | false =>
    rw [List.any_eq_false]
    intro c hc
    obtain ⟨f, -, hf⟩ := List.mem_flatMap.mp hc
    rcases mem_format08x hf with rfl | ⟨d, hd, rfl⟩
    · decide
    · rw [hexChar_not_upper d hd]
      decide

/-- **Round trip of the newc format.** -/
theorem newc_round_trip (a : NewcArchive)
    (hmagic : ∀ e ∈ a.entries, e.magic = ascii "070701" ∨ e.magic = ascii "070702")
    (htrailer : ∃ init t, a.entries = init ++ [t] ∧ t.path = trailerPath ∧
      ∀ e ∈ init, e.path ≠ trailerPath)
    (hnodup : (paths a.entries).Nodup) (hname : ∀ e ∈ a.entries, utf8Valid e.name = true)
    (hfields : ∀ e ∈ a.entries, ∀ f ∈ [e.inode, e.mode, e.uid, e.gid, e.links, e.mtime, e.devMajor,
      e.devMinor, e.rdevMajor, e.rdevMinor], 0 ≤ f ∧ f < 2 ^ 32)
    (hdata : ∀ e ∈ a.entries, e.data.length < 2 ^ 32)
    (hsize : ∀ e ∈ a.entries, e.name.length + 1 < 2 ^ 32) :
    ∃ a', NewcArchive.parse a.serialize = .ok a' ∧ a'.tail = a.tail ∧
      List.Forall₂ (fun e' e => { e' with hexUpper := e.hexUpper } = e ∧
        (e.header.any isLetterDigit = true → e'.hexUpper = e.hexUpper)) a'.entries a.entries := by
  have hfits : a.Fits := fun e he f hf => by
    have hnum := hfields e he
    have hd := hdata e he
    have hs := hsize e he
    simp only [List.mem_cons, List.not_mem_nil, or_false, forall_eq_or_imp, forall_eq] at hnum
    simp only [NewcEntry.fields, List.mem_cons, List.not_mem_nil, or_false] at hf
    rcases hf with rfl | rfl | rfl | rfl | rfl | rfl | rfl | rfl | rfl | rfl | rfl | rfl | rfl
    all_goals first
      | exact fits_checksum e
      | (unfold Fits08x; omega)
  obtain ⟨init, t, hentries, ht, -⟩ := htrailer
  have hw : WellFormed a := ⟨hmagic, hname, hnodup, init, t, hentries, ht⟩
  refine ⟨a.recased, parse_serialize hw hfits, rfl, ?_⟩
  rw [NewcArchive.recased, List.forall₂_map_left_iff]
  exact List.forall₂_same.mpr fun e he =>
    ⟨sameButCase_recased e, fun hl => hasUpper_header (hmagic e he) hl⟩

/-- The entry mkbootfs ends an archive with. -/
def trailerEntry : NewcEntry :=
  { magic := ascii "070701", hexUpper := false, inode := 0, mode := 0, uid := 0, gid := 0,
    links := 1, mtime := 0, devMajor := 0, devMinor := 0, rdevMajor := 0, rdevMinor := 0,
    name := trailerPath, data := [] }

theorem utf8Valid_trailer : utf8Valid trailerEntry.name = true := utf8Valid_of_ascii (by decide)

/-- A file of two bytes, with an inode that shows letters. -/
def fileEntry : NewcEntry :=
  { trailerEntry with hexUpper := true, inode := 0xab, mode := 0o100644, name := ascii "a",
                      data := ascii "hi" }

/-- The file, the trailer, and a tail that looks like the start of an entry. -/
def fileArchive : NewcArchive := ⟨[fileEntry, trailerEntry], ascii "070701"⟩

theorem utf8Valid_fileArchive : ∀ e ∈ fileArchive.entries, utf8Valid e.name = true := by
  have hascii : ∀ e ∈ fileArchive.entries, e.name.all (fun b => b < 0x80) = true := by decide
  exact fun e he => utf8Valid_of_ascii (hascii e he)

theorem wellFormed_fileArchive : WellFormed fileArchive :=
  ⟨by decide, utf8Valid_fileArchive, by decide, [fileEntry], trailerEntry, rfl, rfl⟩

theorem gate_fileArchive : Gate fileArchive.serialize fileArchive :=
  gate_serialize wellFormed_fileArchive (by decide) (by decide)

theorem newc_round_trip_file :
    ∃ a', NewcArchive.parse fileArchive.serialize = .ok a' ∧ a'.tail = fileArchive.tail ∧
      List.Forall₂ (fun e' e => { e' with hexUpper := e.hexUpper } = e ∧
        (e.header.any isLetterDigit = true → e'.hexUpper = e.hexUpper))
        a'.entries fileArchive.entries := by
  exact newc_round_trip fileArchive (by decide)
    ⟨[fileEntry], trailerEntry, rfl, rfl, by decide⟩ (by decide) utf8Valid_fileArchive
    (by simp [fileArchive, fileEntry, trailerEntry])
    (by simp [fileArchive, fileEntry, trailerEntry, ascii])
    (by simp [fileArchive, fileEntry, trailerEntry, trailerPath, ascii])

end Pro5Android.Newc
