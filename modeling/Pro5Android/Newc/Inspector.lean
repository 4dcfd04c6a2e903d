import Pro5Android.Newc.Closure
import Pro5Android.Newc.Frame

/-!
# The newc reader of the inspector

`parse_newc_archive` of `tools/inspect-android-boot-image.py` (lines 112–158),
and its agreement with `NewcArchive.parse` of the rewriter. The two read an entry
in the same way. They differ in what they call the same path: the rewriter keys
its duplicate check on the raw name, the inspector on the name without a leading
`./` and then `/`, and it leaves the trailer out. So the inspector is stricter:
it refuses an archive in which two names differ by such a prefix only.

The dictionary `entries` is the list of its items in order of insertion; the
duplicate check keeps the keys distinct.

Results:
* `readers_terminate`: both end on every input.
* `inspectEntry_of_parseEntry`: both read the same name, data and next offset.
* `parseNewcArchive_of_parse`: on an archive the rewriter accepts, the inspector
  returns the entries under their normalised paths, or reports a duplicate.
* `readers_agree`: acceptance by the inspector in these terms, for parsed and for
  rewritten archives.
* `readers_disagree`: an archive with `a` and `./a`.
-/

namespace Pro5Android.Newc

open Python

/-! ## The reader -/

/-- The exceptions `parse_newc_archive` raises, with what their messages name. -/
inductive InspectError
  /-- `truncated newc header` -/
  | truncatedHeader
  /-- `unsupported cpio magic at offset {offset}: {header[:6]!r}` -/
  | unsupportedMagic (offset : ℤ) (magic : Bytes)
  /-- `invalid newc header at offset {offset}` -/
  | invalidHeader (offset : ℤ)
  /-- `invalid cpio name size at offset {offset}` -/
  | invalidNameSize (offset : ℤ)
  /-- `truncated or unterminated cpio name at offset {offset}` -/
  | truncatedName (offset : ℤ)
  /-- `IndexError` of `archive[name_end - 1]` -/
  | indexError
  /-- `non-UTF-8 cpio name at offset {offset}` -/
  | nonUtf8Name (offset : ℤ)
  /-- `truncated cpio payload for {name!r}` -/
  | truncatedPayload (name : Path)
  /-- `duplicate cpio entry: {normalized_name!r}` -/
  | duplicateEntry (normalizedName : Path)
deriving DecidableEq, Repr

/-- The key of a name (line 154). -/
def normalizedName (name : Path) : Path := removePrefix (ascii "/") (removePrefix (ascii "./") name)

/-- One iteration of the loop up to the test for the trailer (lines 117–151): the
    name and the data read at `offset`, and the next offset (line 158). -/
def inspectEntry (archive : Bytes) (offset : ℤ) : Except InspectError (Path × Bytes × ℤ) :=
  let headerEnd := offset + 110
  if headerEnd > archive.length then .error .truncatedHeader
  else
    let header := slice archive offset headerEnd
    let magic := slice header 0 6
    if magic ≠ ascii "070701" ∧ magic ≠ ascii "070702" then
      .error (.unsupportedMagic offset magic)
    else match parseFields header with
      | some [_, _, _, _, _, _, fileSize, _, _, _, _, nameSize, _] =>
        if nameSize < 1 then .error (.invalidNameSize offset)
        else
          let nameEnd := headerEnd + nameSize
          if nameEnd > archive.length then .error (.truncatedName offset)
          else match index? archive (nameEnd - 1) with
            | none => .error .indexError
            | some nul =>
              if nul ≠ 0 then .error (.truncatedName offset)
              else
                let name := slice archive headerEnd (nameEnd - 1)
                if utf8Valid name = false then .error (.nonUtf8Name offset)
                else
                  let dataStart := align nameEnd 4
                  let dataEnd := dataStart + fileSize
                  if dataEnd > archive.length then .error (.truncatedPayload name)
                  else .ok (name, slice archive dataStart dataEnd, align dataEnd 4)
      | _ => .error (.invalidHeader offset)

/-- The loop (lines 116–158) run for at most `fuel` iterations on
    `(entries, offset)`; `none` when they are used up. -/
def inspectLoop (archive : Bytes) :
    ℕ → List (Path × Bytes) → ℤ → Option (Except InspectError (List (Path × Bytes)))
  | 0, _, _ => none
  | fuel + 1, entries, offset =>
    match inspectEntry archive offset with
    | .error e => some (.error e)
    | .ok (name, data, next) =>
      if name = trailerPath then some (.ok entries)
      else if normalizedName name ∈ entries.map Prod.fst then
        some (.error (.duplicateEntry (normalizedName name)))
      else inspectLoop archive fuel (entries ++ [(normalizedName name, data)]) next

/-! ## Termination -/

/-- The name an iteration reads is a slice of the input. -/
theorem inspectEntry_name_mem {archive name data : Bytes} {offset next : ℤ}
    (h : inspectEntry archive offset = .ok (name, data, next)) : name ∈ slices archive := by
  unfold inspectEntry at h
  dsimp only at h
  obtain ⟨-, h⟩ := ite_error_eq_ok.mp h
  obtain ⟨-, h⟩ := ite_error_eq_ok.mp h
  split at h
  · rename_i nameSize _ _
    obtain ⟨-, h⟩ := ite_error_eq_ok.mp h
    obtain ⟨-, h⟩ := ite_error_eq_ok.mp h
    cases hnul : index? archive (offset + 110 + nameSize - 1) with
    | none =>
      rw [hnul] at h
      cases h
    | some nul =>
      rw [hnul] at h
      obtain ⟨-, h⟩ := ite_error_eq_ok.mp h
      obtain ⟨-, h⟩ := ite_error_eq_ok.mp h
      obtain ⟨-, h⟩ := ite_error_eq_ok.mp h
      simp only [Except.ok.injEq, Prod.mk.injEq] at h
      obtain ⟨rfl, -, -⟩ := h
      exact slice_mem_slices _ _ _
  · cases h

/-- The keys are distinct slices of the input. -/
theorem inspectLoop_isSome_of_keys (archive : Bytes) : ∀ fuel entries offset,
    (entries.map Prod.fst).Nodup → (∀ k ∈ entries.map Prod.fst, k ∈ slices archive) →
    parseFuel archive ≤ entries.length + fuel → (inspectLoop archive fuel entries offset).isSome := by
  intro fuel
  induction fuel with
  | zero =>
    intro entries offset hnodup hmem hfuel
    have hcard : (entries.map Prod.fst).length ≤ (slices archive).card := by
      rw [← List.toFinset_card_of_nodup hnodup]
      exact Finset.card_le_card fun k hk => hmem k (List.mem_toFinset.mp hk)
    rw [List.length_map] at hcard
    have := card_slices_le archive
    unfold parseFuel at hfuel
    omega
  | succ fuel ih =>
    intro entries offset hnodup hmem hfuel
    rw [inspectLoop]
    split
    · rfl
    · rename_i name data next hentry
      split_ifs with htrailer hseen
      · rfl
      · rfl
      · have hkeys : (entries ++ [(normalizedName name, data)]).map Prod.fst =
            entries.map Prod.fst ++ [normalizedName name] := by simp
        apply ih
        · rw [hkeys]
          rw [← List.concat_eq_append]
          exact hnodup.concat hseen
        · intro k hk
          rw [hkeys] at hk
          rcases List.mem_append.mp hk with hk | hk
          · exact hmem k hk
          · rw [List.mem_singleton.mp hk]
            exact removePrefix_mem_slices _
              (removePrefix_mem_slices _ (inspectEntry_name_mem hentry))
        · rw [List.length_append, List.length_singleton]
          omega

theorem inspectLoop_isSome (archive : Bytes) :
    (inspectLoop archive (parseFuel archive) [] 0).isSome :=
  inspectLoop_isSome_of_keys archive _ _ _ List.nodup_nil (by simp) (by simp)

/-- More iterations do not change the result. -/
theorem inspectLoop_mono {archive : Bytes} {r : Except InspectError (List (Path × Bytes))} :
    ∀ {fuel fuel' : ℕ} {entries offset}, fuel ≤ fuel' →
      inspectLoop archive fuel entries offset = some r →
      inspectLoop archive fuel' entries offset = some r := by
  intro fuel
  induction fuel with
  | zero => intro fuel' entries offset _ h; cases h
  | succ fuel ih =>
    intro fuel' entries offset hle h
    obtain ⟨k, rfl⟩ : ∃ k, fuel' = k + 1 := ⟨fuel' - 1, by omega⟩
    rw [inspectLoop] at h ⊢
    split at h
    · exact h
    · split_ifs at h ⊢
      · exact h
      · exact h
      · exact ih (by omega) h

/-- On every input both readers are through after at most `(n + 1)² + 1` headers,
    where `n` is its length, and more iterations change nothing. The cursor itself may
    go back, and below 0: what is used up are the names, which are distinct slices. -/
theorem readers_terminate (payload : Bytes) :
    (∃ r, ∀ fuel, parseFuel payload ≤ fuel → parseLoop payload fuel [] [] 0 = some r) ∧
      ∃ r, ∀ fuel, parseFuel payload ≤ fuel → inspectLoop payload fuel [] 0 = some r := by
  obtain ⟨r, hr⟩ := Option.isSome_iff_exists.mp (parseLoop_isSome payload)
  obtain ⟨r', hr'⟩ := Option.isSome_iff_exists.mp (inspectLoop_isSome payload)
  exact ⟨⟨r, fun _ hle => parseLoop_mono hle hr⟩, r', fun _ hle => inspectLoop_mono hle hr'⟩

/-- `parse_newc_archive` (lines 112–158). -/
def parseNewcArchive (archive : Bytes) : Except InspectError (List (Path × Bytes)) :=
  (inspectLoop archive (parseFuel archive) [] 0).get (inspectLoop_isSome archive)

/-! ## Agreement with the rewriter's reader -/

/-- Both readers read the same name, data and next offset. -/
theorem inspectEntry_of_parseEntry {payload : Bytes} {offset next : ℤ} {e : NewcEntry}
    (h : parseEntry payload offset = .ok (e, next)) :
    inspectEntry payload offset = .ok (e.name, e.data, next) := by
  obtain ⟨fileSize, nameSize, check, hr, rfl⟩ := parseEntry_eq_ok_iff.mp h
  have hmagic : ¬ (e.magic ≠ ascii "070701" ∧ e.magic ≠ ascii "070702") := by
    have := hr.magic_ok
    tauto
  have hutf8 : ¬ utf8Valid e.name = false := by simp [hr.name_utf8]
  have hsize : ((newcHeaderSize : ℕ) : ℤ) = 110 := rfl
  have hheader := hr.header_le
  have hname := hr.name_le
  have hnul := hr.name_nul
  have hdata := hr.data_le
  have heq := hr.magic_eq
  have hfields := hr.fields_eq
  have hnameEq := hr.name_eq
  have hdataEq := hr.data_eq
  rw [hsize] at hheader hname hnul hdata heq hfields hnameEq hdataEq
  unfold inspectEntry
  dsimp only
  rw [if_neg (by omega), heq, if_neg hmagic, hfields]
  dsimp only
  rw [if_neg (by have := hr.nameSize_pos; omega), if_neg (by omega), hnul]
  dsimp only
  rw [if_neg (by simp), hnameEq, if_neg hutf8, if_neg (by omega), hdataEq]
  rfl

/-- The entries other than the trailer, under their normalised paths. -/
def inventory (entries : List NewcEntry) : List (Path × Bytes) :=
  (entries.filter fun e => e.path ≠ trailerPath).map fun e => (normalizedName e.path, e.data)

/-- No two entries other than the trailer have the same normalised path. -/
def NamesDistinct (entries : List NewcEntry) : Prop := ((inventory entries).map Prod.fst).Nodup

instance (entries : List NewcEntry) : Decidable (NamesDistinct entries) :=
  inferInstanceAs (Decidable (List.Nodup _))

theorem inventory_append (es es' : List NewcEntry) :
    inventory (es ++ es') = inventory es ++ inventory es' := by
  rw [inventory, List.filter_append, List.map_append, inventory, inventory]

theorem inventory_trailer {t : NewcEntry} (h : t.path = trailerPath) : inventory [t] = [] := by
  simp [inventory, h]

theorem inventory_singleton {e : NewcEntry} (h : e.path ≠ trailerPath) :
    inventory [e] = [(normalizedName e.path, e.data)] := by
  simp [inventory, h]

/-- The two loops side by side, from the same offset on: the rewriter's finds the
    entries `more` behind `entries`, the inspector's has the items `items`. -/
theorem inspectLoop_of_parseLoop {payload : Bytes} {a : NewcArchive} :
    ∀ {fuel entries seen offset}, parseLoop payload fuel entries seen offset = some (.ok a) →
      ∃ more, a.entries = entries ++ more ∧
        ∀ items : List (Path × Bytes), (items.map Prod.fst).Nodup →
          if ((items ++ inventory more).map Prod.fst).Nodup then
            inspectLoop payload fuel items offset = some (.ok (items ++ inventory more))
          else ∃ name, inspectLoop payload fuel items offset = some (.error (.duplicateEntry name)) := by
  intro fuel
  induction fuel with
  | zero => intro entries seen offset h; cases h
  | succ fuel ih =>
    intro entries seen offset h
    obtain ⟨e, next, hentry, hcase⟩ := parseLoop_succ_ok.mp h
    have hread := inspectEntry_of_parseEntry hentry
    rcases hcase with ⟨htrailer, rfl⟩ | ⟨hne, -, hrest⟩
    · refine ⟨[e], rfl, fun items hitems => ?_⟩
      rw [inventory_trailer htrailer, List.append_nil, if_pos hitems, inspectLoop, hread]
      exact if_pos htrailer
    · obtain ⟨more, hmore, hloop⟩ := ih hrest
      refine ⟨e :: more, by rw [hmore, List.append_assoc, List.singleton_append], ?_⟩
      intro items hitems
      have hsplit : items ++ inventory (e :: more) =
          (items ++ [(normalizedName e.path, e.data)]) ++ inventory more := by
        rw [← List.singleton_append, inventory_append, inventory_singleton hne, List.append_assoc]
      have hkeys : (items ++ [(normalizedName e.path, e.data)]).map Prod.fst =
          items.map Prod.fst ++ [normalizedName e.path] := by simp
      rw [hsplit]
      by_cases hdup : normalizedName e.path ∈ items.map Prod.fst
      · -- the key is taken, so the keys are not distinct
        rw [if_neg]
        · refine ⟨normalizedName e.path, ?_⟩
          rw [inspectLoop, hread]
          exact (if_neg hne).trans (if_pos hdup)
        · intro hnodup
          rw [List.map_append, hkeys] at hnodup
          have hleft := List.Nodup.of_append_left hnodup
          exact (List.nodup_append.mp hleft).2.2 _ hdup _ (List.mem_singleton_self _) rfl
      · have hstep : inspectLoop payload (fuel + 1) items offset =
            inspectLoop payload fuel (items ++ [(normalizedName e.path, e.data)]) next := by
          rw [inspectLoop, hread]
          exact (if_neg hne).trans (if_neg hdup)
        rw [hstep]
        apply hloop
        rw [hkeys]
        rw [← List.concat_eq_append]
        exact hitems.concat hdup

/-- **The inspector on an archive the rewriter accepts.** -/
theorem parseNewcArchive_of_parse {payload : Bytes} {a : NewcArchive}
    (h : NewcArchive.parse payload = .ok a) :
    if NamesDistinct a.entries then parseNewcArchive payload = .ok (inventory a.entries)
    else ∃ name, parseNewcArchive payload = .error (.duplicateEntry name) := by
  have hloop := parseLoop_parse payload
  rw [h] at hloop
  obtain ⟨more, hmore, hinspect⟩ := inspectLoop_of_parseLoop hloop
  obtain rfl : a.entries = more := hmore
  have hrun := hinspect [] List.nodup_nil
  rw [List.nil_append] at hrun
  have hget : ∀ {r}, inspectLoop payload (parseFuel payload) [] 0 = some r →
      parseNewcArchive payload = r := by
    intro r hr
    simp only [parseNewcArchive, hr, Option.get_some]
  by_cases hd : NamesDistinct a.entries
  · rw [if_pos hd]
    exact hget ((if_pos hd).mp hrun)
  · rw [if_neg hd]
    exact ((if_neg hd).mp hrun).imp fun name hr => hget hr

theorem inventory_recased (entries : List NewcEntry) :
    inventory (entries.map NewcEntry.recased) = inventory entries := by
  rw [inventory, inventory, List.filter_map, List.map_map]
  rfl

/-- The inspector accepts just when the normalised names are distinct, and
    returns the inventory. -/
def InspectorAgrees (payload : Bytes) (a : NewcArchive) : Prop :=
  ((∃ entries, parseNewcArchive payload = .ok entries) ↔ NamesDistinct a.entries) ∧
    ∀ entries, parseNewcArchive payload = .ok entries → entries = inventory a.entries

theorem inspectorAgrees_of_parse {payload : Bytes} {a : NewcArchive}
    (h : NewcArchive.parse payload = .ok a) : InspectorAgrees payload a := by
  have hread := parseNewcArchive_of_parse h
  split_ifs at hread with hd
  · refine ⟨⟨fun _ => hd, fun _ => ⟨_, hread⟩⟩, fun entries he => ?_⟩
    rw [hread] at he
    exact (Except.ok.inj he).symm
  · obtain ⟨name, hread⟩ := hread
    refine ⟨⟨fun ⟨entries, he⟩ => ?_, fun hd' => absurd hd' hd⟩, fun entries he => ?_⟩ <;>
      · rw [hread] at he
        cases he

/-- **The two newc readers agree** on every archive the rewriter reads, and on
    every one it can emit and read back, up to names that the inspector does not
    tell apart. -/
theorem readers_agree {payload basePayload donorPayload : Bytes}
    {a base donor rewritten : NewcArchive} {args : Arguments} :
    (NewcArchive.parse payload = .ok a → InspectorAgrees payload a) ∧
      (Accepted basePayload donorPayload base donor args rewritten → SizesFit base args →
        InspectorAgrees rewritten.serialize rewritten) := by
  refine ⟨inspectorAgrees_of_parse, fun haccepted hsizes => ?_⟩
  have hread := inspectorAgrees_of_parse
    (parse_serialize haccepted.wellFormed (haccepted.fits hsizes))
  have hsame : inventory rewritten.recased.entries = inventory rewritten.entries :=
    inventory_recased rewritten.entries
  rwa [InspectorAgrees, NamesDistinct, hsame] at hread

def otherArguments : Arguments := ⟨[ascii "b"], [ascii "a"], []⟩

def otherRewritten : NewcArchive :=
  ⟨[{ fileEntry with name := ascii "b", inode := 0xac }, trailerEntry], ascii "070701"⟩

/-- `--copy b --delete a`, with distinct names in and out. -/
theorem readers_agree_other :
    InspectorAgrees fileArchive.serialize fileArchive ∧
      InspectorAgrees otherRewritten.serialize otherRewritten := by
  have haccepted : Accepted fileArchive.serialize otherArchive.serialize fileArchive otherArchive
      otherArguments otherRewritten :=
    ⟨gate_fileArchive, gate_otherArchive, _, _, _, _, _, rfl, rfl, rfl⟩
  have hsizes : SizesFit fileArchive otherArguments := by
    refine ⟨fun i p hi _ => ?_, fun p payload hp => by cases hp⟩
    have hadded : addedPaths (paths fileArchive.entries) [ascii "b"] = [ascii "b"] := by decide
    have hi' : i < 1 := by
      rw [otherArguments, hadded] at hi
      exact (List.getElem?_eq_some_iff.mp hi).1
    have hmax : maxInode fileArchive.entries = 0xab := by decide
    rw [hmax]
    omega
  obtain ⟨hread, hrewritten⟩ := @readers_agree fileArchive.serialize fileArchive.serialize
    otherArchive.serialize fileArchive fileArchive otherArchive otherRewritten otherArguments
  exact ⟨hread gate_fileArchive.parsed, hrewritten haccepted hsizes⟩

/-- `a` and `./a`. -/
def prefixArchive : NewcArchive :=
  ⟨[fileEntry, { fileEntry with name := ascii "./a", inode := 0xac }, trailerEntry], []⟩

/-- The rewriter accepts `a` beside `./a`, the inspector does not. -/
theorem readers_disagree :
    ¬ ∀ payload a, NewcArchive.parse payload = .ok a →
      ∃ entries, parseNewcArchive payload = .ok entries := by
  intro hall
  have hascii : ∀ e ∈ prefixArchive.entries, e.name.all (fun b => b < 0x80) = true := by decide
  have hparse : NewcArchive.parse prefixArchive.serialize = .ok prefixArchive.recased :=
    parse_serialize ⟨by decide, fun e he => utf8Valid_of_ascii (hascii e he), by decide,
      [_, _], _, rfl, rfl⟩ (by decide)
  have hdup : ¬ NamesDistinct prefixArchive.recased.entries := by decide
  exact hdup ((inspectorAgrees_of_parse hparse).1.mp (hall _ _ hparse))

end Pro5Android.Newc
