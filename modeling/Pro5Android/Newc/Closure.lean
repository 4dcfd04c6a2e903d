import Pro5Android.Newc.Rewrite

/-!
# When a rewritten archive can be read back

The mutations keep every field inside 8 digits but two: a fresh inode number
is counted up from the largest one of the base, and replacement data has the
size its file has. `SizesFit` says that these two stay below 2^32 for the
entries that are not deleted again.

Results:
* `Accepted.fits`: under `SizesFit` the rewritten archive fits.
* `Accepted.sizesFit`: only then can it be read back.
* `rewritten_round_trip_iff`: the two directions together.
-/

namespace Pro5Android.Newc

open Python

/-! ## Fields after a mutation -/

theorem fits_iff (e : NewcEntry) :
    e.Fits ↔ (∀ f ∈ [e.mode, e.uid, e.gid, e.links, e.mtime, e.devMajor, e.devMinor, e.rdevMajor,
      e.rdevMinor, (e.name.length : ℤ) + 1], Fits08x f) ∧ Fits08x e.inode ∧
        Fits08x e.data.length := by
  have hcheck := fits_checksum e
  simp only [NewcEntry.Fits, NewcEntry.fields, List.forall_mem_cons, List.not_mem_nil,
    false_implies, implies_true, and_true]
  tauto

theorem fits_copyInto {d e : NewcEntry} (hd : d.Fits) (he : e.Fits) : (copyInto d e).Fits := by
  rw [fits_iff] at hd he ⊢
  simp only [List.forall_mem_cons] at hd he ⊢
  simp only [copyInto]
  tauto

theorem fits_data_iff {e : NewcEntry} (he : e.Fits) (payload : Bytes) :
    ({ e with data := payload } : NewcEntry).Fits ↔ payload.length < 2 ^ 32 := by
  rw [fits_iff] at he
  have hlen : Fits08x (payload.length : ℤ) ↔ payload.length < 2 ^ 32 := by
    unfold Fits08x
    omega
  rw [fits_iff, hlen]
  exact ⟨fun h => h.2.2, fun h => ⟨he.1, he.2.1, h⟩⟩

theorem fits_inode_iff {e : NewcEntry} (he : e.Fits) (n : ℤ) :
    ({ e with inode := n } : NewcEntry).Fits ↔ Fits08x n := by
  rw [fits_iff] at he
  rw [fits_iff]
  exact ⟨fun h => h.2.1, fun h => ⟨he.1, h, he.2.2⟩⟩

theorem fits_copyAll {donor : List NewcEntry} (hd : ∀ d ∈ donor, d.Fits) (ps : List Path)
    {e : NewcEntry} (he : e.Fits) : (copyAll (entryByPath donor) ps e).Fits := by
  unfold copyAll
  split_ifs
  · cases h : entryByPath donor e.path with
    | none => exact he
    | some d => exact fits_copyInto (hd d (entryByPath_path h).1) he
  · exact he

theorem fits_replaceAll {rs : List (Path × Source)} {e : NewcEntry} (he : e.Fits)
    (h : ∀ payload, payloadByPath rs e.path = some payload → payload.length < 2 ^ 32) :
    (replaceAll rs e).Fits := by
  unfold replaceAll
  cases hp : payloadByPath rs e.path with
  | none => exact he
  | some payload => exact (fits_data_iff he payload).mpr (h payload hp)

/-- The largest inode number is one of the archive's. -/
theorem maxInode_mem {entries : List NewcEntry} (h : entries ≠ []) :
    ∃ e ∈ entries, e.inode = maxInode entries := by
  cases hmax : (entries.map NewcEntry.inode).max? with
  | none => exact absurd (by simpa using hmax) h
  | some m =>
    obtain ⟨e, he, hem⟩ := List.mem_map.mp (List.max?_mem hmax)
    exact ⟨e, he, by rw [maxInode, hmax]; exact hem⟩

theorem inode_le_maxInode {entries : List NewcEntry} {e : NewcEntry} (he : e ∈ entries) :
    e.inode ≤ maxInode entries := by
  cases hmax : (entries.map NewcEntry.inode).max? with
  | none =>
    rw [List.max?_eq_none_iff, List.map_eq_nil_iff] at hmax
    exact absurd (hmax ▸ he) (by simp)
  | some m =>
    rw [maxInode, hmax]
    exact (List.max?_le_iff hmax).mp le_rfl _ (List.mem_map_of_mem he)

/-! ## The condition -/

/-- The fresh inode numbers and the replacement data of the paths that are not
    deleted again stay below 2^32. -/
structure SizesFit (base : NewcArchive) (args : Arguments) : Prop where
  inode : ∀ (i : ℕ) (p : Path), (addedPaths (paths base.entries) args.copy)[i]? = some p →
    p ∉ args.delete → maxInode base.entries + 1 + i < 2 ^ 32
  data : ∀ (p : Path) (payload : Bytes), payloadByPath args.replaceData p = some payload →
    p ∉ args.delete → payload.length < 2 ^ 32

section
variable {basePayload donorPayload : Bytes} {base donor rewritten : NewcArchive} {args : Arguments}

/-- Under `SizesFit` every field of the rewritten archive prints in 8
    characters. -/
theorem Accepted.fits (h : Accepted basePayload donorPayload base donor args rewritten)
    (hs : SizesFit base args) : rewritten.Fits := by
  obtain ⟨init, t, c⟩ := h.closedForm
  have hbase := h.base_gate.fits
  have hdonor := h.donor_gate.fits
  intro e he
  obtain ⟨hkept, ⟨b, hb, rfl⟩ | ⟨a, ha, rfl⟩⟩ := c.mem_iff.mp he
  · rw [path_rewriteEntry] at hkept
    refine fits_replaceAll (fits_copyAll hdonor _ (hbase b hb)) fun payload hp => ?_
    rw [path_copyAll] at hp
    exact hs.data b.path payload hp hkept
  · rw [path_replaceAll] at hkept
    refine fits_replaceAll ?_ fun payload hp => hs.data a.path payload hp hkept
    obtain ⟨i, d, hi, hd, rfl⟩ := Accepted.mem_added ha
    have hne : base.entries ≠ [] := by simp [c.base_eq]
    obtain ⟨m, hm, hmax⟩ := maxInode_mem hne
    have hlow := (hbase m hm m.inode (by simp [NewcEntry.fields])).1
    have hhigh := hs.inode i d.path hi hkept
    rw [fits_inode_iff (hdonor d hd), Fits08x]
    rw [hmax] at hlow
    omega

/-- Only under `SizesFit` is the rewritten archive read back. -/
theorem Accepted.sizesFit (h : Accepted basePayload donorPayload base donor args rewritten)
    (hf : rewritten.Fits) : SizesFit base args := by
  obtain ⟨init, t, c⟩ := h.closedForm
  have hbase := h.base_gate.fits
  have hdonor := h.donor_gate.fits
  constructor
  · intro i p hi hkept
    obtain ⟨hcopy, hnew⟩ := mem_addedPaths.mp (List.mem_of_getElem? hi)
    obtain ⟨d, hd, hdp⟩ := c.in_donor p hcopy
    have hlookup : entryByPath donor.entries p = some d :=
      (entryByPath_eq_some_iff h.donor_gate.wellFormed.nodup).mpr ⟨hd, hdp⟩
    have ha : { d with inode := maxInode base.entries + 1 + i } ∈ added base donor args :=
      mem_addedEntries.mpr ⟨i, p, d, hi, hlookup, rfl⟩
    have hfit := hf _ (c.mem_iff.mpr ⟨by rw [path_replaceAll]; exact hdp ▸ hkept, .inr ⟨_, ha, rfl⟩⟩)
    have hinode := ((fits_iff _).mp hfit).2.1
    rw [inode_replaceAll] at hinode
    have hlt : maxInode base.entries + 1 + i < 16 ^ 8 := hinode.2
    omega
  · intro p payload hp hkept
    obtain ⟨r, hr, hrp⟩ := List.mem_filterMap.mp (Dict.mem_of_ofPairs hp)
    obtain ⟨payload', -, heq⟩ := Option.map_eq_some_iff.mp hrp
    obtain ⟨rfl, rfl⟩ := Prod.mk.inj heq
    obtain ⟨-, e, he, hep, -⟩ := (c.regular r hr).1
    have hmem : replaceAll args.replaceData e ∈ rewritten.entries := by
      refine c.mem_iff.mpr ⟨by rw [path_replaceAll, hep]; exact hkept, ?_⟩
      rcases List.mem_append.mp he with he | he
      · obtain ⟨b, hb, rfl⟩ := List.mem_map.mp he
        exact .inl ⟨b, hb, rfl⟩
      · exact .inr ⟨e, he, rfl⟩
    have hdata := ((fits_iff _).mp (hf _ hmem)).2.2
    rw [replaceAll, hep, hp] at hdata
    have := hdata.2
    simp only [Option.elim_some] at this
    omega

/-- **Closure of the mutations.** What accepted arguments make of accepted
    inputs is read back from its serialization if and only if `SizesFit`. -/
theorem rewritten_round_trip_iff
    (h : Accepted basePayload donorPayload base donor args rewritten) :
    (∃ a', NewcArchive.parse rewritten.serialize = .ok a' ∧ SameArchive a' rewritten) ↔
      SizesFit base args := by
  constructor
  · rintro ⟨a', hparse, hsame⟩
    have hw := h.wellFormed
    exact h.sizesFit (fits_of_parse_serialize
      (fun e he => ⟨hw.magic_ok e he, hw.name_utf8 e he⟩) hparse hsame)
  · intro hs
    exact ⟨_, parse_serialize h.wellFormed (h.fits hs), sameArchive_recased rewritten⟩

end

/-- An archive of a trailer. -/
def emptyArchive : NewcArchive := ⟨[trailerEntry], []⟩

theorem gate_emptyArchive : Gate emptyArchive.serialize emptyArchive :=
  gate_serialize ⟨by decide, by simp [emptyArchive, utf8Valid_trailer], by decide, [], _, rfl, rfl⟩
    (by decide) (by decide)

/-- The file of `fileArchive` goes in with the inode number 1. -/
theorem accepted_empty : Accepted emptyArchive.serialize fileArchive.serialize emptyArchive
    fileArchive ⟨[ascii "a"], [], []⟩ ⟨[{ fileEntry with inode := 1 }, trailerEntry], []⟩ :=
  ⟨gate_emptyArchive, gate_fileArchive, _, _, _, _, _, rfl, rfl, rfl⟩

theorem sizesFit_empty : SizesFit emptyArchive ⟨[ascii "a"], [], []⟩ := by
  refine ⟨fun i p hi _ => ?_, fun p payload hp => by cases hp⟩
  have hadded : addedPaths (paths emptyArchive.entries) [ascii "a"] = [ascii "a"] := by decide
  have hi' : i < 1 := by
    rw [hadded] at hi
    exact (List.getElem?_eq_some_iff.mp hi).1
  have hmax : maxInode emptyArchive.entries = 0 := by decide
  rw [hmax]
  omega

theorem rewritten_round_trip_iff_empty :
    SizesFit emptyArchive ⟨[ascii "a"], [], []⟩ ∧
      ∃ a', NewcArchive.parse
          (NewcArchive.serialize ⟨[{ fileEntry with inode := 1 }, trailerEntry], []⟩) = .ok a' ∧
        SameArchive a' ⟨[{ fileEntry with inode := 1 }, trailerEntry], []⟩ :=
  ⟨sizesFit_empty, (rewritten_round_trip_iff accepted_empty).mpr sizesFit_empty⟩

/-- An archive of a trailer with the largest inode number. -/
def fullArchive : NewcArchive := ⟨[{ trailerEntry with inode := 0xffffffff }], []⟩

theorem gate_fullArchive : Gate fullArchive.serialize fullArchive :=
  gate_serialize ⟨by decide, by simp [fullArchive, utf8Valid_trailer], by decide, [], _, rfl, rfl⟩
    (by decide) (by decide)

/-- The file of `fileArchive` goes in with the inode number 2^32. -/
theorem accepted_full : Accepted fullArchive.serialize fileArchive.serialize fullArchive fileArchive
    ⟨[ascii "a"], [], []⟩
    ⟨[{ fileEntry with inode := 0x100000000 }, { trailerEntry with inode := 0xffffffff }], []⟩ :=
  ⟨gate_fullArchive, gate_fileArchive, _, _, _, _, _, rfl, rfl, rfl⟩

theorem rewritten_not_read_back :
    ∃ rewritten, Accepted fullArchive.serialize fileArchive.serialize fullArchive fileArchive
        ⟨[ascii "a"], [], []⟩ rewritten ∧
      ¬ ∃ a', NewcArchive.parse rewritten.serialize = .ok a' ∧ SameArchive a' rewritten := by
  refine ⟨_, accepted_full, ?_⟩
  rintro ⟨a', hparse, hsame⟩
  have hw := accepted_full.wellFormed
  have hfits := fits_of_parse_serialize (fun e he => ⟨hw.magic_ok e he, hw.name_utf8 e he⟩) hparse
    hsame
  revert hfits
  decide

end Pro5Android.Newc
