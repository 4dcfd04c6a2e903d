import Pro5Android.Newc.Rewrite

/-!
# The comparison of two archives

`compared_archives` of `tools/rewrite-newc-ramdisk.py` (lines 349–384), with which
the rewriter reports what it has changed. It compares the entries of the same path
as `dataclass` values, once by their data and once with the data blanked.

Results:
* `mem_added`, `mem_removed`, `mem_changedPaths`: what each list contains.
* `entries_eq_of_unchanged`: a comparison that reports nothing leaves no room for a
  difference.
* `comparedArchives_complete`: both, for archives with unique paths.
-/

namespace Pro5Android.Newc

open Python

/-- `set(entry_by_path)`: the keys of the dict, see `mem_keySet`. -/
def keySet (entries : List NewcEntry) : Finset Path := (paths entries).toFinset

/-- `dataclasses.replace(entry, data=b"")`. -/
def NewcEntry.blanked (e : NewcEntry) : NewcEntry := { e with data := [] }

/-- What `compared_archives` returns, under the names its caller gives the parts
    (lines 515–522). -/
structure Comparison where
  addedPaths : List Path
  removedPaths : List Path
  changedDataPaths : List Path
  changedMetadataPaths : List Path
  entryOrderIdentical : Bool
  archiveTailIdentical : Bool
deriving DecidableEq, Repr

/-- `common_paths` (line 366). -/
def commonPaths (base rewritten : List NewcEntry) : List Path :=
  sorted (keySet base ∩ keySet rewritten)

/-- The common paths at which the entries differ in `view` (lines 367–376). -/
def changedPaths {α : Type} [DecidableEq α] (view : NewcEntry → α)
    (base rewritten : List NewcEntry) : List Path :=
  (commonPaths base rewritten).filter fun path =>
    (entryByPath base path).map view ≠ (entryByPath rewritten path).map view

/-- `compared_archives` (lines 349–384). -/
def comparedArchives (base rewritten : NewcArchive) : Comparison where
  addedPaths := sorted (keySet rewritten.entries \ keySet base.entries)
  removedPaths := sorted (keySet base.entries \ keySet rewritten.entries)
  changedDataPaths := changedPaths NewcEntry.data base.entries rewritten.entries
  changedMetadataPaths := changedPaths NewcEntry.blanked base.entries rewritten.entries
  entryOrderIdentical := paths base.entries = paths rewritten.entries
  archiveTailIdentical := base.tail = rewritten.tail

/-! ## What the lists contain -/

section

variable {base rewritten : List NewcEntry} {p : Path}

/-- The set of the paths is the set of the keys. -/
theorem mem_keySet {entries : List NewcEntry} : p ∈ keySet entries ↔ p ∈ paths entries :=
  List.mem_toFinset

theorem mem_paths_iff_exists {entries : List NewcEntry} :
    p ∈ paths entries ↔ ∃ e ∈ entries, e.path = p :=
  List.mem_map

theorem mem_commonPaths : p ∈ commonPaths base rewritten ↔ p ∈ paths base ∧ p ∈ paths rewritten := by
  rw [commonPaths, mem_sorted, Finset.mem_inter, mem_keySet, mem_keySet]

theorem mem_added {base rewritten : NewcArchive} :
    p ∈ (comparedArchives base rewritten).addedPaths ↔
      p ∈ paths rewritten.entries ∧ p ∉ paths base.entries := by
  show p ∈ sorted (keySet rewritten.entries \ keySet base.entries) ↔ _
  rw [mem_sorted, Finset.mem_sdiff, mem_keySet, mem_keySet]

theorem mem_removed {base rewritten : NewcArchive} :
    p ∈ (comparedArchives base rewritten).removedPaths ↔
      p ∈ paths base.entries ∧ p ∉ paths rewritten.entries :=
  @mem_added p rewritten base

/-- A path is reported when the two entries at it differ in the view. -/
theorem mem_changedPaths {α : Type} [DecidableEq α] {view : NewcEntry → α}
    (hb : (paths base).Nodup) (hr : (paths rewritten).Nodup) :
    p ∈ changedPaths view base rewritten ↔
      ∃ e ∈ base, ∃ e' ∈ rewritten, e.path = p ∧ e'.path = p ∧ view e ≠ view e' := by
  rw [changedPaths, List.mem_filter, mem_commonPaths, mem_paths_iff_exists, mem_paths_iff_exists]
  constructor
  · rintro ⟨⟨⟨e, he, hep⟩, e', he', hep'⟩, hne⟩
    rw [(entryByPath_eq_some_iff hb).mpr ⟨he, hep⟩, (entryByPath_eq_some_iff hr).mpr ⟨he', hep'⟩]
      at hne
    exact ⟨e, he, e', he', hep, hep', fun h => of_decide_eq_true hne (congrArg some h)⟩
  · rintro ⟨e, he, e', he', hep, hep', hne⟩
    refine ⟨⟨⟨e, he, hep⟩, e', he', hep'⟩, ?_⟩
    rw [(entryByPath_eq_some_iff hb).mpr ⟨he, hep⟩, (entryByPath_eq_some_iff hr).mpr ⟨he', hep'⟩]
    exact decide_eq_true fun h => hne (Option.some.inj h)

end

/-! ## The purpose -/

/-- The two entries agree in every attribute but the data. -/
structure SameMetadata (e e' : NewcEntry) : Prop where
  magic : e.magic = e'.magic
  hexUpper : e.hexUpper = e'.hexUpper
  inode : e.inode = e'.inode
  mode : e.mode = e'.mode
  uid : e.uid = e'.uid
  gid : e.gid = e'.gid
  links : e.links = e'.links
  mtime : e.mtime = e'.mtime
  devMajor : e.devMajor = e'.devMajor
  devMinor : e.devMinor = e'.devMinor
  rdevMajor : e.rdevMajor = e'.rdevMajor
  rdevMinor : e.rdevMinor = e'.rdevMinor
  name : e.name = e'.name

/-- The comparison reports what differs between the archives, and no more. -/
structure Comparison.Exact (c : Comparison) (base rewritten : NewcArchive) : Prop where
  added : ∀ p, p ∈ c.addedPaths ↔ p ∈ paths rewritten.entries ∧ p ∉ paths base.entries
  removed : ∀ p, p ∈ c.removedPaths ↔ p ∈ paths base.entries ∧ p ∉ paths rewritten.entries
  changedData : ∀ p, p ∈ c.changedDataPaths ↔
    ∃ e ∈ base.entries, ∃ e' ∈ rewritten.entries, e.path = p ∧ e'.path = p ∧ e.data ≠ e'.data
  changedMetadata : ∀ p, p ∈ c.changedMetadataPaths ↔
    ∃ e ∈ base.entries, ∃ e' ∈ rewritten.entries, e.path = p ∧ e'.path = p ∧ ¬ SameMetadata e e'

/-- Nothing is reported. -/
structure Comparison.Unchanged (c : Comparison) : Prop where
  added : c.addedPaths = []
  removed : c.removedPaths = []
  changedData : c.changedDataPaths = []
  changedMetadata : c.changedMetadataPaths = []
  order : c.entryOrderIdentical = true
  tail : c.archiveTailIdentical = true

/-- Blanking the data leaves all other attributes to compare. -/
theorem blanked_eq_iff {e e' : NewcEntry} : e.blanked = e'.blanked ↔ SameMetadata e e' := by
  obtain ⟨⟩ := e
  obtain ⟨⟩ := e'
  constructor
  · intro h
    simp only [NewcEntry.blanked, NewcEntry.mk.injEq] at h
    obtain ⟨h1, h2, h3, h4, h5, h6, h7, h8, h9, h10, h11, h12, h13, -⟩ := h
    exact ⟨h1, h2, h3, h4, h5, h6, h7, h8, h9, h10, h11, h12, h13⟩
  · rintro ⟨h1, h2, h3, h4, h5, h6, h7, h8, h9, h10, h11, h12, h13⟩
    simp only [NewcEntry.blanked, NewcEntry.mk.injEq]
    exact ⟨h1, h2, h3, h4, h5, h6, h7, h8, h9, h10, h11, h12, h13, trivial⟩

theorem eq_of_data_of_blanked {e e' : NewcEntry} (hdata : e.data = e'.data)
    (hblanked : e.blanked = e'.blanked) : e = e' := by
  calc e = { e.blanked with data := e.data } := rfl
    _ = { e'.blanked with data := e'.data } := by rw [hdata, hblanked]
    _ = e' := rfl

/-- Entries at the same place have the same path, and a difference between them is
    reported under it. -/
theorem entries_eq_of_unchanged {base rewritten : List NewcEntry} (hb : (paths base).Nodup)
    (hr : (paths rewritten).Nodup) (horder : paths base = paths rewritten)
    (hdata : changedPaths NewcEntry.data base rewritten = [])
    (hmeta : changedPaths NewcEntry.blanked base rewritten = []) : base = rewritten := by
  have hlen : base.length = rewritten.length := by
    simpa [paths] using congrArg List.length horder
  refine List.ext_getElem hlen fun i hi hi' => ?_
  have hpath : rewritten[i].path = base[i].path := by
    have h : (paths base)[i]? = (paths rewritten)[i]? := by rw [horder]
    simpa [paths, hi, hi', eq_comm] using h
  have hsame {α : Type} [DecidableEq α] (view : NewcEntry → α)
      (h : changedPaths view base rewritten = []) : view base[i] = view rewritten[i] := by
    by_contra hne
    have hmem : base[i].path ∈ changedPaths view base rewritten := (mem_changedPaths hb hr).mpr
      ⟨base[i], List.getElem_mem hi, rewritten[i], List.getElem_mem hi', rfl, hpath, hne⟩
    rw [h] at hmem
    cases hmem
  exact eq_of_data_of_blanked (hsame _ hdata) (hsame _ hmeta)

theorem comparedArchives_exact {base rewritten : NewcArchive} (hb : (paths base.entries).Nodup)
    (hr : (paths rewritten.entries).Nodup) :
    (comparedArchives base rewritten).Exact base rewritten where
  added _ := mem_added
  removed _ := mem_removed
  changedData _ := mem_changedPaths hb hr
  changedMetadata p := by
    rw [show (comparedArchives base rewritten).changedMetadataPaths =
      changedPaths NewcEntry.blanked base.entries rewritten.entries from rfl, mem_changedPaths hb hr]
    simp only [ne_eq, blanked_eq_iff]

/-- Every difference between two archives with unique paths is reported, and only
    those; where nothing is reported, the archives are the same. -/
theorem comparedArchives_complete (base rewritten : NewcArchive) (hb : (paths base.entries).Nodup)
    (hr : (paths rewritten.entries).Nodup) :
    (comparedArchives base rewritten).Exact base rewritten ∧
      ((comparedArchives base rewritten).Unchanged →
        base.entries = rewritten.entries ∧ base = rewritten ∧
          base.serialize = rewritten.serialize) := by
  refine ⟨comparedArchives_exact hb hr, fun hun => ?_⟩
  have hentries : base.entries = rewritten.entries :=
    entries_eq_of_unchanged hb hr (of_decide_eq_true hun.order) hun.changedData hun.changedMetadata
  have htail : base.tail = rewritten.tail := of_decide_eq_true hun.tail
  have heq : base = rewritten := by
    obtain ⟨⟩ := base
    obtain ⟨⟩ := rewritten
    exact (NewcArchive.mk.injEq ..).mpr ⟨hentries, htail⟩
  exact ⟨hentries, heq, congrArg NewcArchive.serialize heq⟩

/-- `fileArchive` with another owner of its file. -/
def ownedArchive : NewcArchive := ⟨[{ fileEntry with uid := 1000 }, trailerEntry], ascii "070701"⟩

theorem comparedArchives_complete_owned :
    (comparedArchives fileArchive ownedArchive).Exact fileArchive ownedArchive ∧
      ((comparedArchives fileArchive ownedArchive).Unchanged →
        fileArchive.entries = ownedArchive.entries ∧ fileArchive = ownedArchive ∧
          fileArchive.serialize = ownedArchive.serialize) :=
  comparedArchives_complete fileArchive ownedArchive (by decide) (by decide)

end Pro5Android.Newc
