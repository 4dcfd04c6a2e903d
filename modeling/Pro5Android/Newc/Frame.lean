import Pro5Android.Newc.Closure

/-!
# What a rewriting leaves alone

Results:
* `Accepted.frame`: the frame law of the three mutations, for lists of paths
  that are pairwise disjoint.
* `rewrite_frame`: the frame law of `main`.
-/

namespace Pro5Android.Newc

open Python

/-- The differences between `base` and `rewritten` are those `args` asks for. -/
structure FrameLaw (base : NewcArchive) (args : Arguments) (rewritten : NewcArchive) : Prop where
  added : ∀ p ∈ paths rewritten.entries, p ∉ paths base.entries → p ∈ args.copy
  removed : ∀ p, (p ∈ paths base.entries ∧ p ∉ paths rewritten.entries) ↔ p ∈ args.delete
  data : ∀ e ∈ base.entries, ∀ e' ∈ rewritten.entries, e'.path = e.path → e'.data ≠ e.data →
    e.path ∈ args.copy ∨ e.path ∈ args.replacePaths
  metadata : ∀ e ∈ base.entries, ∀ e' ∈ rewritten.entries, e'.path = e.path →
    { e' with data := e.data } ≠ e → e.path ∈ args.copy
  untouched : ∀ e ∈ base.entries, e.path ∉ args.copy → e.path ∉ args.replacePaths →
    e.path ∉ args.delete → e ∈ rewritten.entries
  order : (paths rewritten.entries).filter (fun p => (paths base.entries).contains p) =
    (paths base.entries).filter fun p => (paths rewritten.entries).contains p
  trailer : ∃ init t, rewritten.entries = init ++ [t] ∧ t.path = trailerPath ∧
    ∀ e ∈ init, e.path ≠ trailerPath
  tail : rewritten.tail = base.tail
  nodup : (paths rewritten.entries).Nodup
  inode_fresh : ∀ e ∈ rewritten.entries, e.path ∉ paths base.entries →
    ∀ b ∈ base.entries, b.inode ≠ e.inode
  inode_distinct : ∀ e ∈ rewritten.entries, e.path ∉ paths base.entries →
    ∀ e' ∈ rewritten.entries, e'.path ∉ paths base.entries → e'.inode = e.inode → e' = e

/-! ## Entries that a list does not name -/

theorem copyAll_of_notMem {donorByPath : Dict Path NewcEntry} {ps : List Path} {e : NewcEntry}
    (h : e.path ∉ ps) : copyAll donorByPath ps e = e := if_neg h

theorem payloadByPath_eq_none {rs : List (Path × Source)} {p : Path} (h : p ∉ rs.map Prod.fst) :
    payloadByPath rs p = none := by
  rw [payloadByPath, Dict.ofPairs_eq_none_iff]
  intro hmem
  obtain ⟨⟨q, payload⟩, hq, rfl⟩ := List.mem_map.mp hmem
  obtain ⟨r, hr, hrp⟩ := List.mem_filterMap.mp hq
  obtain ⟨_, -, heq⟩ := Option.map_eq_some_iff.mp hrp
  obtain ⟨rfl, -⟩ := Prod.mk.inj heq
  exact h (List.mem_map_of_mem hr)

theorem replaceAll_of_notMem {rs : List (Path × Source)} {e : NewcEntry}
    (h : e.path ∉ rs.map Prod.fst) : replaceAll rs e = e := by
  rw [replaceAll, payloadByPath_eq_none h, Option.elim_none]

/-- Data replacement changes the data only. -/
theorem replaceAll_data (rs : List (Path × Source)) (e : NewcEntry) :
    { replaceAll rs e with data := e.data } = e := by
  unfold replaceAll
  cases payloadByPath rs e.path <;> rfl

theorem paths_filter_keeps (args : Arguments) (entries : List NewcEntry) :
    paths (entries.filter args.keeps) = (paths entries).filter fun p => !args.delete.contains p := by
  rw [paths, paths, List.filter_map]
  rfl

section
variable {basePayload donorPayload : Bytes} {base donor rewritten : NewcArchive} {args : Arguments}
  {init : List NewcEntry} {t : NewcEntry}

/-- The paths of the rewritten archive: what is kept of the base, and what is
    added before the trailer. -/
theorem Accepted.ClosedForm.paths_eq (c : Accepted.ClosedForm base donor args rewritten init t) :
    paths rewritten.entries = (paths init).filter (fun p => !args.delete.contains p) ++
      (addedPaths (paths base.entries) args.copy).filter (fun p => !args.delete.contains p) ++
        [trailerPath] := by
  have hinit : paths (init.map (rewriteEntry donor args)) = paths init :=
    paths_map (path_rewriteEntry donor args) _
  have hadded : paths ((Newc.added base donor args).map (replaceAll args.replaceData)) =
      addedPaths (paths base.entries) args.copy := by
    rw [paths_map (path_replaceAll args.replaceData)]
    exact paths_addedEntries fun p hp => c.in_donor p (mem_addedPaths.mp hp).1
  have htrailer : (rewriteEntry donor args t).path = trailerPath :=
    (path_rewriteEntry donor args t).trans c.trailer
  rw [c.entries_eq, paths, List.map_append, List.map_append, ← paths, ← paths, paths_filter_keeps,
    paths_filter_keeps, hinit, hadded, List.map_singleton, htrailer]

/-- An entry of the rewritten archive that has a base path. -/
theorem Accepted.ClosedForm.of_base_path
    (c : Accepted.ClosedForm base donor args rewritten init t) (hnodup : (paths base.entries).Nodup)
    {e e' : NewcEntry} (he : e ∈ base.entries) (he' : e' ∈ rewritten.entries)
    (hp : e'.path = e.path) : e' = rewriteEntry donor args e := by
  obtain ⟨-, ⟨b, hb, rfl⟩ | ⟨a, ha, rfl⟩⟩ := c.mem_iff.mp he'
  · rw [path_rewriteEntry] at hp
    rw [eq_of_path_eq hnodup hb he hp]
  · rw [path_replaceAll] at hp
    exact absurd (mem_paths.mpr ⟨e, he, hp.symm⟩) (Accepted.path_added ha).2

/-- An entry of the rewritten archive that has a new path. -/
theorem Accepted.ClosedForm.of_new_path (c : Accepted.ClosedForm base donor args rewritten init t)
    {e : NewcEntry} (he : e ∈ rewritten.entries) (hp : e.path ∉ paths base.entries) :
    ∃ a ∈ Newc.added base donor args, replaceAll args.replaceData a = e := by
  obtain ⟨-, ⟨b, hb, rfl⟩ | h⟩ := c.mem_iff.mp he
  · rw [path_rewriteEntry] at hp
    exact absurd (mem_paths.mpr ⟨b, hb, rfl⟩) hp
  · exact h

/-- The base paths in the rewritten archive are those that are not deleted. -/
theorem Accepted.ClosedForm.mem_paths_iff (c : Accepted.ClosedForm base donor args rewritten init t)
    {p : Path} (hp : p ∈ paths base.entries) : p ∈ paths rewritten.entries ↔ p ∉ args.delete := by
  rw [c.paths_eq]
  rw [c.base_eq, paths, List.map_append, List.mem_append, ← paths] at hp
  simp only [List.map_singleton, List.mem_singleton, c.trailer] at hp
  simp only [List.mem_append, List.mem_filter, List.mem_singleton, Bool.not_eq_true',
    List.contains_eq_mem, decide_eq_false_iff_not]
  constructor
  · rintro ((h | h) | rfl)
    · exact h.2
    · exact h.2
    · exact c.trailer_kept
  · intro hkept
    rcases hp with hp | hp
    · exact .inl (.inl ⟨hp, hkept⟩)
    · exact .inr hp

/-- **The frame law** of the mutations. -/
theorem Accepted.frame (h : Accepted basePayload donorPayload base donor args rewritten)
    (hlists : DisjointLists args) : FrameLaw base args rewritten := by
  obtain ⟨init, t, c⟩ := h.closedForm
  have hnodup := h.base_gate.wellFormed.nodup
  have hw := h.wellFormed
  constructor
  case added =>
    intro p hp hnew
    obtain ⟨e, he, rfl⟩ := mem_paths.mp hp
    obtain ⟨a, ha, rfl⟩ := c.of_new_path he hnew
    rw [path_replaceAll]
    exact (path_added ha).1
  case removed =>
    intro p
    constructor
    · rintro ⟨hp, hgone⟩
      by_contra hkept
      exact hgone ((c.mem_paths_iff hp).mpr hkept)
    · intro hdel
      obtain ⟨e, he, hep, -⟩ := (c.deletable p hdel).single
      have hbase : p ∈ paths base.entries := by
        rcases List.mem_append.mp he with he | he
        · obtain ⟨b, hb, rfl⟩ := List.mem_map.mp he
          exact mem_paths.mpr ⟨b, hb, (path_rewriteEntry donor args b).symm.trans hep⟩
        · obtain ⟨a, ha, rfl⟩ := List.mem_map.mp he
          rw [path_replaceAll] at hep
          exact absurd hdel (hlists.copy_delete p (hep ▸ (path_added ha).1))
      exact ⟨hbase, fun hmem => (c.mem_paths_iff hbase).mp hmem hdel⟩
  case data =>
    intro e he e' he' hp hne
    rw [c.of_base_path hnodup he he' hp] at hne
    by_contra hnot
    rw [not_or] at hnot
    rw [rewriteEntry, copyAll_of_notMem hnot.1, replaceAll_of_notMem hnot.2] at hne
    exact hne rfl
  case metadata =>
    intro e he e' he' hp hne
    rw [c.of_base_path hnodup he he' hp] at hne
    by_contra hnot
    rw [rewriteEntry, copyAll_of_notMem hnot] at hne
    exact hne (replaceAll_data args.replaceData e)
  case untouched =>
    intro e he hcopy hreplace hdelete
    refine c.mem_iff.mpr ⟨hdelete, .inl ⟨e, he, ?_⟩⟩
    rw [rewriteEntry, copyAll_of_notMem hcopy, replaceAll_of_notMem hreplace]
  case order =>
    -- both sides are the base paths that are not deleted
    have hright : (paths base.entries).filter (fun p => (paths rewritten.entries).contains p) =
        (paths base.entries).filter fun p => !args.delete.contains p := by
      refine List.filter_congr fun p hp => ?_
      have := c.mem_paths_iff hp
      by_cases hdel : p ∈ args.delete <;> simp_all
    have hbase : paths base.entries = paths init ++ [trailerPath] := by
      rw [c.base_eq, paths, List.map_append, List.map_singleton, c.trailer]
      rfl
    have hinit : ((paths init).filter fun p => !args.delete.contains p).filter
        (fun p => (paths base.entries).contains p) =
        (paths init).filter fun p => !args.delete.contains p := by
      refine List.filter_eq_self.mpr fun p hp => ?_
      have hmem := List.mem_of_mem_filter hp
      simp [hbase, hmem]
    have hadded : ((addedPaths (paths base.entries) args.copy).filter fun p =>
        !args.delete.contains p).filter (fun p => (paths base.entries).contains p) = [] := by
      refine List.filter_eq_nil_iff.mpr fun p hp => ?_
      have hnew := (mem_addedPaths.mp (List.mem_of_mem_filter hp)).2
      simpa using hnew
    have htrailer := c.trailer_kept
    rw [hright, c.paths_eq, List.filter_append, List.filter_append, hinit, hadded, hbase,
      List.filter_append]
    simp [htrailer]
  case trailer =>
    obtain ⟨init', t', heq, ht'⟩ := hw.trailer_last
    exact ⟨init', t', heq, ht', hw.init_ne heq ht'⟩
  case tail => exact c.tail_eq
  case nodup => exact hw.nodup
  case inode_fresh =>
    intro e he hnew b hb
    obtain ⟨a, ha, rfl⟩ := c.of_new_path he hnew
    obtain ⟨i, d, -, -, rfl⟩ := mem_added ha
    rw [inode_replaceAll]
    have := inode_le_maxInode hb
    dsimp only
    omega
  case inode_distinct =>
    intro e he hnew e' he' hnew' hinode
    obtain ⟨a, ha, rfl⟩ := c.of_new_path he hnew
    obtain ⟨a', ha', rfl⟩ := c.of_new_path he' hnew'
    obtain ⟨i, d, hi, -, rfl⟩ := mem_added ha
    obtain ⟨i', d', hi', -, rfl⟩ := mem_added ha'
    rw [inode_replaceAll, inode_replaceAll] at hinode
    have hsame : i' = i := by
      dsimp only at hinode
      omega
    subst hsame
    have hpath : d'.path = d.path := Option.some.inj (hi'.symm.trans hi)
    refine eq_of_path_eq hw.nodup he' he ?_
    rw [path_replaceAll, path_replaceAll]
    exact hpath

/-- **The frame law** of `main`. -/
theorem rewrite_frame {baseCpio : Bytes} {donorCpio : Option Bytes} {donor : Option NewcArchive}
    (h : rewrite baseCpio donorCpio args = .ok (base, donor, rewritten)) :
    NewcArchive.parse baseCpio = .ok base ∧ FrameLaw base args rewritten := by
  obtain ⟨hlists, donorPayload, haccepted⟩ := rewrite_accepted h
  exact ⟨haccepted.base_gate.parsed, haccepted.frame hlists⟩

end

/-- `fileArchive` with the file under another name. -/
def otherArchive : NewcArchive := ⟨[{ fileEntry with name := ascii "b" }, trailerEntry], []⟩

theorem gate_otherArchive : Gate otherArchive.serialize otherArchive := by
  have hascii : ∀ e ∈ otherArchive.entries, e.name.all (fun b => b < 0x80) = true := by decide
  exact gate_serialize ⟨by decide, fun e he => utf8Valid_of_ascii (hascii e he), by decide, [_], _,
    rfl, rfl⟩ (by decide) (by decide)

/-- `--copy b --delete a`. -/
theorem rewrite_other :
    rewrite fileArchive.serialize (some otherArchive.serialize) ⟨[ascii "b"], [ascii "a"], []⟩ =
      .ok (fileArchive, some otherArchive,
        ⟨[{ fileEntry with name := ascii "b", inode := 0xac }, trailerEntry], ascii "070701"⟩) := by
  have hbase : gatedArchive fileArchive.serialize .baseRoundTrip = .ok fileArchive :=
    gatedArchive_eq_ok_iff.mpr gate_fileArchive
  have hdonor : gatedArchive otherArchive.serialize .donorRoundTrip = .ok otherArchive :=
    gatedArchive_eq_ok_iff.mpr gate_otherArchive
  simp only [rewrite, gatedDonor, hbase, hdonor]
  rfl

theorem rewrite_frame_other :
    NewcArchive.parse fileArchive.serialize = .ok fileArchive ∧
      FrameLaw fileArchive ⟨[ascii "b"], [ascii "a"], []⟩
        ⟨[{ fileEntry with name := ascii "b", inode := 0xac }, trailerEntry], ascii "070701"⟩ :=
  rewrite_frame rewrite_other

end Pro5Android.Newc
