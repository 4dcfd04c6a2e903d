import Pro5Android.Newc.Mutate
import Pro5Android.Lib.Raising

/-!
# The rewritten archive in closed form

On archives with distinct paths each mutation is a map or a filter of the
entries, whatever the order and the repetitions of its arguments:

* copying maps `copyAll` over the base and puts the added entries, numbered
  from the largest inode on, before the trailer (`copiedArchive_eq_ok`);
* data replacement maps `replaceAll` (`dataReplacedArchive_eq_ok`);
* deletion filters (`deletedArchive_eq_ok`).

`Accepted.closedForm` puts the three together, and `rewrite_accepted` says that
this is what `main` has done when it writes an output.
-/

namespace Pro5Android.Newc

open Python
open Lib (bind_eq_ok)

/-! ## Loops that may raise -/

theorem foldlM_cons_eq_ok {ε σ α : Type} {f : σ → α → Except ε σ} {s r : σ} {a : α} {l : List α} :
    (a :: l).foldlM f s = .ok r ↔ ∃ s', f s a = .ok s' ∧ l.foldlM f s' = .ok r := by
  rw [List.foldlM_cons]
  exact bind_eq_ok

theorem forM_eq_ok {ε α : Type} {f : α → Except ε Unit} {l : List α} :
    l.forM f = .ok () ↔ ∀ a ∈ l, f a = .ok () := by
  induction l with
  | nil => simp [List.forM, pure, Except.pure]
  | cons a l ih =>
    change (f a >>= fun _ => l.forM f) = .ok () ↔ _
    rw [bind_eq_ok]
    simp only [List.mem_cons, forall_eq_or_imp, ← ih]
    exact ⟨fun ⟨_, ha, h⟩ => ⟨ha, h⟩, fun ⟨ha, h⟩ => ⟨(), ha, h⟩⟩

/-! ## Entries by path -/

theorem paths_map {f : NewcEntry → NewcEntry} (hf : ∀ e, (f e).path = e.path)
    (entries : List NewcEntry) : paths (entries.map f) = paths entries := by
  rw [paths, List.map_map]
  exact List.map_congr_left fun e _ => hf e

theorem entryByPath_eq_some_iff {entries : List NewcEntry} (h : (paths entries).Nodup) {p : Path}
    {e : NewcEntry} : entryByPath entries p = some e ↔ e ∈ entries ∧ e.path = p := by
  have hkeys : ((entries.map fun e => (e.path, e)).map Prod.fst).Nodup := by
    rw [List.map_map]
    exact h
  rw [entryByPath, Dict.ofPairs_eq_some_iff hkeys]
  constructor
  · intro hmem
    obtain ⟨d, hd, heq⟩ := List.mem_map.mp hmem
    obtain ⟨rfl, rfl⟩ := Prod.mk.inj heq
    exact ⟨hd, rfl⟩
  · rintro ⟨he, rfl⟩
    exact List.mem_map.mpr ⟨e, he, rfl⟩

theorem entryByPath_path {entries : List NewcEntry} {p : Path} {e : NewcEntry}
    (h : entryByPath entries p = some e) : e ∈ entries ∧ e.path = p := by
  obtain ⟨d, hd, heq⟩ := List.mem_map.mp (Dict.mem_of_ofPairs h)
  obtain ⟨rfl, rfl⟩ := Prod.mk.inj heq
  exact ⟨hd, rfl⟩

/-- The index depends on the paths only. -/
theorem indexByPath_eq (entries : List NewcEntry) :
    indexByPath entries = Dict.ofPairs (paths entries).zipIdx := by
  rw [indexByPath, paths, List.zipIdx_map]
  rfl

theorem indexByPath_eq_none_iff {entries : List NewcEntry} {p : Path} :
    indexByPath entries p = none ↔ p ∉ paths entries := by
  rw [indexByPath_eq, Dict.ofPairs_eq_none_iff, List.zipIdx_map_fst]

theorem indexByPath_eq_some_iff {entries : List NewcEntry} (h : (paths entries).Nodup) {p : Path}
    {i : ℕ} : indexByPath entries p = some i ↔ ∃ e, entries[i]? = some e ∧ e.path = p := by
  rw [indexByPath_eq, Dict.ofPairs_eq_some_iff (by rw [List.zipIdx_map_fst]; exact h),
    List.mem_zipIdx_iff_getElem?, paths, List.getElem?_map]
  exact Option.map_eq_some_iff

/-- With distinct paths, an assignment at the index of a path is a map. -/
theorem set_eq_map {entries : List NewcEntry} (h : (paths entries).Nodup) {i : ℕ} {e : NewcEntry}
    (hi : entries[i]? = some e) (f : NewcEntry → NewcEntry) :
    entries.set i (f e) = entries.map fun x => if x.path = e.path then f x else x := by
  induction entries generalizing i with
  | nil => cases hi
  | cons d entries ih =>
    obtain ⟨hd, hnodup⟩ := List.nodup_cons.mp h
    cases i with
    | zero =>
      obtain rfl : d = e := Option.some.inj hi
      have hrest : entries.map (fun x => if x.path = d.path then f x else x) = entries := by
        conv_rhs => rw [← List.map_id entries]
        refine List.map_congr_left fun x hx => if_neg fun hp => hd ?_
        rw [← hp]
        exact List.mem_map_of_mem hx
      rw [List.set_cons_zero, List.map_cons, if_pos rfl, hrest]
    | succ i =>
      have he : e ∈ entries := List.mem_of_getElem? (by simpa using hi)
      have hne : d.path ≠ e.path := fun hp => hd (by rw [hp]; exact List.mem_map_of_mem he)
      rw [List.set_cons_succ, List.map_cons, if_neg hne, ih hnodup (by simpa using hi)]

/-! ## Copying -/

/-- What copying the paths `ps` makes of a base entry. -/
def copyAll (donorByPath : Dict Path NewcEntry) (ps : List Path) (e : NewcEntry) : NewcEntry :=
  if e.path ∈ ps then (donorByPath e.path).elim e fun d => copyInto d e else e

/-- The paths of `ps` that are not in `seen`, each at its first place. -/
def addedPaths (seen : List Path) : List Path → List Path
  | [] => []
  | p :: ps => if p ∈ seen then addedPaths seen ps else p :: addedPaths (p :: seen) ps

/-- The entries added for `ps`, with inode numbers from `next` on. -/
def addedEntries (donorByPath : Dict Path NewcEntry) (next : ℤ) : List Path → List NewcEntry
  | [] => []
  | p :: ps =>
    (donorByPath p).elim [] (fun d => [{ d with inode := next }]) ++
      addedEntries donorByPath (next + 1) ps

@[simp] theorem path_copyInto (d e : NewcEntry) : (copyInto d e).path = e.path := rfl

theorem copyInto_idem (d e : NewcEntry) : copyInto d (copyInto d e) = copyInto d e := rfl

@[simp] theorem path_copyAll (donorByPath : Dict Path NewcEntry) (ps : List Path) (e : NewcEntry) :
    (copyAll donorByPath ps e).path = e.path := by
  unfold copyAll
  split_ifs
  · cases donorByPath e.path <;> rfl
  · rfl

theorem copyAll_cons_of_ne {donorByPath : Dict Path NewcEntry} {p : Path} {ps : List Path}
    {e : NewcEntry} (h : e.path ≠ p) : copyAll donorByPath (p :: ps) e = copyAll donorByPath ps e := by
  simp [copyAll, h]

theorem addedPaths_congr {seen seen' : List Path} (h : ∀ p, p ∈ seen ↔ p ∈ seen') (ps : List Path) :
    addedPaths seen ps = addedPaths seen' ps := by
  induction ps generalizing seen seen' with
  | nil => rfl
  | cons p ps ih =>
    have hrest := ih h
    have hfresh : addedPaths (p :: seen) ps = addedPaths (p :: seen') ps := ih fun q => by simp [h q]
    rw [addedPaths, addedPaths, hrest, hfresh]
    simp only [h p]

theorem mem_addedPaths {seen ps : List Path} {p : Path} :
    p ∈ addedPaths seen ps ↔ p ∈ ps ∧ p ∉ seen := by
  induction ps generalizing seen with
  | nil => simp [addedPaths]
  | cons q ps ih =>
    rw [addedPaths]
    split_ifs with hq
    · rw [ih]
      constructor
      · exact fun h => ⟨List.mem_cons_of_mem _ h.1, h.2⟩
      · rintro ⟨hp, hs⟩
        rcases List.mem_cons.mp hp with rfl | hp
        · exact absurd hq hs
        · exact ⟨hp, hs⟩
    · rw [List.mem_cons, ih, List.mem_cons, List.mem_cons]
      by_cases hpq : p = q
      · simp [hpq, hq]
      · simp [hpq]

theorem nodup_addedPaths (seen ps : List Path) : (addedPaths seen ps).Nodup := by
  induction ps generalizing seen with
  | nil => simp [addedPaths]
  | cons p ps ih =>
    rw [addedPaths]
    split_ifs
    · exact ih seen
    · refine List.nodup_cons.mpr ⟨fun h => ?_, ih _⟩
      exact (mem_addedPaths.mp h).2 (by simp)

/-- The added entries, one by one. -/
theorem mem_addedEntries {donorByPath : Dict Path NewcEntry} {next : ℤ} {ps : List Path}
    {a : NewcEntry} : a ∈ addedEntries donorByPath next ps ↔
      ∃ (i : ℕ) (p : Path) (d : NewcEntry), ps[i]? = some p ∧ donorByPath p = some d ∧ a = { d with inode := next + i } := by
  induction ps generalizing next with
  | nil => simp [addedEntries]
  | cons p ps ih =>
    rw [addedEntries, List.mem_append, ih]
    constructor
    · rintro (h | ⟨i, q, d, hq, hd, rfl⟩)
      · cases hd : donorByPath p with
        | none => simp [hd] at h
        | some d =>
          rw [hd] at h
          exact ⟨0, p, d, rfl, hd, by simpa using h⟩
      · exact ⟨i + 1, q, d, by simpa using hq, hd, by push_cast; ring_nf⟩
    · rintro ⟨i, q, d, hq, hd, rfl⟩
      cases i with
      | zero =>
        obtain rfl : p = q := by simpa using hq
        left
        simp [hd]
      | succ i => exact .inr ⟨i, q, d, by simpa using hq, hd, by push_cast; ring_nf⟩

theorem path_of_mem_addedEntries {donor : List NewcEntry} {next : ℤ} {ps : List Path}
    {a : NewcEntry} (h : a ∈ addedEntries (entryByPath donor) next ps) : a.path ∈ ps := by
  obtain ⟨i, p, d, hp, hd, rfl⟩ := mem_addedEntries.mp h
  have hpath : d.path = p := (entryByPath_path hd).2
  exact hpath ▸ List.mem_of_getElem? hp

/-- What the loop of `copied_archive` knows of its variables: the last entry is
    the trailer, and the index is current. -/
structure CopyInv (s : CopyState) (pre : List NewcEntry) (t : NewcEntry) : Prop where
  entries_eq : s.baseEntries = pre ++ [t]
  nodup : (paths s.baseEntries).Nodup
  trailerIndex_eq : s.trailerIndex = pre.length
  baseIndex_eq : s.baseIndex = indexByPath s.baseEntries

/-- Copying one path over an entry that has it. -/
def copyOne (p : Path) (d e : NewcEntry) : NewcEntry := if e.path = p then copyInto d e else e

@[simp] theorem path_copyOne (p : Path) (d e : NewcEntry) : (copyOne p d e).path = e.path := by
  unfold copyOne
  split_ifs <;> rfl

/-- The later copies do not see an earlier one. -/
theorem copyAll_copyOne {donorByPath : Dict Path NewcEntry} {p : Path} {d : NewcEntry}
    (hd : donorByPath p = some d) (ps : List Path) (e : NewcEntry) :
    copyAll donorByPath ps (copyOne p d e) = copyAll donorByPath (p :: ps) e := by
  unfold copyOne
  split_ifs with hp
  · subst hp
    simp only [copyAll, path_copyInto, hd, List.mem_cons, true_or, if_true, Option.elim_some,
      copyInto_idem]
    split_ifs <;> rfl
  · rw [copyAll_cons_of_ne hp]

/-- One copy: the path is added before the trailer, or copied over. -/
theorem copyStep_eq_ok {donorByPath : Dict Path NewcEntry} {s s' : CopyState}
    {pre : List NewcEntry} {t : NewcEntry} {p : Path} (hs : CopyInv s pre t)
    (h : copyStep donorByPath s p = .ok s') :
    ∃ d, donorByPath p = some d ∧
      ((p ∉ paths (pre ++ [t]) ∧ s'.nextInode = s.nextInode + 1 ∧
          (d.path = p → CopyInv s' (pre ++ [{ d with inode := s.nextInode }]) t)) ∨
        (p ∈ paths (pre ++ [t]) ∧ s'.nextInode = s.nextInode ∧
          CopyInv s' (pre.map (copyOne p d)) (copyOne p d t))) := by
  unfold copyStep at h
  cases hd : donorByPath p with
  | none => rw [hd] at h; cases h
  | some d =>
    rw [hd] at h
    refine ⟨d, rfl, ?_⟩
    have hnodup := hs.nodup
    cases hi : s.baseIndex p with
    | none =>
      rw [hi] at h
      obtain rfl := Except.ok.inj h
      rw [hs.baseIndex_eq, indexByPath_eq_none_iff, hs.entries_eq] at hi
      refine .inl ⟨hi, rfl, fun hdp => ⟨?_, ?_, by simp [hs.trailerIndex_eq], rfl⟩⟩
      · simp [insertAt, hs.entries_eq, hs.trailerIndex_eq]
      · rw [hs.entries_eq] at hnodup
        have hperm : (paths (insertAt s.baseEntries s.trailerIndex
            { d with inode := s.nextInode })).Perm (p :: paths (pre ++ [t])) := by
          rw [hs.entries_eq, hs.trailerIndex_eq, insertAt, List.take_left, List.drop_left]
          exact (List.perm_middle.map _).trans (.of_eq (by rw [List.map_cons, ← hdp]; rfl))
        exact hperm.nodup_iff.mpr (List.nodup_cons.mpr ⟨hi, hnodup⟩)
    | some i =>
      rw [hi] at h
      rw [hs.baseIndex_eq, indexByPath_eq_some_iff hnodup] at hi
      obtain ⟨e, he, rfl⟩ := hi
      dsimp only at h
      rw [he] at h
      obtain rfl := Except.ok.inj h
      have hmap : s.baseEntries.set i (copyInto d e) = (pre ++ [t]).map (copyOne e.path d) := by
        rw [set_eq_map hnodup he, hs.entries_eq]
        rfl
      have hpaths : paths (s.baseEntries.set i (copyInto d e)) = paths s.baseEntries := by
        rw [hmap, paths_map (path_copyOne _ _), hs.entries_eq]
      refine .inr ⟨?_, rfl, ?_, ?_, by simp [hs.trailerIndex_eq], ?_⟩
      · rw [← hs.entries_eq]
        exact List.mem_map_of_mem (List.mem_of_getElem? he)
      · rw [hmap, List.map_append]
        rfl
      · rw [hpaths]
        exact hnodup
      · rw [hs.baseIndex_eq, indexByPath_eq, indexByPath_eq, hpaths]

theorem map_copyAll_of_notMem {donorByPath : Dict Path NewcEntry} {p : Path} {ps : List Path}
    {l : List NewcEntry} (h : p ∉ paths l) :
    l.map (copyAll donorByPath (p :: ps)) = l.map (copyAll donorByPath ps) :=
  List.map_congr_left fun _ he => copyAll_cons_of_ne fun hp => h (hp ▸ List.mem_map_of_mem he)

/-- A later copy of an added path changes nothing. -/
theorem copyAll_added {donorByPath : Dict Path NewcEntry} {d : NewcEntry} {n : ℤ}
    (hd : donorByPath d.path = some d) (ps : List Path) :
    copyAll donorByPath ps { d with inode := n } = { d with inode := n } := by
  have hpath : ({ d with inode := n } : NewcEntry).path = d.path := rfl
  rw [copyAll, hpath, hd]
  split_ifs <;> rfl

/-- **The loop of `copied_archive`**, by induction on the paths still to copy:
    an added path is in the index of the next iteration. -/
theorem foldlM_copyStep {donor : List NewcEntry} : ∀ {ps : List Path} {s s' : CopyState}
    {pre : List NewcEntry} {t : NewcEntry}, CopyInv s pre t →
    ps.foldlM (copyStep (entryByPath donor)) s = .ok s' →
    s'.baseEntries = pre.map (copyAll (entryByPath donor) ps) ++
        addedEntries (entryByPath donor) s.nextInode (addedPaths (paths (pre ++ [t])) ps) ++
        [copyAll (entryByPath donor) ps t] ∧
      ∀ p ∈ ps, ∃ d ∈ donor, d.path = p := by
  intro ps
  induction ps with
  | nil =>
    intro s s' pre t hs h
    obtain rfl : s = s' := Except.ok.inj h
    have hid : ∀ e, copyAll (entryByPath donor) [] e = e := fun e => by simp [copyAll]
    have hmap : pre.map (copyAll (entryByPath donor) []) = pre := by
      conv_rhs => rw [← List.map_id pre]
      exact List.map_congr_left fun e _ => hid e
    refine ⟨?_, by simp⟩
    rw [hs.entries_eq, addedPaths, addedEntries, List.append_nil, hid, hmap]
  | cons p ps ih =>
    intro s s' pre t hs h
    obtain ⟨s₁, hstep, hrest⟩ := foldlM_cons_eq_ok.mp h
    obtain ⟨d, hd, hcase⟩ := copyStep_eq_ok hs hstep
    obtain ⟨hdmem, hdp⟩ := entryByPath_path hd
    have hdonor : (∀ q ∈ ps, ∃ d ∈ donor, d.path = q) → ∀ q ∈ p :: ps, ∃ d ∈ donor, d.path = q :=
      fun hall q hq => by
        rcases List.mem_cons.mp hq with rfl | hq
        · exact ⟨d, hdmem, hdp⟩
        · exact hall q hq
    rcases hcase with ⟨hnew, hnext, hinv⟩ | ⟨hold, hnext, hinv⟩
    · obtain ⟨hentries, hall⟩ := ih (hinv hdp) hrest
      have hne : p ∉ paths pre ∧ t.path ≠ p := by
        rw [paths, List.map_append] at hnew
        simp only [List.map_cons, List.map_nil, List.mem_append, List.mem_singleton] at hnew
        exact ⟨fun h => hnew (.inl h), fun h => hnew (.inr h.symm)⟩
      have hseen : addedPaths (paths (pre ++ [{ d with inode := s.nextInode }] ++ [t])) ps =
          addedPaths (p :: paths (pre ++ [t])) ps := addedPaths_congr (fun q => by
        have hpath : ({ d with inode := s.nextInode } : NewcEntry).path = p := hdp
        simp only [paths, List.map_append, List.map_cons, List.map_nil, hpath, List.mem_append,
          List.mem_cons]
        tauto) ps
      refine ⟨?_, hdonor hall⟩
      rw [hentries, hnext, hseen, addedPaths, if_neg hnew, addedEntries, hd,
        map_copyAll_of_notMem hne.1, copyAll_cons_of_ne hne.2, List.map_append, List.map_singleton,
        copyAll_added (hdp ▸ hd)]
      simp
    · obtain ⟨hentries, hall⟩ := ih hinv hrest
      have hpaths : paths (pre.map (copyOne p d) ++ [copyOne p d t]) = paths (pre ++ [t]) := by
        rw [← List.map_singleton, ← List.map_append, paths_map (path_copyOne _ _)]
      refine ⟨?_, hdonor hall⟩
      rw [hentries, hnext, hpaths, addedPaths, if_pos hold, List.map_map, copyAll_copyOne hd]
      congr 2
      exact List.map_congr_left fun e _ => copyAll_copyOne hd ps e

theorem paths_addedEntries {donor : List NewcEntry} {ps : List Path} {next : ℤ}
    (h : ∀ p ∈ ps, ∃ d ∈ donor, d.path = p) :
    paths (addedEntries (entryByPath donor) next ps) = ps := by
  induction ps generalizing next with
  | nil => rfl
  | cons p ps ih =>
    obtain ⟨d, hd, hp⟩ := h p (by simp)
    cases he : entryByPath donor p with
    | none =>
      rw [entryByPath, Dict.ofPairs_eq_none_iff, List.map_map] at he
      exact absurd (List.mem_map.mpr ⟨d, hd, hp⟩) he
    | some d' =>
      have hpath : ({ d' with inode := next } : NewcEntry).path = p := (entryByPath_path he).2
      rw [addedEntries, he, Option.elim_some, List.singleton_append, paths, List.map_cons, hpath]
      congr 1
      exact ih fun q hq => h q (by simp [hq])

/-- The largest inode number of a list of entries. -/
def maxInode (entries : List NewcEntry) : ℤ := ((entries.map NewcEntry.inode).max?).getD 0

/-- **`copied_archive` in closed form.** -/
theorem copiedArchive_eq_ok {base donor copied : NewcArchive} {ps : List Path}
    {actions : List (Path × Action)} {init : List NewcEntry} {t : NewcEntry}
    (hentries : base.entries = init ++ [t]) (ht : t.path = trailerPath)
    (hnodup : (paths base.entries).Nodup) (h : copiedArchive base donor ps = .ok (copied, actions)) :
    copied.entries = init.map (copyAll (entryByPath donor.entries) ps) ++
        addedEntries (entryByPath donor.entries) (maxInode base.entries + 1)
          (addedPaths (paths base.entries) ps) ++
        [copyAll (entryByPath donor.entries) ps t] ∧
      copied.tail = base.tail ∧ ∀ p ∈ ps, ∃ d ∈ donor.entries, d.path = p := by
  unfold copiedArchive at h
  cases hi : indexByPath base.entries trailerPath with
  | none => rw [hi] at h; cases h
  | some i =>
    rw [hi] at h
    dsimp only at h
    cases hmax : (base.entries.map NewcEntry.inode).max? with
    | none => rw [hmax] at h; cases h
    | some m =>
      rw [hmax] at h
      obtain ⟨s, hloop, hres⟩ := bind_eq_ok.mp h
      simp only [Except.ok.injEq, Prod.mk.injEq] at hres
      obtain ⟨rfl, -⟩ := hres
      -- the trailer is last
      have hlast : i = init.length := by
        obtain ⟨e, he, hep⟩ := (indexByPath_eq_some_iff hnodup).mp hi
        have htrailer : base.entries[init.length]? = some t := by simp [hentries]
        have hlt := (indexByPath_eq_some_iff hnodup).mpr ⟨t, htrailer, ht⟩
        exact Option.some.inj (hi.symm.trans hlt)
      have hinv : CopyInv ⟨base.entries, indexByPath base.entries, i, m + 1, []⟩ init t :=
        ⟨hentries, hnodup, hlast, rfl⟩
      obtain ⟨heq, hdonor⟩ := foldlM_copyStep hinv hloop
      refine ⟨?_, rfl, hdonor⟩
      rw [heq, maxInode, hmax, Option.getD_some, ← hentries]

/-! ## Replacing data -/

/-- The contents of the replacements; the last one of a path counts. -/
def payloadByPath (replacements : List (Path × Source)) : Dict Path Bytes :=
  Dict.ofPairs (replacements.filterMap fun r => r.2.content.map fun payload => (r.1, payload))

/-- What the replacements make of an entry. -/
def replaceAll (replacements : List (Path × Source)) (e : NewcEntry) : NewcEntry :=
  (payloadByPath replacements e.path).elim e fun payload => { e with data := payload }

@[simp] theorem path_replaceAll (replacements : List (Path × Source)) (e : NewcEntry) :
    (replaceAll replacements e).path = e.path := by
  unfold replaceAll
  cases payloadByPath replacements e.path <;> rfl

theorem mode_replaceAll (replacements : List (Path × Source)) (e : NewcEntry) :
    (replaceAll replacements e).mode = e.mode := by
  unfold replaceAll
  cases payloadByPath replacements e.path <;> rfl

theorem inode_replaceAll (rs : List (Path × Source)) (e : NewcEntry) :
    (replaceAll rs e).inode = e.inode := by
  unfold replaceAll
  cases payloadByPath rs e.path <;> rfl

theorem name_replaceAll (rs : List (Path × Source)) (e : NewcEntry) :
    (replaceAll rs e).name = e.name := path_replaceAll rs e

theorem magic_replaceAll (rs : List (Path × Source)) (e : NewcEntry) :
    (replaceAll rs e).magic = e.magic := by
  unfold replaceAll
  cases payloadByPath rs e.path <;> rfl

/-- Replacing the data of one path. -/
def replaceOne (p : Path) (payload : Bytes) (e : NewcEntry) : NewcEntry :=
  if e.path = p then { e with data := payload } else e

@[simp] theorem path_replaceOne (p : Path) (payload : Bytes) (e : NewcEntry) :
    (replaceOne p payload e).path = e.path := by
  unfold replaceOne
  split_ifs <;> rfl

theorem mode_replaceOne (p : Path) (payload : Bytes) (e : NewcEntry) :
    (replaceOne p payload e).mode = e.mode := by
  unfold replaceOne
  split_ifs <;> rfl

theorem replaceAll_replaceOne {p : Path} {source : Source} {payload : Bytes}
    (h : source.content = some payload) (rs : List (Path × Source)) (e : NewcEntry) :
    replaceAll rs (replaceOne p payload e) = replaceAll ((p, source) :: rs) e := by
  have hcons : payloadByPath ((p, source) :: rs) e.path =
      (payloadByPath rs e.path).or (if e.path = p then some payload else none) := by
    rw [payloadByPath, List.filterMap_cons, h]
    exact Dict.ofPairs_cons _ _ _
  rw [replaceAll, replaceAll, path_replaceOne, hcons, replaceOne]
  cases payloadByPath rs e.path <;> split_ifs <;> rfl

/-- The path names a regular file other than the trailer. -/
def RegularAt (entries : List NewcEntry) (p : Path) : Prop :=
  p ≠ trailerPath ∧ ∃ e ∈ entries, e.path = p ∧ sIsreg e.mode = .ok true

theorem RegularAt.of_map {f : NewcEntry → NewcEntry} {entries : List NewcEntry} {p : Path}
    (hpath : ∀ e, (f e).path = e.path) (hmode : ∀ e, (f e).mode = e.mode)
    (h : RegularAt (entries.map f) p) : RegularAt entries p := by
  obtain ⟨hne, e, he, hp, hreg⟩ := h
  obtain ⟨d, hd, rfl⟩ := List.mem_map.mp he
  exact ⟨hne, d, hd, (hpath d).symm.trans hp, by rw [← hmode]; exact hreg⟩

/-- One replacement. -/
theorem replaceStep_eq_ok {baseIndex : Dict Path ℕ} {s s' : List NewcEntry × List (Path × Source × ℕ)}
    {r : Path × Source} (hindex : baseIndex = indexByPath s.1) (hnodup : (paths s.1).Nodup)
    (h : replaceStep baseIndex s r = .ok s') :
    RegularAt s.1 r.1 ∧ ∃ payload, r.2.content = some payload ∧
      s'.1 = s.1.map (replaceOne r.1 payload) := by
  obtain ⟨p, source⟩ := r
  unfold replaceStep at h
  dsimp only at h ⊢
  cases hi : baseIndex p with
  | none => rw [hi] at h; cases h
  | some i =>
    rw [hi] at h
    rw [hindex, indexByPath_eq_some_iff hnodup] at hi
    obtain ⟨e, he, rfl⟩ := hi
    dsimp only at h
    rw [he] at h
    dsimp only at h
    split_ifs at h with hne
    cases hreg : sIsreg e.mode with
    | error err => rw [hreg] at h; cases h
    | ok reg =>
      rw [hreg] at h
      cases reg with
      | false => cases h
      | true =>
        cases hc : source.content with
        | none => rw [hc] at h; cases h
        | some payload =>
          rw [hc] at h
          obtain rfl := Except.ok.inj h
          refine ⟨⟨hne, e, List.mem_of_getElem? he, rfl, hreg⟩, payload, rfl, ?_⟩
          exact set_eq_map hnodup he fun x => { x with data := payload }

/-- The loop of `data_replaced_archive`, by induction on the replacements. -/
theorem foldlM_replaceStep {baseIndex : Dict Path ℕ} : ∀ {rs : List (Path × Source)}
    {s s' : List NewcEntry × List (Path × Source × ℕ)}, baseIndex = indexByPath s.1 →
    (paths s.1).Nodup → rs.foldlM (replaceStep baseIndex) s = .ok s' →
    s'.1 = s.1.map (replaceAll rs) ∧
      ∀ r ∈ rs, RegularAt s.1 r.1 ∧ ∃ payload, r.2.content = some payload := by
  intro rs
  induction rs with
  | nil =>
    intro s s' _ _ h
    obtain rfl : s = s' := Except.ok.inj h
    refine ⟨?_, by simp⟩
    conv_lhs => rw [← List.map_id s.1]
    exact List.map_congr_left fun e _ => rfl
  | cons r rs ih =>
    intro s s' hindex hnodup h
    obtain ⟨s₁, hstep, hrest⟩ := foldlM_cons_eq_ok.mp h
    obtain ⟨hreg, payload, hpayload, hs₁⟩ := replaceStep_eq_ok hindex hnodup hstep
    have hpaths : paths s₁.1 = paths s.1 := by
      rw [hs₁, paths_map (path_replaceOne _ _)]
    obtain ⟨hentries, hall⟩ := ih (by rw [hindex, indexByPath_eq, indexByPath_eq, hpaths])
      (hpaths ▸ hnodup) hrest
    refine ⟨?_, fun q hq => ?_⟩
    · rw [hentries, hs₁, List.map_map]
      exact List.map_congr_left fun e _ => replaceAll_replaceOne hpayload rs e
    · rcases List.mem_cons.mp hq with rfl | hq
      · exact ⟨hreg, payload, hpayload⟩
      · rw [hs₁] at hall
        exact ⟨(hall q hq).1.of_map (path_replaceOne _ _) (mode_replaceOne _ _), (hall q hq).2⟩

/-- **`data_replaced_archive` in closed form.** -/
theorem dataReplacedArchive_eq_ok {base replaced : NewcArchive} {rs : List (Path × Source)}
    {actions : List (Path × Source × ℕ)} (hnodup : (paths base.entries).Nodup)
    (h : dataReplacedArchive base rs = .ok (replaced, actions)) :
    replaced.entries = base.entries.map (replaceAll rs) ∧ replaced.tail = base.tail ∧
      ∀ r ∈ rs, RegularAt base.entries r.1 ∧ ∃ payload, r.2.content = some payload := by
  obtain ⟨s, hloop, hres⟩ := bind_eq_ok.mp h
  simp only [Except.ok.injEq, Prod.mk.injEq] at hres
  obtain ⟨rfl, -⟩ := hres
  obtain ⟨hentries, hall⟩ := foldlM_replaceStep (s := (base.entries, [])) rfl hnodup hloop
  exact ⟨hentries, rfl, hall⟩

/-! ## Deleting -/

/-- What deletion has checked of a path. -/
structure Deletable (entries : List NewcEntry) (deletePaths : List Path) (p : Path) : Prop where
  single : ∃ e ∈ entries, e.path = p ∧ e.links ≤ 1
  below : ∀ c ∈ paths entries, isBelow p c = true → c ∈ deletePaths

theorem deleteCheck_eq_ok {entries : List NewcEntry} {deletePaths : List Path} {p : Path}
    (h : deleteCheck entries deletePaths p = .ok ()) : Deletable entries deletePaths p := by
  unfold deleteCheck at h
  cases he : entryByPath entries p with
  | none => rw [he] at h; cases h
  | some e =>
    rw [he] at h
    dsimp only at h
    split_ifs at h with hlinks hbelow
    obtain ⟨hmem, hp⟩ := entryByPath_path he
    refine ⟨⟨e, hmem, hp, by omega⟩, fun c hc hpc => ?_⟩
    by_contra hnot
    exact hbelow (List.any_eq_true.mpr ⟨c, hc, by simp [hpc, hnot]⟩)

/-- **`deleted_archive` in closed form.** -/
theorem deletedArchive_eq_ok {base deleted : NewcArchive} {ps : List Path}
    {actions : List (Path × Action)} (h : deletedArchive base ps = .ok (deleted, actions)) :
    deleted.entries = base.entries.filter (fun e => !ps.contains e.path) ∧
      deleted.tail = base.tail ∧ trailerPath ∉ ps ∧ ∀ p ∈ ps, Deletable base.entries ps p := by
  unfold deletedArchive at h
  split_ifs at h with htrailer
  obtain ⟨_, hloop, hres⟩ := bind_eq_ok.mp h
  simp only [Except.ok.injEq, Prod.mk.injEq] at hres
  obtain ⟨rfl, -⟩ := hres
  exact ⟨rfl, rfl, htrailer, fun p hp => deleteCheck_eq_ok (forM_eq_ok.mp hloop p hp)⟩

/-! ## The three mutations together -/

/-- Inputs that pass the gate and arguments that the mutations accept. -/
structure Accepted (basePayload donorPayload : Bytes) (base donor : NewcArchive) (args : Arguments)
    (rewritten : NewcArchive) : Prop where
  base_gate : Gate basePayload base
  donor_gate : Gate donorPayload donor
  mutations : ∃ copied replaced copyActions replaceActions deleteActions,
    copiedArchive base donor args.copy = .ok (copied, copyActions) ∧
      dataReplacedArchive copied args.replaceData = .ok (replaced, replaceActions) ∧
      deletedArchive replaced args.delete = .ok (rewritten, deleteActions)

/-- What the rewriting makes of a base entry that is not deleted. -/
def rewriteEntry (donor : NewcArchive) (args : Arguments) (e : NewcEntry) : NewcEntry :=
  replaceAll args.replaceData (copyAll (entryByPath donor.entries) args.copy e)

/-- The entries the rewriting adds, before data replacement. -/
def added (base donor : NewcArchive) (args : Arguments) : List NewcEntry :=
  addedEntries (entryByPath donor.entries) (maxInode base.entries + 1)
    (addedPaths (paths base.entries) args.copy)

/-- The path is not deleted. -/
def Arguments.keeps (args : Arguments) (e : NewcEntry) : Bool := !args.delete.contains e.path

@[simp] theorem path_rewriteEntry (donor : NewcArchive) (args : Arguments) (e : NewcEntry) :
    (rewriteEntry donor args e).path = e.path := by
  rw [rewriteEntry, path_replaceAll, path_copyAll]

namespace Accepted

variable {basePayload donorPayload : Bytes} {base donor rewritten : NewcArchive} {args : Arguments}

/-- Everything the three functions have checked and computed, with `t` the
    trailer of the base. -/
structure ClosedForm (base donor : NewcArchive) (args : Arguments) (rewritten : NewcArchive)
    (init : List NewcEntry) (t : NewcEntry) : Prop where
  base_eq : base.entries = init ++ [t]
  trailer : t.path = trailerPath
  entries_eq : rewritten.entries =
    (init.map (rewriteEntry donor args)).filter args.keeps ++
      ((added base donor args).map (replaceAll args.replaceData)).filter args.keeps ++
      [rewriteEntry donor args t]
  tail_eq : rewritten.tail = base.tail
  in_donor : ∀ p ∈ args.copy, ∃ d ∈ donor.entries, d.path = p
  regular : ∀ r ∈ args.replaceData,
    RegularAt (base.entries.map (copyAll (entryByPath donor.entries) args.copy) ++
      added base donor args) r.1 ∧ ∃ payload, r.2.content = some payload
  trailer_kept : trailerPath ∉ args.delete
  deletable : ∀ p ∈ args.delete,
    Deletable (base.entries.map (rewriteEntry donor args) ++
      (added base donor args).map (replaceAll args.replaceData)) args.delete p

theorem closedForm (h : Accepted basePayload donorPayload base donor args rewritten) :
    ∃ init t, ClosedForm base donor args rewritten init t := by
  obtain ⟨copied, replaced, _, _, _, hcopy, hreplace, hdelete⟩ := h.mutations
  have hw := h.base_gate.wellFormed
  obtain ⟨init, t, hbase, ht⟩ := hw.trailer_last
  obtain ⟨hcopied, hctail, hdonor⟩ := copiedArchive_eq_ok hbase ht hw.nodup hcopy
  have hfresh : ∀ p ∈ addedPaths (paths base.entries) args.copy, ∃ d ∈ donor.entries, d.path = p :=
    fun p hp => hdonor p (mem_addedPaths.mp hp).1
  -- the trailer moves behind the added entries
  have hperm : copied.entries.Perm
      (base.entries.map (copyAll (entryByPath donor.entries) args.copy) ++ added base donor args) := by
    rw [hcopied, ← added]
    generalize added base donor args = new
    rw [hbase, List.map_append, List.append_assoc, List.append_assoc]
    exact List.Perm.append_left _ List.perm_append_comm
  have hnodup : (paths copied.entries).Nodup := by
    have hpaths := paths_map (path_copyAll (entryByPath donor.entries) args.copy) base.entries
    have hadded : paths (added base donor args) = addedPaths (paths base.entries) args.copy :=
      paths_addedEntries hfresh
    have hmap := (hperm.map NewcEntry.path).nodup_iff
    rw [List.map_append, ← paths, ← paths, ← paths, hpaths, hadded] at hmap
    refine hmap.mpr (List.nodup_append.mpr ⟨hw.nodup, nodup_addedPaths _ _, ?_⟩)
    rintro p hp q hq rfl
    exact (mem_addedPaths.mp hq).2 hp
  obtain ⟨hreplaced, hrtail, hregular⟩ := dataReplacedArchive_eq_ok hnodup hreplace
  obtain ⟨hdeleted, hdtail, htrailer, hdeletable⟩ := deletedArchive_eq_ok hdelete
  refine ⟨init, t, hbase, ht, ?_, by rw [hdtail, hrtail, hctail], hdonor, ?_, htrailer, ?_⟩
  · have hkeep : args.keeps (rewriteEntry donor args t) = true := by
      simp [Arguments.keeps, ht, htrailer]
    rw [hdeleted, hreplaced, hcopied, List.map_append, List.map_append, List.map_map,
      List.map_singleton, List.filter_append, List.filter_append]
    congr 1
    exact List.filter_cons_of_pos hkeep
  · intro r hr
    obtain ⟨⟨hne, e, he, hreg⟩, hpayload⟩ := hregular r hr
    exact ⟨⟨hne, e, hperm.mem_iff.mp he, hreg⟩, hpayload⟩
  · intro p hp
    have hperm' : replaced.entries.Perm (base.entries.map (rewriteEntry donor args) ++
        (added base donor args).map (replaceAll args.replaceData)) := by
      rw [hreplaced]
      refine (hperm.map _).trans (.of_eq ?_)
      rw [List.map_append, List.map_map]
      rfl
    obtain ⟨⟨e, he, hlinks⟩, hbelow⟩ := hdeletable p hp
    exact ⟨⟨e, hperm'.mem_iff.mp he, hlinks⟩, fun c hc => hbelow c ((hperm'.map _).mem_iff.mpr hc)⟩

theorem ClosedForm.mem_iff {init : List NewcEntry} {t : NewcEntry}
    (c : ClosedForm base donor args rewritten init t) {e : NewcEntry} :
    e ∈ rewritten.entries ↔ e.path ∉ args.delete ∧
      ((∃ b ∈ base.entries, rewriteEntry donor args b = e) ∨
        ∃ a ∈ added base donor args, replaceAll args.replaceData a = e) := by
  have hkeeps : args.keeps e = true ↔ e.path ∉ args.delete := by simp [Arguments.keeps]
  have htrailer : rewriteEntry donor args t = e → e.path ∉ args.delete := fun h => by
    rw [← h, path_rewriteEntry, c.trailer]
    exact c.trailer_kept
  rw [c.entries_eq, c.base_eq]
  simp only [List.mem_append, List.mem_filter, List.mem_map, List.mem_singleton, hkeeps]
  constructor
  · rintro ((⟨⟨b, hb, rfl⟩, hk⟩ | ⟨⟨a, ha, rfl⟩, hk⟩) | rfl)
    · exact ⟨hk, .inl ⟨b, .inl hb, rfl⟩⟩
    · exact ⟨hk, .inr ⟨a, ha, rfl⟩⟩
    · exact ⟨htrailer rfl, .inl ⟨t, .inr rfl, rfl⟩⟩
  · rintro ⟨hk, ⟨b, hb | rfl, rfl⟩ | ⟨a, ha, rfl⟩⟩
    · exact .inl (.inl ⟨⟨b, hb, rfl⟩, hk⟩)
    · exact .inr rfl
    · exact .inl (.inr ⟨⟨a, ha, rfl⟩, hk⟩)

/-- An added entry is a donor entry but for its inode number, and its path is
    new. -/
theorem mem_added {a : NewcEntry} (h : a ∈ added base donor args) :
    ∃ (i : ℕ) (d : NewcEntry), (addedPaths (paths base.entries) args.copy)[i]? = some d.path ∧
      d ∈ donor.entries ∧ a = { d with inode := maxInode base.entries + 1 + i } := by
  obtain ⟨i, p, d, hp, hd, rfl⟩ := mem_addedEntries.mp h
  obtain ⟨hmem, rfl⟩ := entryByPath_path hd
  exact ⟨i, d, hp, hmem, rfl⟩

theorem path_added {a : NewcEntry} (h : a ∈ added base donor args) :
    a.path ∈ args.copy ∧ a.path ∉ paths base.entries :=
  mem_addedPaths.mp (path_of_mem_addedEntries h)

/-- The rewritten archive has distinct paths. -/
theorem ClosedForm.nodup {init : List NewcEntry} {t : NewcEntry}
    (c : ClosedForm base donor args rewritten init t) (hnodup : (paths base.entries).Nodup) :
    (paths rewritten.entries).Nodup := by
  have hbase : paths (base.entries.map (rewriteEntry donor args)) = paths base.entries :=
    paths_map (path_rewriteEntry donor args) _
  have hadded : paths ((added base donor args).map (replaceAll args.replaceData)) =
      addedPaths (paths base.entries) args.copy := by
    rw [paths_map (path_replaceAll args.replaceData)]
    exact paths_addedEntries fun p hp => c.in_donor p (mem_addedPaths.mp hp).1
  have hall : (paths (base.entries.map (rewriteEntry donor args)) ++
      paths ((added base donor args).map (replaceAll args.replaceData))).Nodup := by
    rw [hbase, hadded]
    refine List.nodup_append.mpr ⟨hnodup, nodup_addedPaths _ _, ?_⟩
    rintro p hp q hq rfl
    exact (mem_addedPaths.mp hq).2 hp
  have hsub : rewritten.entries.Perm (((base.entries.map (rewriteEntry donor args)) ++
      (added base donor args).map (replaceAll args.replaceData)).filter args.keeps) := by
    have hkeep : args.keeps (rewriteEntry donor args t) = true := by
      simp [Arguments.keeps, c.trailer, c.trailer_kept]
    rw [c.entries_eq, List.filter_append]
    generalize added base donor args = new
    rw [c.base_eq, List.map_append, List.filter_append, List.append_assoc, List.append_assoc,
      List.map_singleton, List.filter_cons_of_pos hkeep, List.filter_nil]
    exact List.Perm.append_left _ List.perm_append_comm
  rw [paths, (hsub.map _).nodup_iff]
  rw [paths, paths, ← List.map_append] at hall
  exact hall.sublist (List.filter_sublist.map _)

theorem magic_rewriteEntry (e : NewcEntry) : (rewriteEntry donor args e).magic = e.magic := by
  rw [rewriteEntry, magic_replaceAll, copyAll]
  split_ifs
  · cases entryByPath donor.entries e.path <;> rfl
  · rfl

/-- The rewritten archive is well formed. -/
theorem wellFormed (h : Accepted basePayload donorPayload base donor args rewritten) :
    WellFormed rewritten := by
  obtain ⟨init, t, c⟩ := h.closedForm
  have hb := h.base_gate.wellFormed
  have hd := h.donor_gate.wellFormed
  refine ⟨?_, ?_, c.nodup hb.nodup, _, _, c.entries_eq, (path_rewriteEntry _ _ t).trans c.trailer⟩
  · intro e he
    obtain ⟨-, ⟨b, hbmem, rfl⟩ | ⟨a, ha, rfl⟩⟩ := c.mem_iff.mp he
    · rw [NewcEntry.MagicOk, magic_rewriteEntry]
      exact hb.magic_ok b hbmem
    · obtain ⟨i, d, -, hdmem, rfl⟩ := mem_added ha
      rw [NewcEntry.MagicOk, magic_replaceAll]
      exact hd.magic_ok d hdmem
  · intro e he
    obtain ⟨-, ⟨b, hbmem, rfl⟩ | ⟨a, ha, rfl⟩⟩ := c.mem_iff.mp he
    · rw [show (rewriteEntry donor args b).name = b.name from path_rewriteEntry donor args b]
      exact hb.name_utf8 b hbmem
    · obtain ⟨i, d, -, hdmem, rfl⟩ := mem_added ha
      rw [name_replaceAll]
      exact hd.name_utf8 d hdmem

end Accepted

/-! ## `main` -/

/-- What `main` has checked of the argument lists. -/
structure DisjointLists (args : Arguments) : Prop where
  copy : args.copy.Nodup
  delete : args.delete.Nodup
  replace : args.replacePaths.Nodup
  copy_delete : ∀ p ∈ args.copy, p ∉ args.delete
  copy_replace : ∀ p ∈ args.copy, p ∉ args.replacePaths
  delete_replace : ∀ p ∈ args.delete, p ∉ args.replacePaths

theorem checkArguments_eq_ok {args : Arguments} {hasDonor : Bool}
    (h : checkArguments args hasDonor = .ok ()) :
    DisjointLists args ∧ (args.copy ≠ [] → hasDonor = true) := by
  unfold checkArguments at h
  split_ifs at h with h1 h2 h3 h4 h5 h6
  have hoverlap : args.overlap = [] := not_not.mp h4
  rw [Arguments.overlap, List.append_eq_nil_iff, List.filter_eq_nil_iff,
    List.filter_eq_nil_iff] at hoverlap
  simp only [decide_eq_true_eq, not_or] at hoverlap
  refine ⟨⟨h1, h2, h3, fun p hp => (hoverlap.1 p hp).1,
    fun p hp => (hoverlap.1 p hp).2, hoverlap.2⟩, fun hne => ?_⟩
  by_contra hfalse
  exact h6 ⟨hne, by simpa using hfalse⟩

/-- The gate is what `main` checks. -/
theorem gatedArchive_eq_ok_iff {cpio : Bytes} {error : MainError} {a : NewcArchive} :
    gatedArchive cpio error = .ok a ↔ Gate cpio a := by
  unfold gatedArchive
  constructor
  · intro h
    cases hp : NewcArchive.parse cpio with
    | error err => rw [hp] at h; cases h
    | ok archive =>
      rw [hp] at h
      dsimp only at h
      split_ifs at h with hne
      obtain rfl := Except.ok.inj h
      exact ⟨hp, not_not.mp hne⟩
  · intro h
    rw [h.parsed]
    exact if_neg (not_not.mpr h.round_trips)

/-- Copying nothing. -/
theorem copiedArchive_nil {cpio : Bytes} {base : NewcArchive} (h : Gate cpio base)
    (donor : NewcArchive) : copiedArchive base donor [] = .ok (base, []) := by
  obtain ⟨init, t, hbase, ht⟩ := h.wellFormed.trailer_last
  have htmem : t ∈ base.entries := by simp [hbase]
  unfold copiedArchive
  cases hi : indexByPath base.entries trailerPath with
  | none => exact absurd (mem_paths.mpr ⟨t, htmem, ht⟩) (indexByPath_eq_none_iff.mp hi)
  | some i =>
    cases hmax : (base.entries.map NewcEntry.inode).max? with
    | none =>
      rw [List.max?_eq_none_iff, List.map_eq_nil_iff] at hmax
      exact absurd (hmax ▸ htmem) (by simp)
    | some m => rfl

/-- **What `main` has checked and computed** when it writes an archive. Without
    a donor nothing is copied, and the base can stand in for it. -/
theorem rewrite_accepted {baseCpio : Bytes} {donorCpio : Option Bytes} {args : Arguments}
    {base rewritten : NewcArchive} {donor : Option NewcArchive}
    (h : rewrite baseCpio donorCpio args = .ok (base, donor, rewritten)) :
    DisjointLists args ∧ ∃ donorPayload, Accepted baseCpio donorPayload base (donor.getD base) args
      rewritten := by
  obtain ⟨_, hargs, h⟩ := bind_eq_ok.mp h
  obtain ⟨base', hbase, h⟩ := bind_eq_ok.mp h
  obtain ⟨donor', hdonor, h⟩ := bind_eq_ok.mp h
  obtain ⟨hlists, hneeds⟩ := checkArguments_eq_ok hargs
  have hbgate := gatedArchive_eq_ok_iff.mp hbase
  cases hm : mutated base' donor' args with
  | error err => rw [hm] at h; cases h
  | ok rewritten' =>
    rw [hm] at h
    simp only [Except.ok.injEq, Prod.mk.injEq] at h
    obtain ⟨rfl, rfl, rfl⟩ := h
    obtain ⟨⟨copied, copyActions⟩, hcopy, hm⟩ := bind_eq_ok.mp hm
    obtain ⟨⟨replaced, replaceActions⟩, hreplace, hm⟩ := bind_eq_ok.mp hm
    obtain ⟨⟨deleted, deleteActions⟩, hdelete, hm⟩ := bind_eq_ok.mp hm
    obtain rfl := Except.ok.inj hm
    refine ⟨hlists, ?_⟩
    cases donorCpio with
    | none =>
      obtain rfl := Except.ok.inj hdonor
      have hnil : args.copy = [] := by
        by_contra hne
        exact absurd (hneeds hne) (by simp)
      rw [hnil] at hcopy
      obtain ⟨rfl, rfl⟩ := Prod.mk.inj (Except.ok.inj hcopy)
      exact ⟨baseCpio, hbgate, hbgate, _, _, _, _, _, by rw [hnil]; exact copiedArchive_nil hbgate _,
        hreplace, hdelete⟩
    | some donorPayload =>
      obtain ⟨d, hd, hsome⟩ : ∃ d, gatedArchive donorPayload .donorRoundTrip = .ok d ∧
          donor' = some d := by
        rw [gatedDonor] at hdonor
        cases hg : gatedArchive donorPayload .donorRoundTrip with
        | error err => rw [hg] at hdonor; cases hdonor
        | ok d => rw [hg] at hdonor; exact ⟨d, rfl, (Except.ok.inj hdonor).symm⟩
      subst hsome
      have hcopied : copiedArchive base' d args.copy = .ok (copied, copyActions) := by
        cases hc : args.copy with
        | nil =>
          rw [hc] at hcopy
          rw [copiedArchive_nil hbgate]
          exact hcopy
        | cons p ps =>
          rw [hc] at hcopy
          exact hcopy
      exact ⟨donorPayload, hbgate, gatedArchive_eq_ok_iff.mp hd, _, _, _, _, _, hcopied, hreplace, hdelete⟩

end Pro5Android.Newc
