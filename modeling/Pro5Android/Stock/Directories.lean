import Pro5Android.Lib.Walk
import Pro5Android.Stock.Search
import Pro5Android.Stock.SourcePath

/-!
# The tools that walk over an image

`main` of `tools/find-ext4-files.py` (lines 27–66) and of `tools/search-ext4-bytes.py`
(lines 27–101), and `relocated_candidates` of `tools/audit-proprietary-files.py`
(lines 58–86), walk over all directories of an image with a stack and a set of inode
numbers. The image is what `volume.inodes` returns or raises for a number, and may have
directories in each other. A printed line is a constructor; an exception is `none`.

Results:
* `walk_ends`: a walk whose visitor fails at no entry ends, and has been shown all of them.
* `findFiles_complete`, `searchBytes_complete`, `relocatedCandidates_complete`: each tool
  ends and reports every entry of every directory that can be reached.
-/

namespace Pro5Android.Stock

open Python Lib

/-! ## The image -/

/-- What `volume.inodes` returns. -/
inductive VolumeInode
  /-- a `Directory`, with the names and inode numbers of its entries -/
  | directory (dirents : List (Str × ℕ))
  /-- a `File`: `open()` raises (`none`), or the results of `read` and whether the one after
      them raises -/
  | file (source : Option (List Bytes × Bool))
  /-- a `SymbolicLink` -/
  | symbolicLink
  /-- any other inode -/
  | other

structure Volume where
  /-- `volume.root.i_no` -/
  root : ℕ
  inodes : ℕ → Option VolumeInode

/-- The entries that the loops do not skip. -/
def dirEntries (dirents : List (Str × ℕ)) : List (Str × ℕ) :=
  dirents.filter fun dirent => dirent.1 ≠ str "." && dirent.1 ≠ str ".."

/-- `parent / name`. -/
def joinName (parent : PurePosixPath) (name : Str) : PurePosixPath :=
  .parse (PurePosixPath.join parent.toStr name)

/-- The directories of an image. -/
def Volume.graph (volume : Volume) : Graph ℕ Str PurePosixPath where
  edges inodeNumber := match volume.inodes inodeNumber with
    | some (.directory dirents) => some (dirEntries dirents)
    | _ => none
  extend := joinName

/-- A walk over them; `visit` is what a tool does with an inode. -/
def Volume.walk {σ : Type*} (volume : Volume)
    (visit : σ → PurePosixPath → Str → VolumeInode → Option σ) : Walk ℕ Str PurePosixPath σ where
  toGraph := volume.graph
  visit kept path name inodeNumber := (volume.inodes inodeNumber).bind (visit kept path name)

/-- `PurePosixPath("/")`. -/
def rootPath : PurePosixPath := .parse (str "/")

/-! ## `find-ext4-files.py` -/

/-- The loop body (lines 46–48). -/
def findVisit (wanted : List Str) (found : Str → List Str) (path : PurePosixPath) (name : Str)
    (_ : VolumeInode) : Option (Str → List Str) :=
  some fun n =>
    if n = name ∧ wanted.any fun w => w = name then found n ++ [path.toStr] else found n

/-- The lines of both reports. -/
inductive Line (κ : Type)
  | found (key : κ) (path : Str)
  | missing (key : κ)
deriving DecidableEq

/-- The order of `sorted` on texts. -/
def strLe : Str → Str → Bool
  | [], _ => true
  | _ :: _, [] => false
  | a :: s, b :: t => a.toNat < b.toNat || (a.toNat == b.toNat && strLe s t)

/-- The lines for one key (find-ext4-files.py, lines 55–61; search-ext4-bytes.py, lines
    91–97). -/
def keyLines {κ : Type} (found : κ → List Str) (key : κ) : List (Line κ) :=
  if found key = [] then [.missing key] else ((found key).mergeSort strLe).map (.found key)

/-- The lines and the exit status of `find-ext4-files.py`. -/
def findReport (names : List Str) (found : Str → List Str) : List (Line Str) × ℕ :=
  let wanted := names.dedup.mergeSort strLe
  (wanted.flatMap (keyLines found), if wanted.any fun name => found name = [] then 1 else 0)

/-- `main` of `find-ext4-files.py`, up to the report. -/
def findFiles (volume : Volume) (names : List Str) : Walk ℕ Str PurePosixPath (Str → List Str) :=
  volume.walk (findVisit names)

/-! ## `search-ext4-bytes.py` -/

structure SearchResult where
  matched : Bytes → List Str
  filesScanned : ℕ
  bytesScanned : ℕ

/-- The loop body (lines 53–81). -/
def searchVisit (needles : OrderedDict Bytes Bytes) (overlap : ℤ) (r : SearchResult)
    (path : PurePosixPath) (_ : Str) : VolumeInode → Option SearchResult
  | .file (some (reads, false)) =>
    let scan := scanFile needles overlap reads
    some
      { matched := fun label =>
          if label ∈ scan.foundHere then r.matched label ++ [path.toStr] else r.matched label
        filesScanned := r.filesScanned + 1
        bytesScanned := r.bytesScanned + scan.bytesScanned }
  -- `Unable to read {path}: {error}`
  | .file _ => none
  | _ => some r

/-- `main` of `search-ext4-bytes.py`, up to the report. -/
def searchBytes (volume : Volume) (needles : OrderedDict Bytes Bytes) (overlap : ℤ) :
    Walk ℕ Str PurePosixPath SearchResult :=
  volume.walk (searchVisit needles overlap)

/-- The lines for the search strings and the exit status (lines 89–101). -/
def searchReport (args : List Bytes) (r : SearchResult) : List (Line Bytes) × ℕ :=
  (args.flatMap (keyLines r.matched), if args.any fun label => r.matched label = [] then 1 else 0)

/-! ## `relocated_candidates` -/

/-- `PurePosixPath(path).name`. -/
def baseName (path : Str) : Str := (PurePosixPath.parse path).tail.getLastD []

/-- The loop body (lines 79–81); `missing_by_name[name]` are the missing paths with that
    name, in their order. -/
def relocatedVisit (missing : List Str) (candidates : List (Str × Str)) (path : PurePosixPath)
    (name : Str) (_ : VolumeInode) : Option (List (Str × Str)) :=
  some (candidates ++
    (missing.filter fun original => baseName original = name).map fun original =>
      (original, path.toStr))

/-- `relocated_candidates`, without the final sort. -/
def relocatedCandidates (volume : Volume) (missing : List Str) :
    Walk ℕ Str PurePosixPath (List (Str × Str)) :=
  volume.walk (relocatedVisit missing)

/-! ## What the walks are shown -/

section

variable {volume : Volume}

/-- The way of names leads from the root of the image to an entry with this number. -/
def Volume.Leads (volume : Volume) (names : List Str) (inodeNumber : ℕ) : Prop :=
  volume.graph.Leads volume.root names inodeNumber

/-- The text of the path of these names below the root. -/
def pathText (names : List Str) : Str := (names.foldl joinName rootPath).toStr

/-- An image whose root is a directory, and whose inodes can be looked up. -/
structure Volume.Sound (volume : Volume) : Prop where
  root : (volume.graph.edges volume.root).isSome
  finite : ∃ inodeNumbers : Finset ℕ, ∀ names d, volume.Leads names d → d ∈ inodeNumbers
  inodes : ∀ names d, volume.Leads names d → (volume.inodes d).isSome

/-- A walk ends if its visitor does not fail at an entry, and has then seen all of them. -/
theorem walk_ends {σ : Type*} (visit : σ → PurePosixPath → Str → VolumeInode → Option σ)
    (h : volume.Sound) (kept : σ)
    (hvisit : ∀ names d inode, volume.Leads names d → volume.inodes d = some inode →
      ∀ kept path name, (visit kept path name inode).isSome) :
    ∃ order s, (volume.walk visit).loop.Ends (Walk.start volume.root rootPath kept) s ∧
      volume.graph.Explored volume.root rootPath order ∧
      (volume.graph.shown order).foldlM (volume.walk visit).visitShown kept = some s.kept := by
  obtain ⟨inodeNumbers, hfinite⟩ := h.finite
  obtain ⟨s, hs⟩ : ∃ s, (volume.walk visit).loop.Ends (Walk.start volume.root rootPath kept) s := by
    refine Walk.ends_of_finite rootPath kept h.root inodeNumbers
      (fun d ⟨⟨names, hleads⟩, _⟩ => hfinite names d hleads) ?_
    rintro d es ⟨⟨names, hleads⟩, -⟩ hes e he path kept
    have hleads' : volume.Leads (names ++ [e.1]) e.2 := .snoc hleads hes he
    obtain ⟨inode, hinode⟩ := Option.isSome_iff_exists.mp (h.inodes _ _ hleads')
    show ((volume.inodes e.2).bind (visit kept path e.1)).isSome
    rw [hinode]
    exact hvisit _ _ _ hleads' hinode kept path e.1
  obtain ⟨order, horder, hfold⟩ := Walk.Ends.explored h.root hs
  exact ⟨order, s, hs, horder, hfold⟩

/-- What a visitor preserves over one entry holds after all that were shown. -/
theorem foldlM_visitShown {σ : Type*} {visit : σ → PurePosixPath → Str → VolumeInode → Option σ}
    {entries : List (PurePosixPath × Str × ℕ)} {kept kept' : σ}
    (P : List (PurePosixPath × Str × ℕ) → σ → Prop) (h0 : P [] kept)
    (hstep : ∀ {seen kept path name d inode kept₁}, P seen kept → (path, name, d) ∈ entries →
      volume.inodes d = some inode → visit kept path name inode = some kept₁ →
        P (seen ++ [(path, name, d)]) kept₁)
    (h : entries.foldlM (volume.walk visit).visitShown kept = some kept') : P entries kept' := by
  induction entries using List.reverseRecOn generalizing kept' with
  | nil =>
    obtain rfl := Option.some.inj h
    exact h0
  | append_singleton entries e ih =>
    rw [List.foldlM_append] at h
    obtain ⟨kept₁, hkept₁, hlast⟩ := Option.bind_eq_some_iff.mp h
    obtain ⟨path, name, d⟩ := e
    rw [List.foldlM_cons] at hlast
    obtain ⟨kept₂, hkept₂, hnil⟩ := Option.bind_eq_some_iff.mp hlast
    obtain rfl := Option.some.inj hnil
    obtain ⟨inode, hinode, hvisit⟩ := Option.bind_eq_some_iff.mp hkept₂
    have hbefore := ih (fun hP hmem => hstep hP (List.mem_append_left _ hmem)) hkept₁
    exact hstep hbefore (List.mem_append_right _ (List.mem_singleton_self _)) hinode hvisit

/-- Two directories in each other, and a file in two chunks. -/
def sampleVolume : Volume where
  root := 2
  inodes
    | 2 => some (.directory [(str ".", 2), (str "..", 2), (str "a", 3), (str "f", 5)])
    | 3 => some (.directory [(str ".", 3), (str "..", 2), (str "up", 2), (str "f", 4)])
    | 4 => some (.file (some ([ascii "xa", ascii "bc"], false)))
    | 5 => some .symbolicLink
    | _ => none

theorem sampleVolume_leads {names : List Str} {d : ℕ} (h : sampleVolume.Leads names d) :
    d ∈ ({2, 3, 4, 5} : Finset ℕ) :=
  h.mem (by decide) (by decide)

theorem sampleVolume_sound : sampleVolume.Sound where
  root := rfl
  finite := ⟨_, fun _ _ => sampleVolume_leads⟩
  inodes _ d h := by
    have hmem := sampleVolume_leads h
    fin_cases hmem <;> rfl

/-! ## Reports -/

theorem mem_keyLines_found {κ : Type} {found : κ → List Str} {key key' : κ} {path : Str} :
    .found key path ∈ keyLines found key' ↔ key = key' ∧ path ∈ found key := by
  rw [keyLines]
  split_ifs with hempty
  · simp only [List.mem_singleton, reduceCtorEq, false_iff, not_and]
    rintro rfl
    simp [hempty]
  · rw [List.mem_map]
    simp only [List.mem_mergeSort, Line.found.injEq]
    constructor
    · rintro ⟨path', hpath, rfl, rfl⟩
      exact ⟨rfl, hpath⟩
    · rintro ⟨rfl, hpath⟩
      exact ⟨path, hpath, rfl, rfl⟩

theorem mem_keyLines_missing {κ : Type} {found : κ → List Str} {key key' : κ} :
    .missing key ∈ keyLines found key' ↔ key = key' ∧ found key = [] := by
  rw [keyLines]
  split_ifs with hempty
  · simp only [List.mem_singleton, Line.missing.injEq]
    exact ⟨fun h => ⟨h, h ▸ hempty⟩, fun h => h.1⟩
  · simp only [List.mem_map, reduceCtorEq, and_false, exists_false, false_iff, not_and]
    rintro rfl
    exact hempty

/-! ## `find-ext4-files.py` -/

/-- What `found` has of the entries that were shown. -/
theorem findVisit_found {names : List Str} {entries : List (PurePosixPath × Str × ℕ)}
    {found : Str → List Str}
    (h : entries.foldlM (findFiles volume names).visitShown (fun _ => []) = some found) :
    ∀ name ∈ names,
      found name = (entries.filter fun e => e.2.1 = name).map fun e => e.1.toStr := by
  refine foldlM_visitShown (fun seen found => ∀ name ∈ names,
    found name = (seen.filter fun e => e.2.1 = name).map fun e => e.1.toStr)
    (fun _ _ => rfl) ?_ h
  intro seen found path name d inode found₁ hseen _ _ hvisit n hn
  obtain rfl := Option.some.inj hvisit
  rw [List.filter_append, List.map_append, ← hseen n hn]
  by_cases hname : n = name
  · subst hname
    simp [hn]
  · simp [hname, Ne.symm hname]

/-- Whatever directories the image has in each other, `find-ext4-files.py` ends. It reports
    each entry with a wanted name once for every directory that can be reached and has it,
    under a path that leads to it, and exits with 0 exactly if no name is missing. -/
theorem findFiles_complete (h : volume.Sound) (names : List Str) :
    ∃ order s, (findFiles volume names).loop.Ends (Walk.start volume.root rootPath fun _ => []) s ∧
      volume.graph.Explored volume.root rootPath order ∧
      (∀ name ∈ names, s.kept name =
        ((volume.graph.shown order).filter fun e => e.2.1 = name).map fun e => e.1.toStr) ∧
      (∀ name path, .found name path ∈ (findReport names s.kept).1 → name ∈ names ∧
        ∃ parents d, volume.Leads (parents ++ [name]) d ∧ path = pathText (parents ++ [name])) ∧
      (∀ name, .missing name ∈ (findReport names s.kept).1 ↔
        name ∈ names ∧ ∀ parents d, ¬ volume.Leads (parents ++ [name]) d) ∧
      ((findReport names s.kept).2 = 0 ↔
        ∀ name ∈ names, ∃ parents d, volume.Leads (parents ++ [name]) d) := by
  obtain ⟨order, s, hs, horder, hfold⟩ :=
    walk_ends (findVisit names) h (fun _ => []) fun _ _ _ _ _ _ _ _ => rfl
  have hfound := findVisit_found hfold
  have hempty : ∀ name ∈ names,
      s.kept name = [] ↔ ∀ parents d, ¬ volume.Leads (parents ++ [name]) d := by
    intro name hname
    rw [hfound name hname, List.map_eq_nil_iff, List.filter_eq_nil_iff]
    constructor
    · intro hnone parents d hleads
      obtain ⟨path, hpath⟩ := horder.exists_shown hleads
      exact hnone _ hpath (by simp)
    · rintro hnone ⟨path, name', d⟩ hmem hwanted
      obtain ⟨parents, hleads, -⟩ := horder.shown_leads hmem
      obtain rfl : name' = name := by simpa using hwanted
      exact hnone parents d hleads
  have hwanted : ∀ name, name ∈ names.dedup.mergeSort strLe ↔ name ∈ names := fun name => by
    rw [List.mem_mergeSort, List.mem_dedup]
  refine ⟨order, s, hs, horder, hfound, fun name path hline => ?_, fun name => ?_, ?_⟩
  · obtain ⟨key, hkey, hline⟩ := List.mem_flatMap.mp hline
    obtain ⟨rfl, hpath⟩ := mem_keyLines_found.mp hline
    have hname := (hwanted name).mp hkey
    rw [hfound name hname] at hpath
    obtain ⟨⟨path', name', d⟩, hmem, rfl⟩ := List.mem_map.mp hpath
    obtain ⟨hshown, hsame⟩ := List.mem_filter.mp hmem
    obtain rfl : name' = name := by simpa using hsame
    obtain ⟨parents, hleads, rfl⟩ := horder.shown_leads hshown
    exact ⟨hname, parents, d, hleads, rfl⟩
  · constructor
    · intro hline
      obtain ⟨key, hkey, hline⟩ := List.mem_flatMap.mp hline
      obtain ⟨rfl, hnil⟩ := mem_keyLines_missing.mp hline
      have hname := (hwanted name).mp hkey
      exact ⟨hname, (hempty name hname).mp hnil⟩
    · rintro ⟨hname, hnone⟩
      exact List.mem_flatMap.mpr ⟨name, (hwanted name).mpr hname,
        mem_keyLines_missing.mpr ⟨rfl, (hempty name hname).mpr hnone⟩⟩
  · have hstatus : (findReport names s.kept).2 = 0 ↔ ∀ name ∈ names, s.kept name ≠ [] := by
      rw [findReport]
      dsimp only
      split_ifs with hany
      · simp only [List.any_eq_true, hwanted, decide_eq_true_eq] at hany
        obtain ⟨name, hname, hnil⟩ := hany
        exact ⟨fun h => (by cases h), fun h => absurd hnil (h name hname)⟩
      · simp only [List.any_eq_true, hwanted, decide_eq_true_eq, not_exists, not_and] at hany
        exact ⟨fun _ => hany, fun _ => rfl⟩
    rw [hstatus]
    refine forall₂_congr fun name hname => ?_
    rw [ne_eq, hempty name hname]
    push Not
    rfl

theorem findFiles_complete_sample :
    ∃ order s, (findFiles sampleVolume [str "f"]).loop.Ends
        (Walk.start sampleVolume.root rootPath fun _ => []) s ∧
      sampleVolume.graph.Explored sampleVolume.root rootPath order ∧
      (∀ name ∈ [str "f"], s.kept name =
        ((sampleVolume.graph.shown order).filter fun e => e.2.1 = name).map fun e => e.1.toStr) ∧
      (∀ name path, .found name path ∈ (findReport [str "f"] s.kept).1 → name ∈ [str "f"] ∧
        ∃ parents d, sampleVolume.Leads (parents ++ [name]) d ∧
          path = pathText (parents ++ [name])) ∧
      (∀ name, .missing name ∈ (findReport [str "f"] s.kept).1 ↔
        name ∈ [str "f"] ∧ ∀ parents d, ¬ sampleVolume.Leads (parents ++ [name]) d) ∧
      ((findReport [str "f"] s.kept).2 = 0 ↔
        ∀ name ∈ [str "f"], ∃ parents d, sampleVolume.Leads (parents ++ [name]) d) :=
  findFiles_complete sampleVolume_sound [str "f"]

/-! ## `search-ext4-bytes.py` -/

/-- The content of a regular file. -/
def Volume.content (volume : Volume) (inodeNumber : ℕ) : Option Bytes :=
  match volume.inodes inodeNumber with
  | some (.file (some (reads, _))) => some reads.flatten
  | _ => none

/-- The entries among those that were shown whose content passes a test. -/
def Volume.filesWith (volume : Volume) (p : Bytes → Bool)
    (entries : List (PurePosixPath × Str × ℕ)) : List (PurePosixPath × Str × ℕ) :=
  entries.filter fun e => (volume.content e.2.2).any p

/-- The regular files can be read to their end. -/
def Volume.Readable (volume : Volume) : Prop :=
  ∀ names d source, volume.Leads names d → volume.inodes d = some (.file source) →
    ∃ reads, source = some (reads, false) ∧ ∀ chunk ∈ reads, chunk ≠ []

/-- What the search knows after the entries `seen`. -/
structure Searched (volume : Volume) (args : List Bytes)
    (seen : List (PurePosixPath × Str × ℕ)) (r : SearchResult) : Prop where
  matched : ∀ label ∈ args, r.matched label =
    (volume.filesWith (fun content => label <:+: content) seen).map fun e => e.1.toStr
  files : r.filesScanned = (volume.filesWith (fun _ => true) seen).length
  bytes : r.bytesScanned =
    ((volume.filesWith (fun _ => true) seen).map fun e =>
      ((volume.content e.2.2).getD []).length).sum

theorem filesWith_append (p : Bytes → Bool) (seen : List (PurePosixPath × Str × ℕ))
    (e : PurePosixPath × Str × ℕ) :
    volume.filesWith p (seen ++ [e]) =
      volume.filesWith p seen ++ if (volume.content e.2.2).any p then [e] else [] := by
  rw [Volume.filesWith, List.filter_append, ← Volume.filesWith, List.filter_singleton]
  split_ifs <;> simp_all

/-- An entry that is no regular file. -/
theorem Searched.skip {args : List Bytes} {seen : List (PurePosixPath × Str × ℕ)}
    {r : SearchResult} (h : Searched volume args seen r) {e : PurePosixPath × Str × ℕ}
    (hcontent : volume.content e.2.2 = none) : Searched volume args (seen ++ [e]) r := by
  have hnone : ∀ p, volume.filesWith p (seen ++ [e]) = volume.filesWith p seen := fun p => by
    rw [filesWith_append, hcontent, Option.any_none, if_neg Bool.false_ne_true, List.append_nil]
  refine ⟨fun label hlabel => ?_, ?_, ?_⟩
  · rw [hnone, h.matched label hlabel]
  · rw [hnone, h.files]
  · rw [hnone, h.bytes]

/-- A regular file that is scanned to its end. -/
theorem Searched.scan {args : List Bytes} {overlap : ℕ}
    (hlen : ∀ v ∈ args, v.length ≤ overlap + 1) (hne : ∀ v ∈ args, v ≠ [])
    {seen : List (PurePosixPath × Str × ℕ)} {r : SearchResult} (h : Searched volume args seen r)
    {path : PurePosixPath} {name : Str} {d : ℕ} {reads : List Bytes}
    (hreads : ∀ chunk ∈ reads, chunk ≠ [])
    (hinode : volume.inodes d = some (.file (some (reads, false)))) {r₁ : SearchResult}
    (hvisit : searchVisit (needlesOf args) overlap r path name (.file (some (reads, false))) =
      some r₁) : Searched volume args (seen ++ [(path, name, d)]) r₁ := by
  have hscan := scanReads_scanned hlen hreads (scanned_init hne)
  have hcontent : volume.content d = some reads.flatten := by
    rw [Volume.content, hinode]
  rw [List.nil_append] at hscan
  obtain rfl := Option.some.inj hvisit
  refine ⟨fun label hlabel => ?_, ?_, ?_⟩
  · have hfound := (hscan.found label).trans (and_iff_right hlabel)
    rw [filesWith_append, hcontent, List.map_append, ← h.matched label hlabel]
    dsimp only [scanFile]
    by_cases hin : label <:+: reads.flatten
    · simp [hfound.mpr hin, hin]
    · simp [mt hfound.mp hin, hin]
  · rw [filesWith_append, hcontent, List.length_append, ← h.files]
    rfl
  · rw [filesWith_append, hcontent, List.map_append, List.sum_append, ← h.bytes]
    dsimp only [scanFile]
    rw [hscan.bytes]
    simp [hcontent]

/-- Whatever directories the image has in each other, `search-ext4-bytes.py` ends. It
    reports for each search string exactly the entries of regular files that contain it,
    once for every directory that can be reached, under paths that lead to them, exits with
    0 exactly if every string is somewhere, and counts the files and bytes it has read. -/
theorem searchBytes_complete (h : volume.Sound) (hreadable : volume.Readable)
    {args : List Bytes} (hargs : args ≠ []) (hne : ∀ v ∈ args, v ≠ []) :
    ∃ needles overlap order s, searchSetup args = .ok (needles, overlap) ∧
      (searchBytes volume needles overlap).loop.Ends
        (Walk.start volume.root rootPath ⟨fun _ => [], 0, 0⟩) s ∧
      volume.graph.Explored volume.root rootPath order ∧
      Searched volume args (volume.graph.shown order) s.kept ∧
      (∀ label path, .found label path ∈ (searchReport args s.kept).1 → label ∈ args ∧
        ∃ names d content, volume.Leads names d ∧ path = pathText names ∧
          volume.content d = some content ∧ label <:+: content) ∧
      (∀ label, .missing label ∈ (searchReport args s.kept).1 ↔ label ∈ args ∧
        ∀ parents name d content, volume.Leads (parents ++ [name]) d →
          volume.content d = some content → ¬ label <:+: content) ∧
      ((searchReport args s.kept).2 = 0 ↔ ∀ label ∈ args, ∃ parents name d content,
        volume.Leads (parents ++ [name]) d ∧ volume.content d = some content ∧
          label <:+: content) := by
  obtain ⟨overlap, hsetup, hlen⟩ := searchSetup_eq_ok hargs hne
  have hvisit : ∀ names d inode, volume.Leads names d → volume.inodes d = some inode →
      ∀ kept path name, (searchVisit (needlesOf args) overlap kept path name inode).isSome := by
    intro names d inode hleads hinode kept path name
    cases inode with
    | file source =>
      obtain ⟨reads, rfl, -⟩ := hreadable names d source hleads hinode
      rfl
    | _ => rfl
  obtain ⟨order, s, hs, horder, hfold⟩ := walk_ends _ h ⟨fun _ => [], 0, 0⟩ hvisit
  have hsearched : Searched volume args (volume.graph.shown order) s.kept := by
    refine foldlM_visitShown (Searched volume args) ⟨fun _ _ => rfl, rfl, rfl⟩ ?_ hfold
    intro seen kept path name d inode kept₁ hseen hmem hinode hvisited
    cases inode with
    | file source =>
      obtain ⟨parents, hleads, -⟩ := horder.shown_leads hmem
      obtain ⟨reads, rfl, hreads⟩ := hreadable _ d source hleads hinode
      exact hseen.scan hlen hne hreads hinode hvisited
    | _ =>
      obtain rfl := Option.some.inj hvisited
      exact hseen.skip (by rw [Volume.content, hinode])
  have hempty : ∀ label ∈ args, s.kept.matched label = [] ↔ ∀ parents name d content,
      volume.Leads (parents ++ [name]) d → volume.content d = some content →
        ¬ label <:+: content := by
    intro label hlabel
    rw [hsearched.matched label hlabel, List.map_eq_nil_iff, Volume.filesWith,
      List.filter_eq_nil_iff]
    constructor
    · intro hnone parents name d content hleads hcontent hin
      obtain ⟨path, hpath⟩ := horder.exists_shown hleads
      exact hnone _ hpath (by simp [hcontent, hin])
    · rintro hnone ⟨path, name, d⟩ hmem hmatch
      obtain ⟨parents, hleads, -⟩ := horder.shown_leads hmem
      obtain ⟨content, hcontent, hin⟩ := (Option.any_eq_true _ _).mp hmatch
      exact hnone parents name d content hleads hcontent (of_decide_eq_true hin)
  refine ⟨needlesOf args, overlap, order, s, hsetup, hs, horder, hsearched, ?_, ?_, ?_⟩
  · intro label path hline
    obtain ⟨key, hkey, hline⟩ := List.mem_flatMap.mp hline
    obtain ⟨rfl, hpath⟩ := mem_keyLines_found.mp hline
    rw [hsearched.matched label hkey] at hpath
    obtain ⟨⟨path', name, d⟩, hmem, rfl⟩ := List.mem_map.mp hpath
    obtain ⟨hshown, hmatch⟩ := List.mem_filter.mp hmem
    obtain ⟨content, hcontent, hin⟩ := (Option.any_eq_true _ _).mp hmatch
    obtain ⟨parents, hleads, rfl⟩ := horder.shown_leads hshown
    exact ⟨hkey, parents ++ [name], d, content, hleads, rfl, hcontent, of_decide_eq_true hin⟩
  · intro label
    constructor
    · intro hline
      obtain ⟨key, hkey, hline⟩ := List.mem_flatMap.mp hline
      obtain ⟨rfl, hnil⟩ := mem_keyLines_missing.mp hline
      exact ⟨hkey, (hempty label hkey).mp hnil⟩
    · rintro ⟨hlabel, hnone⟩
      exact List.mem_flatMap.mpr ⟨label, hlabel,
        mem_keyLines_missing.mpr ⟨rfl, (hempty label hlabel).mpr hnone⟩⟩
  · have hstatus : (searchReport args s.kept).2 = 0 ↔ ∀ label ∈ args, s.kept.matched label ≠ [] := by
      rw [searchReport]
      dsimp only
      split_ifs with hany
      · simp only [List.any_eq_true, decide_eq_true_eq] at hany
        obtain ⟨label, hlabel, hnil⟩ := hany
        exact ⟨fun h => (by cases h), fun h => absurd hnil (h label hlabel)⟩
      · simp only [List.any_eq_true, decide_eq_true_eq, not_exists, not_and] at hany
        exact ⟨fun _ => hany, fun _ => rfl⟩
    rw [hstatus]
    refine forall₂_congr fun label hlabel => ?_
    rw [ne_eq, hempty label hlabel]
    push Not
    rfl

theorem sampleVolume_readable : sampleVolume.Readable := by
  intro names d source hleads hinode
  have hmem := sampleVolume_leads hleads
  fin_cases hmem
  · cases hinode
  · cases hinode
  · obtain rfl := VolumeInode.file.inj (Option.some.inj hinode)
    exact ⟨_, rfl, by decide⟩
  · cases hinode

theorem searchBytes_complete_sample :
    ∃ needles overlap order s, searchSetup [ascii "abc"] = .ok (needles, overlap) ∧
      (searchBytes sampleVolume needles overlap).loop.Ends
        (Walk.start sampleVolume.root rootPath ⟨fun _ => [], 0, 0⟩) s ∧
      sampleVolume.graph.Explored sampleVolume.root rootPath order ∧
      Searched sampleVolume [ascii "abc"] (sampleVolume.graph.shown order) s.kept ∧
      (∀ label path, .found label path ∈ (searchReport [ascii "abc"] s.kept).1 →
        label ∈ [ascii "abc"] ∧ ∃ names d content, sampleVolume.Leads names d ∧
          path = pathText names ∧ sampleVolume.content d = some content ∧ label <:+: content) ∧
      (∀ label, .missing label ∈ (searchReport [ascii "abc"] s.kept).1 ↔
        label ∈ [ascii "abc"] ∧ ∀ parents name d content,
          sampleVolume.Leads (parents ++ [name]) d → sampleVolume.content d = some content →
            ¬ label <:+: content) ∧
      ((searchReport [ascii "abc"] s.kept).2 = 0 ↔
        ∀ label ∈ [ascii "abc"], ∃ parents name d content,
          sampleVolume.Leads (parents ++ [name]) d ∧ sampleVolume.content d = some content ∧
            label <:+: content) :=
  searchBytes_complete sampleVolume_sound sampleVolume_readable (by decide) (by decide)

/-! ## `relocated_candidates` -/

/-- Whatever directories the image has in each other, the search for relocated files ends,
    and finds for a missing path the entries with its name that the walk was shown, each
    under a path that leads to it: one at least if there is any. -/
theorem relocatedCandidates_complete (h : volume.Sound) (missing : List Str) :
    ∃ order s, (relocatedCandidates volume missing).loop.Ends
        (Walk.start volume.root rootPath []) s ∧
      volume.graph.Explored volume.root rootPath order ∧
      (∀ original candidate, (original, candidate) ∈ s.kept → original ∈ missing ∧
        ∃ parents d, volume.Leads (parents ++ [baseName original]) d ∧
          candidate = pathText (parents ++ [baseName original])) ∧
      (∀ original ∈ missing, (∃ candidate, (original, candidate) ∈ s.kept) ↔
        ∃ parents d, volume.Leads (parents ++ [baseName original]) d) := by
  obtain ⟨order, s, hs, horder, hfold⟩ :=
    walk_ends (relocatedVisit missing) h [] fun _ _ _ _ _ _ _ _ => rfl
  have hkept : ∀ original candidate, (original, candidate) ∈ s.kept ↔ original ∈ missing ∧
      ∃ e ∈ volume.graph.shown order, baseName original = e.2.1 ∧ candidate = e.1.toStr := by
    refine foldlM_visitShown (fun seen kept => ∀ original candidate,
      (original, candidate) ∈ kept ↔ original ∈ missing ∧
        ∃ e ∈ seen, baseName original = e.2.1 ∧ candidate = e.1.toStr) (by simp) ?_ hfold
    intro seen kept path name d inode kept₁ hseen _ _ hvisit original candidate
    obtain rfl := Option.some.inj hvisit
    rw [List.mem_append, hseen]
    simp only [List.mem_map, List.mem_filter, decide_eq_true_eq, Prod.mk.injEq, List.mem_append,
      List.mem_singleton]
    constructor
    · rintro (⟨hmissing, e, he, hname, htext⟩ | ⟨original', ⟨hmissing, hname⟩, rfl, rfl⟩)
      · exact ⟨hmissing, e, .inl he, hname, htext⟩
      · exact ⟨hmissing, (path, name, d), .inr rfl, hname, rfl⟩
    · rintro ⟨hmissing, e, he | rfl, hname, htext⟩
      · exact .inl ⟨hmissing, e, he, hname, htext⟩
      · exact .inr ⟨original, ⟨hmissing, hname⟩, rfl, htext.symm⟩
  refine ⟨order, s, hs, horder, fun original candidate hmem => ?_, fun original hmissing => ?_⟩
  · obtain ⟨hmissing, ⟨path, name, d⟩, he, rfl, rfl⟩ := (hkept original candidate).mp hmem
    obtain ⟨parents, hleads, rfl⟩ := horder.shown_leads he
    exact ⟨hmissing, parents, d, hleads, rfl⟩
  · constructor
    · rintro ⟨candidate, hmem⟩
      obtain ⟨-, ⟨path, name, d⟩, he, rfl, -⟩ := (hkept original candidate).mp hmem
      obtain ⟨parents, hleads, -⟩ := horder.shown_leads he
      exact ⟨parents, d, hleads⟩
    · rintro ⟨parents, d, hleads⟩
      obtain ⟨path, hpath⟩ := horder.exists_shown hleads
      exact ⟨path.toStr, (hkept original _).mpr ⟨hmissing, _, hpath, rfl, rfl⟩⟩

end

theorem relocatedCandidates_complete_sample :
    ∃ order s, (relocatedCandidates sampleVolume [str "/etc/f"]).loop.Ends
        (Walk.start sampleVolume.root rootPath []) s ∧
      sampleVolume.graph.Explored sampleVolume.root rootPath order ∧
      (∀ original candidate, (original, candidate) ∈ s.kept → original ∈ [str "/etc/f"] ∧
        ∃ parents d, sampleVolume.Leads (parents ++ [baseName original]) d ∧
          candidate = pathText (parents ++ [baseName original])) ∧
      (∀ original ∈ [str "/etc/f"], (∃ candidate, (original, candidate) ∈ s.kept) ↔
        ∃ parents d, sampleVolume.Leads (parents ++ [baseName original]) d) :=
  relocatedCandidates_complete sampleVolume_sound [str "/etc/f"]

end Pro5Android.Stock
