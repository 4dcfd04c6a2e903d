import Pro5Android.Stock.Extract

/-!
# Where the extraction writes

The paths of the extractor are checked as texts only; a symbolic link that it has taken
from the image is followed by every later path that goes through it. The extraction stays
in the output as long as no link on the way to an entry leads out of it, no link stands
under the name of the temporary file, and none leads the manifest out.

Results:
* `extractEntry_inside`, `extract_inside`: one entry, and one run.
* `runMeets_of_linkFree`: an image without symbolic links meets the conditions.
* `extraction_confined`: any sequence of runs.
* `extraction_escapes`: two entries, the first a link, that write outside.
-/

namespace Pro5Android.Stock

open Python Lib HostDisk

/-! ## Conditions -/

/-- There is no link under the name `n` in the directory that `up` leads to. -/
def NoLink (s : HostDisk) (up : HostPath) (n : Bytes) : Prop :=
  ∀ d, s.tree.Walks [] (names up) d → s.tree.IsDir d → ¬ s.tree.IsLink (d ++ [n])

/-- The links that an entry would go through: those on the way to its directory do not
    lead out of the output, and there is none under the name of the temporary file when a
    file is to be written. -/
structure EntryMeets (output : HostPath) (image : Str → Option Inode) (relative : Str)
    (s : HostDisk) : Prop where
  way : s.tree.Way output (destinationParent output relative)
  temporary : ∀ source mode s', image relative = some (.file source mode) →
    prepare (destinationParent output relative) (destinationName relative) s = .ok () s' →
    NoLink s' (destinationParent output relative) (temporaryName (destinationName relative))

/-- No link leads the manifest out of the output. -/
def ManifestMeets (output : HostPath) (s : HostDisk) : Prop :=
  ∀ l, s.tree.Walks [] (names (manifestPath output)) l → output <+: l

/-- Every entry meets the condition when its turn comes, and then the manifest. -/
def EntriesMeet (sha256 : Bytes → Bytes) (output : HostPath) (image : Str → Option Inode) :
    List Str → HostDisk → Prop
  | [], s => ManifestMeets output s
  | relative :: rest, s =>
    EntryMeets output image relative s ∧
      ∀ record s', extractEntry sha256 output image relative s = .ok record s' →
        EntriesMeet sha256 output image rest s'

/-- The conditions along a run. -/
def RunMeets (sha256 : Bytes → Bytes) (output : HostPath) (run : Run) (s : HostDisk) : Prop :=
  s.tree.Way output (output ++ [ascii "system"]) ∧
    ∀ entries s', entriesOf run.lines = .ok entries →
      makeDirectories (output ++ [ascii "system"]) s = .ok () s' →
      EntriesMeet sha256 output run.image entries s'

/-- The conditions along a sequence of runs. -/
def RunsMeet (sha256 : Bytes → Bytes) (output : HostPath) : List Run → HostDisk → Prop
  | [], _ => True
  | run :: runs, s =>
    RunMeets sha256 output run s ∧
      RunsMeet sha256 output runs (stateOf (extract sha256 output run s))

/-- Everything that the runs create, change or remove is in the output, and what is
    outside is as it was. -/
def Confined (sha256 : Bytes → Bytes) (output : HostPath) (t : FileTree Bytes FileData)
    (runs : List Run) : Prop :=
  (∀ l ∈ (afterRuns sha256 output ⟨t, []⟩ runs).changed, output <+: l) ∧
    ∀ l, ¬ output <+: l → (afterRuns sha256 output ⟨t, []⟩ runs).tree.node l = t.node l

/-! ## Operations -/

section

variable {s s' : HostDisk} {output up : HostPath} {name : Bytes} {sha256 : Bytes → Bytes}

theorem leaves_onHost {f : HostDisk → Except FileError HostDisk} {Q : HostDisk → Prop}
    {E : HostDisk → Prop} (hok : ∀ s', f s = .ok s' → Q s') (herror : E s) :
    Leaves (onHost f s) (fun _ => Q) E := by
  rw [onHost]
  split
  · rename_i s' hf
    exact hok s' hf
  · exact herror

theorem NoLink.quiet {n : Bytes} (h : NoLink s up n) (hq : Disk.Quiet output s s') :
    NoLink s' up n := by
  intro d hw hdir hlink
  obtain ⟨hw₀, hdir₀⟩ := hq.dirs _ _ _ hw hdir
  exact h d hw₀ hdir₀ (hq.links _ hlink)

/-- Then the path leads to that name. -/
theorem NoLink.walks {n : Bytes} {l : HostPath} (h : NoLink s up n)
    (hl : s.tree.Walks [] (names (up ++ [n])) l) :
    ∃ d, s.tree.Walks [] (names up) d ∧ s.tree.IsDir d ∧ l = d ++ [n] := by
  rw [FileTree.names_append] at hl
  obtain ⟨d, hd, hdir, -⟩ := hl.split rfl (List.cons_ne_nil _ _)
  exact ⟨d, hd, hdir, (hd.snoc hdir (h d hd hdir)).det hl⟩

theorem leadsTo_name {n : Bytes} {d : HostPath} (h : s.tree.LeadsIn output up)
    (hw : s.tree.Walks [] (names up) d) (hdir : s.tree.IsDir d) : output <+: d ++ [n] :=
  (h d hw hdir).trans (List.prefix_append _ _)

theorem openForWriting_quiet {n : Bytes} (hway : s.tree.LeadsIn output up)
    (hlink : NoLink s up n) :
    Leaves (openForWriting (up ++ [n]) s) (fun l s' => output <+: l ∧ Disk.Quiet output s s')
      (Disk.Quiet output s) := by
  rw [openForWriting]
  split
  · rename_i l s' hopen
    obtain ⟨hl, data, hplace⟩ := openWrite_eq_ok hopen
    obtain ⟨d, hd, hdir, rfl⟩ := hlink.walks hl
    have hout : output <+: d ++ [n] := leadsTo_name hway hd hdir
    exact ⟨hout, Disk.place_file_quiet hout hplace⟩
  · exact .refl s

theorem copyReads_quiet {l : HostPath} {raises : Bool} (hl : output <+: l) {reads : List Bytes} :
    ∀ {s : HostDisk}, Leaves (copyReads l raises reads s) (fun _ => Disk.Quiet output s)
      (Disk.Quiet output s) := by
  induction reads with
  | nil =>
    intro s
    rw [copyReads]
    split_ifs
    · exact Disk.Quiet.refl s
    · exact Disk.Quiet.refl s
  | cons chunk reads ih =>
    intro s
    rw [copyReads]
    split_ifs
    · exact Disk.Quiet.refl s
    · refine (leaves_onHost (fun s' => write_quiet hl) (Disk.Quiet.refl s)).bind
        fun _ s' _ hq => ?_
      refine (ih.mono (fun _ _ => hq.trans) fun _ => hq.trans).bind fun _ s'' _ hq' => ?_
      exact hq'

/-- The temporary file takes the place of the destination. -/
theorem replace_quiet {n m : Bytes} (hway : s.tree.LeadsIn output up) (hlink : NoLink s up n)
    (h : replace s up n m = .ok s') : Disk.Quiet output s s' := by
  obtain ⟨d, v, s₁, s₂, hd, hdir, hv, h₁, h₂, h₃⟩ := replace_eq_ok h
  have hfile : ∃ data, v = .file data := by
    cases v with
    | dir => exact absurd hv (Disk.remove_eq_ok h₁).1
    | file data => exact ⟨data, rfl⟩
    | link absolute target => exact absurd ⟨_, _, hv⟩ (hlink d hd hdir)
  obtain ⟨data, rfl⟩ := hfile
  exact ((Disk.remove_quiet (leadsTo_name hway hd hdir) h₁).trans
    (Disk.remove_quiet (leadsTo_name hway hd hdir) h₂)).trans
    (Disk.place_file_quiet (leadsTo_name hway hd hdir) h₃)

theorem unlink_quiet {n : Bytes} (hway : s.tree.LeadsIn output up) (h : unlink s up n = .ok s') :
    Disk.Quiet output s s' := by
  obtain ⟨d, hd, hdir, hremove⟩ := unlink_eq_ok h
  exact Disk.remove_quiet (leadsTo_name hway hd hdir) hremove

/-! ## Files -/

theorem copyFile_quiet {source : Option (List Bytes × Bool)} {mode : ℕ}
    (hway : s.tree.LeadsIn output up) (hlink : NoLink s up (temporaryName name)) :
    Leaves (copyFile sha256 source mode up name s) (fun _ => Disk.Quiet output s)
      (Disk.Quiet output s) := by
  cases source with
  | none => exact Disk.Quiet.refl s
  | some source =>
    refine (openForWriting_quiet hway hlink).bind fun l s₁ _ ⟨hl, hq₁⟩ => ?_
    refine ((copyReads_quiet hl).mono (fun _ _ => hq₁.trans) fun _ => hq₁.trans).bind
      fun content s₂ _ hq₂ => ?_
    have hchmod : ∀ l, s₂.tree.Walks [] (names (up ++ [temporaryName name])) l → output <+: l := by
      intro l hl
      obtain ⟨d, hd, hdir, rfl⟩ := (hlink.quiet hq₂).walks hl
      exact leadsTo_name (hway.of_dirsFrom hq₂.dirs) hd hdir
    refine (leaves_onHost (fun s' h => hq₂.trans (chmod_quiet hchmod h)) hq₂).bind
      fun _ s₃ _ hq₃ => ?_
    refine (leaves_onHost (fun s' h => hq₃.trans (replace_quiet (hway.of_dirsFrom hq₃.dirs)
      (hlink.quiet hq₃) h)) hq₃).bind fun _ s₄ _ hq₄ => ?_
    exact hq₄

theorem removeTemporary_quiet (hway : s.tree.LeadsIn output up) :
    Leaves (removeTemporary up name s) (fun _ => Disk.Quiet output s) (Disk.Quiet output s) := by
  rw [removeTemporary]
  split_ifs
  · exact leaves_onHost (fun s' => unlink_quiet hway) (.refl s)
  · exact Disk.Quiet.refl s

/-- `extract_file` writes in the directory of the destination only. -/
theorem extractFile_quiet {source : Option (List Bytes × Bool)} {mode : ℕ}
    (hway : s.tree.LeadsIn output up) (hlink : NoLink s up (temporaryName name)) :
    Leaves (extractFile sha256 source mode up name s) (fun _ => Disk.Quiet output s)
      (Disk.Quiet output s) := by
  refine (copyFile_quiet hway hlink).finallyDo (fun _ s' hq => ?_) fun s' hq => ?_
  · exact (removeTemporary_quiet (hway.of_dirsFrom hq.dirs)).mono (fun _ _ => hq.trans)
      fun _ => hq.trans
  · exact (removeTemporary_quiet (hway.of_dirsFrom hq.dirs)).mono (fun _ _ => hq.trans)
      fun _ => hq.trans

/-! ## Entries and runs -/

theorem makeDirectories_inside {rest : List Bytes} (ho : s.tree.IsDir output)
    (hway : s.tree.Way output (output ++ rest)) :
    Leaves (makeDirectories (output ++ rest) s)
      (fun _ s' => Disk.Inside output s s' ∧ s'.tree.Way output (output ++ rest))
      (Disk.Inside output s) :=
  Leaves.adaptExcept <| (mkdirParents_spec rest ho hway).mono (fun _ _ h => ⟨h.1, h.2.1⟩)
    fun _ h => h

/-- After the preparation, the destination's directory is still in the output. -/
theorem prepare_inside {rest : List Bytes} (ho : s.tree.IsDir output)
    (hway : s.tree.Way output (output ++ rest)) :
    Leaves (prepare (output ++ rest) name s)
      (fun _ s' => Disk.Inside output s s' ∧ s'.tree.LeadsIn output (output ++ rest))
      (Disk.Inside output s) := by
  refine (makeDirectories_inside ho hway).bind fun _ s₁ _ ⟨hinside, hway₁⟩ => ?_
  have hleads : s₁.tree.LeadsIn output (output ++ rest) :=
    hway₁ _ (List.prefix_append _ _) List.prefix_rfl
  rw [removeExisting]
  split_ifs
  · refine leaves_onHost (fun s' h => ?_) hinside
    have hq := unlink_quiet hleads h
    exact ⟨hinside.trans hq.inside, hleads.of_dirsFrom hq.dirs⟩
  · exact ⟨hinside, hleads⟩

theorem extractInode_inside {relative : Str} {inode : Inode} (hway : s.tree.LeadsIn output up)
    (hlink : ∀ source mode, inode = .file source mode → NoLink s up (temporaryName name)) :
    Leaves (extractInode sha256 up name relative inode s) (fun _ => Disk.Inside output s)
      (Disk.Inside output s) := by
  cases inode with
  | file source mode =>
    refine ((extractFile_quiet hway (hlink _ _ rfl)).mono (fun _ _ h => h.inside)
      fun _ h => h.inside).bind fun _ s' _ h => ?_
    exact h
  | symbolicLink target =>
    cases target with
    | none => exact Disk.Inside.refl s
    | some target =>
      refine (leaves_onHost (fun s' h => ?_) (Disk.Inside.refl s)).bind fun _ s' _ h => h
      obtain ⟨d, hd, hdir, hplace⟩ := symlink_eq_ok h
      exact Disk.place_inside (leadsTo_name hway hd hdir) hplace
  | other => exact Disk.Inside.refl s

theorem extractEntry_inside {image : Str → Option Inode} {relative : Str}
    (ho : s.tree.IsDir output) (h : EntryMeets output image relative s) :
    Leaves (extractEntry sha256 output image relative s) (fun _ => Disk.Inside output s)
      (Disk.Inside output s) := by
  rw [extractEntry]
  cases himage : image relative with
  | none => exact Disk.Inside.refl s
  | some inode =>
    refine (prepare_inside ho h.way).bind fun _ s₁ hprepare ⟨hinside, hleads⟩ => ?_
    refine (extractInode_inside hleads fun source mode hfile => ?_).mono
      (fun _ _ => hinside.trans) fun _ => hinside.trans
    exact h.temporary source mode s₁ (hfile ▸ himage) hprepare

theorem writeManifest_inside {records : List (Bytes × Str)} (h : ManifestMeets output s) :
    Leaves (writeManifest output records s) (fun _ => Disk.Inside output s)
      (Disk.Inside output s) := by
  have hopen : Leaves (openForWriting (manifestPath output) s)
      (fun l s' => output <+: l ∧ Disk.Inside output s s') (Disk.Inside output s) := by
    rw [openForWriting]
    split
    · rename_i l s' hopen
      obtain ⟨hl, data, hplace⟩ := openWrite_eq_ok hopen
      exact ⟨h l hl, Disk.place_inside (h l hl) hplace⟩
    · exact .refl s
  refine hopen.bind fun l s₁ _ ⟨hl, hinside⟩ => ?_
  exact leaves_onHost (fun s' hw => hinside.trans (write_quiet hl hw).inside) hinside

theorem extractEntries_inside {image : Str → Option Inode} {entries : List Str} :
    ∀ {s : HostDisk}, s.tree.IsDir output → EntriesMeet sha256 output image entries s →
      Leaves (extractEntries sha256 output image entries s)
        (fun _ s' => Disk.Inside output s s' ∧ ManifestMeets output s') (Disk.Inside output s) := by
  induction entries with
  | nil =>
    intro s _ h
    show Disk.Inside output s s ∧ ManifestMeets output s
    exact ⟨.refl s, h⟩
  | cons relative rest ih =>
    intro s ho h
    refine (extractEntry_inside ho h.1).bind fun record s₁ hentry hinside => ?_
    have hrest : Leaves (extractEntries sha256 output image rest s₁)
        (fun _ s' => Disk.Inside output s s' ∧ ManifestMeets output s') (Disk.Inside output s) :=
      (ih (hinside.dirs ho) (h.2 record s₁ hentry)).mono
        (fun _ _ h => ⟨hinside.trans h.1, h.2⟩) fun _ => hinside.trans
    exact hrest.bind fun _ s₂ _ h => h

/-- A run that meets the conditions touches the output only. -/
theorem extract_inside {run : Run} (ho : s.tree.IsDir output)
    (h : RunMeets sha256 output run s) :
    Disk.Inside output s (stateOf (extract sha256 output run s)) := by
  refine Leaves.stateOf ?_
  rw [extract]
  split_ifs
  · exact Disk.Inside.refl s
  cases hentries : entriesOf run.lines with
  | error e => exact Disk.Inside.refl s
  | ok entries =>
    dsimp only
    split_ifs
    swap
    · exact Disk.Inside.refl s
    refine (makeDirectories_inside ho h.1).bind fun _ s₁ hmake ⟨hinside, _⟩ => ?_
    have hentriesInside : Leaves (extractEntries sha256 output run.image entries s₁)
        (fun _ s' => Disk.Inside output s s' ∧ ManifestMeets output s') (Disk.Inside output s) :=
      (extractEntries_inside (hinside.dirs ho) (h.2 entries s₁ hentries hmake)).mono
        (fun _ _ h => ⟨hinside.trans h.1, h.2⟩) fun _ => hinside.trans
    refine hentriesInside.bind fun records s₂ _ ⟨hinside₂, hmanifest⟩ => ?_
    exact (writeManifest_inside hmanifest).mono (fun _ _ => hinside₂.trans) fun _ => hinside₂.trans

end

theorem afterRuns_inside {sha256 : Bytes → Bytes} {output : HostPath} {runs : List Run} :
    ∀ {s : HostDisk}, s.tree.IsDir output → RunsMeet sha256 output runs s →
      Disk.Inside output s (afterRuns sha256 output s runs) := by
  induction runs with
  | nil => exact fun _ _ => .refl _
  | cons run runs ih =>
    intro s ho h
    have hinside := extract_inside ho h.1
    exact hinside.trans (ih (hinside.dirs ho) h.2)

/-! ## Images without links -/

section

variable {s s' : HostDisk} {output up : HostPath} {name : Bytes} {sha256 : Bytes → Bytes}

theorem linkFree_of_quiet {o : HostPath} (h : s.tree.LinkFree) (hq : Disk.Quiet o s s') :
    s'.tree.LinkFree := fun l hl => h l (hq.links l hl)

theorem mkdir_linkFree (h : s.tree.LinkFree) {n : Bytes} (hmk : mkdir s up n = .ok s') :
    s'.tree.LinkFree := by
  obtain ⟨d, -, -, -, hplace⟩ := mkdir_eq_ok hmk
  obtain ⟨-, -, hnode, -⟩ := Disk.place_eq_ok hplace
  rintro l ⟨absolute, target, hl⟩
  by_cases hne : l = d ++ [n]
  · rw [hnode, hne, Function.update_self] at hl
    cases hl
  · rw [hnode, Function.update_of_ne hne] at hl
    exact h l ⟨absolute, target, hl⟩

theorem existOk_linkFree (h : s.tree.LinkFree) {path : HostPath} {e : FileError} :
    Leaves (existOk s path e) (fun _ s' => s'.tree.LinkFree) fun s' => s'.tree.LinkFree := by
  rw [existOk]
  split_ifs
  · exact h
  · exact h

theorem mkdirParents_linkFree (path : HostPath) (h : s.tree.LinkFree) :
    Leaves (mkdirParents path.reverse s) (fun _ s' => s'.tree.LinkFree)
      fun s' => s'.tree.LinkFree := by
  induction path using List.reverseRecOn generalizing s with
  | nil => exact h
  | append_singleton up n ih =>
    rw [mkdirParents_concat]
    split
    · rename_i hmk
      exact mkdir_linkFree h hmk
    · refine (ih h).bind fun _ s₁ _ h₁ => ?_
      rw [mkdirOnly]
      split
      · rename_i hmk
        exact mkdir_linkFree h₁ hmk
      · exact h₁
      · exact existOk_linkFree h₁
    · exact existOk_linkFree h

/-- Every directory is in the root. -/
theorem leadsIn_nil : s.tree.LeadsIn [] up := fun _ _ _ => List.nil_prefix

theorem noLink_of_linkFree (h : s.tree.LinkFree) {n : Bytes} : NoLink s up n :=
  fun d _ _ => h (d ++ [n])

theorem prepare_linkFree (h : s.tree.LinkFree) :
    Leaves (prepare up name s) (fun _ s' => s'.tree.LinkFree) fun s' => s'.tree.LinkFree := by
  refine (Leaves.adaptExcept (mkdirParents_linkFree up h)).bind fun _ s₁ _ h₁ => ?_
  rw [removeExisting]
  split_ifs
  · exact leaves_onHost (fun s' hun => linkFree_of_quiet h₁ (unlink_quiet leadsIn_nil hun)) h₁
  · exact h₁

theorem extractEntry_linkFree {image : Str → Option Inode} {relative : Str} (h : s.tree.LinkFree)
    (himage : ∀ target, image relative ≠ some (.symbolicLink target)) :
    Leaves (extractEntry sha256 output image relative s) (fun _ s' => s'.tree.LinkFree)
      fun s' => s'.tree.LinkFree := by
  rw [extractEntry]
  cases hinode : image relative with
  | none => exact h
  | some inode =>
    refine (prepare_linkFree h).bind fun _ s₁ _ h₁ => ?_
    cases inode with
    | file source mode =>
      refine ((extractFile_quiet leadsIn_nil (noLink_of_linkFree h₁)).mono
        (fun _ _ => linkFree_of_quiet h₁) fun _ => linkFree_of_quiet h₁).bind fun _ s₂ _ h₂ => ?_
      exact h₂
    | symbolicLink target => exact absurd hinode (himage target)
    | other => exact h₁

theorem entriesMeet_of_linkFree {image : Str → Option Inode}
    (himage : ∀ relative target, image relative ≠ some (.symbolicLink target)) {entries : List Str} :
    ∀ {s : HostDisk}, s.tree.LinkFree → EntriesMeet sha256 output image entries s := by
  induction entries with
  | nil =>
    intro s h l hl
    rw [(h.unlinked _).walks hl]
    exact List.prefix_append _ _
  | cons relative rest ih =>
    intro s h
    refine ⟨⟨h.way, fun source mode s' _ hprepare => ?_⟩, fun record s' hentry => ih ?_⟩
    · have hleaves := @prepare_linkFree s (destinationParent output relative)
        (destinationName relative) h
      rw [hprepare] at hleaves
      exact noLink_of_linkFree hleaves
    · have hleaves := @extractEntry_linkFree s output sha256 image relative h (himage relative)
      rw [hentry] at hleaves
      exact hleaves

/-- Runs over images without symbolic links meet the conditions. -/
theorem runMeets_of_linkFree {run : Run} (h : s.tree.LinkFree)
    (himage : ∀ relative target, run.image relative ≠ some (.symbolicLink target)) :
    RunMeets sha256 output run s := by
  refine ⟨h.way, fun entries s' _ hmake => entriesMeet_of_linkFree himage ?_⟩
  have hleaves : Leaves (makeDirectories (output ++ [ascii "system"]) s)
      (fun _ s' => s'.tree.LinkFree) fun s' => s'.tree.LinkFree :=
    Leaves.adaptExcept (mkdirParents_linkFree _ h)
  rw [hmake] at hleaves
  exact hleaves

end

/-! ## Runs from an empty output -/

/-- Any sequence of runs that meet the conditions is confined to the output. -/
theorem extraction_confined (sha256 : Bytes → Bytes) (output : HostPath)
    (t : FileTree Bytes FileData) (ho : t.IsDir output) (runs : List Run)
    (h : RunsMeet sha256 output runs ⟨t, []⟩) : Confined sha256 output t runs := by
  obtain ⟨ls, hls, htouch⟩ := afterRuns_inside ho h
  refine ⟨fun l hl => ?_, fun l hl => htouch.same l fun hmem => hl (hls l hmem)⟩
  rw [htouch.changed, List.append_nil] at hl
  exact hls l hl

/-- The root directory alone. -/
def rootTree : FileTree Bytes FileData where
  node l := if l = [] then some .dir else none
  root_dir := rfl
  parent_dir l n h := by simp at h

/-- The empty directories `/o` and `/t`. -/
def twoDirectories : FileTree Bytes FileData :=
  (rootTree.put [ascii "o"] .dir (by decide) (by decide)).put [ascii "t"] .dir (by decide)
    (by decide)

theorem twoDirectories_cases (l : HostPath) :
    twoDirectories.node l = some .dir ∧ l ∈ [[], [ascii "o"], [ascii "t"]] ∨
      twoDirectories.node l = none := by
  rw [twoDirectories, FileTree.put_node, FileTree.put_node, Function.update_apply,
    Function.update_apply]
  split_ifs with ht ho
  · simp [ht]
  · simp [ho]
  · by_cases hroot : l = [] <;> simp [rootTree, hroot]

theorem twoDirectories_linkFree : twoDirectories.LinkFree := by
  rintro l ⟨absolute, target, hl⟩
  rcases twoDirectories_cases l with ⟨h, -⟩ | h <;> rw [h] at hl <;> cases hl

/-- Under `a` there is a symbolic link to `/t`, and everything else is a file of one byte. -/
def linkImage (relative : Str) : Option Inode :=
  if relative = str "a" then some (.symbolicLink (some (ascii "/t")))
  else some (.file (some ([[1]], false)) 0o644)

/-- The link, and a file that is not below it. -/
def besideRun : Run where
  lines := [str "a", str "vendor/x"]
  image := linkImage

def besideStart : HostDisk :=
  stateOf (makeDirectories ([ascii "o"] ++ [ascii "system"]) ⟨twoDirectories, []⟩)

def besideLink : HostDisk := stateOf (extractEntry id [ascii "o"] linkImage (str "a") besideStart)

def besideReady : HostDisk :=
  stateOf (prepare (destinationParent [ascii "o"] (str "vendor/x"))
    (destinationName (str "vendor/x")) besideLink)

def besideEnd : HostDisk :=
  stateOf (extractEntry id [ascii "o"] linkImage (str "vendor/x") besideLink)

theorem besideLink_meets : EntryMeets [ascii "o"] linkImage (str "vendor/x") besideLink := by
  refine ⟨FileTree.Unlinked.way (by decide +kernel), fun source mode s' _ hprepare d hd _ => ?_⟩
  obtain rfl : besideReady = s' := by rw [besideReady, hprepare]; rfl
  have hup : besideReady.tree.Unlinked (destinationParent [ascii "o"] (str "vendor/x")) := by
    decide +kernel
  rw [hup.walks hd]
  decide +kernel

theorem besideRun_meets : RunMeets id [ascii "o"] besideRun ⟨twoDirectories, []⟩ := by
  have hlines : entriesOf besideRun.lines = .ok [str "a", str "vendor/x"] := by decide +kernel
  refine ⟨twoDirectories_linkFree.way, fun entries s' hentries hmake => ?_⟩
  obtain rfl := Except.ok.inj (hlines.symm.trans hentries)
  obtain rfl : besideStart = s' := by rw [besideStart, hmake]; rfl
  have hlink : linkImage (str "a") = some (.symbolicLink (some (ascii "/t"))) := rfl
  refine ⟨⟨FileTree.Unlinked.way (by decide +kernel), fun source mode s' hfile => ?_⟩,
    fun record s' hentry => ?_⟩
  · exact absurd (hlink.symm.trans hfile) (by simp)
  · obtain rfl : besideLink = s' := by rw [besideLink]; exact congrArg stateOf hentry
    refine ⟨besideLink_meets, fun record s' hentry l hl => ?_⟩
    obtain rfl : besideEnd = s' := by rw [besideEnd]; exact congrArg stateOf hentry
    have hmanifest : besideEnd.tree.Unlinked (manifestPath [ascii "o"]) := by decide +kernel
    rw [hmanifest.walks hl]
    exact List.prefix_append _ _

/-- The link is there, and the file was written into the output. -/
theorem extraction_confined_beside :
    besideEnd.tree.IsLink [ascii "o", ascii "system", ascii "a"] ∧
      besideEnd.tree.node [ascii "o", ascii "system", ascii "vendor", ascii "x"] ≠ none ∧
      Confined id [ascii "o"] twoDirectories [besideRun] :=
  ⟨by decide +kernel, by decide +kernel,
    extraction_confined id _ _ (by decide) _ ⟨besideRun_meets, trivial⟩⟩

/-- The link, and a file below it. -/
def escapingRun : Run where
  lines := [str "a", str "a/x"]
  image := linkImage

/-- The directory `/o` is empty, and the run into it writes `/t/x`. -/
theorem extraction_escapes :
    twoDirectories.IsDir [ascii "o"] ∧ (∀ n, twoDirectories.node [ascii "o", n] = none) ∧
      ¬ Confined id [ascii "o"] twoDirectories [escapingRun] := by
  refine ⟨by decide, fun n => ?_, fun h => ?_⟩
  · rcases twoDirectories_cases [ascii "o", n] with ⟨-, hmem⟩ | hnone
    · simp at hmem
    · exact hnone
  · have hwritten : [ascii "t", ascii "x"] ∈
        (afterRuns id [ascii "o"] ⟨twoDirectories, []⟩ [escapingRun]).changed := by
      decide +kernel
    exact absurd (h.1 _ hwritten) (by decide)

end Pro5Android.Stock
