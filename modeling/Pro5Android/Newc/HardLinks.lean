import Pro5Android.Newc.Orphans

/-!
# Hard links

In a newc archive, non-directory entries with a link count above 1 that share
device and inode numbers are one file; its content is the data stored with any
of them, and the others may be stored without data. The mutations edit single
entries, so they are right about contents only under `LinkSafe`: what an added
path takes from the donor is stored with the donor's entry for it, the links of
one file agree on what they are asked to contain, and one of them stores it.

Results:
* `Accepted.contentKept`: under `LinkSafe` every path has the content asked
  for.
* `Accepted.linkSafe`: only then.
* `contentKept_iff`: the two directions together.
-/

namespace Pro5Android.Newc

open Python

/-! ## Reading an archive -/

/-- A name of a file that has other names. -/
def NewcEntry.Linked (e : NewcEntry) : Prop := ¬ e.IsDir ∧ e.links > 1

instance (e : NewcEntry) : Decidable e.Linked := inferInstanceAs (Decidable (_ ∧ _))

/-- Device and inode number. -/
def NewcEntry.file (e : NewcEntry) : ℤ × ℤ × ℤ := (e.devMajor, e.devMinor, e.inode)

/-- The entries that are the same file as `e`. -/
def SameFile (entries : List NewcEntry) (e x : NewcEntry) : Prop :=
  if e.Linked then x ∈ entries ∧ x.Linked ∧ x.file = e.file else x = e

/-- The data, other than none, that is stored for the file of `e`. -/
def stored (entries : List NewcEntry) (e : NewcEntry) : Set Bytes :=
  {c | c ≠ [] ∧ ∃ x, SameFile entries e x ∧ x.data = c}

/-- A file for which no data is stored is empty. -/
def orEmpty (s : Set Bytes) : Set Bytes := {c | c ∈ s ∨ c = [] ∧ s = ∅}

/-- The contents an entry can be read to have: one, unless the links of a file
    are stored with different data. -/
def contents (entries : List NewcEntry) (e : NewcEntry) : Set Bytes := orEmpty (stored entries e)

theorem nil_notMem_stored (entries : List NewcEntry) (e : NewcEntry) : [] ∉ stored entries e :=
  fun h => h.1 rfl

theorem orEmpty_inj {s s' : Set Bytes} (h : [] ∉ s) (h' : [] ∉ s') :
    orEmpty s = orEmpty s' ↔ s = s' := by
  have hmem : ∀ s : Set Bytes, ∀ c, c ≠ [] → (c ∈ orEmpty s ↔ c ∈ s) := fun s c hc =>
    ⟨fun hm => hm.resolve_right fun hnil => hc hnil.1, Or.inl⟩
  refine ⟨fun heq => Set.ext fun c => ?_, fun heq => by rw [heq]⟩
  by_cases hc : c = []
  · rw [hc]
    exact ⟨fun hm => absurd hm h, fun hm => absurd hm h'⟩
  · rw [← hmem s c hc, ← hmem s' c hc, heq]

theorem orEmpty_singleton (payload : Bytes) : orEmpty ({payload} \ {[]}) = {payload} := by
  by_cases hp : payload = []
  · subst hp
    ext c
    simp [orEmpty]
  · have hdiff : ({payload} \ {[]} : Set Bytes) = {payload} := by
      rw [Set.sdiff_singleton_eq_self]
      exact fun h => hp h.symm
    rw [hdiff]
    ext c
    simp [orEmpty]

theorem nil_notMem_diff (payload : Bytes) : [] ∉ ({payload} \ {[]} : Set Bytes) := fun h => h.2 rfl

theorem sameFile_self {entries : List NewcEntry} {e : NewcEntry} (he : e ∈ entries) :
    SameFile entries e e := by
  unfold SameFile
  split_ifs with h
  · exact ⟨he, h, rfl⟩
  · rfl

/-! ## What the arguments ask for -/

/-- The data the arguments put at a base path. -/
def dataAsked (donor : NewcArchive) (args : Arguments) (b : NewcEntry) : Bytes :=
  if b.path ∈ args.copy then (entryByPath donor.entries b.path).elim b.data NewcEntry.data
  else (payloadByPath args.replaceData b.path).getD b.data

/-- The data, other than none, of the file a base path is asked to be. -/
def fileAsked (base donor : NewcArchive) (args : Arguments) (b : NewcEntry) : Set Bytes :=
  if b.path ∈ args.copy then (entryByPath donor.entries b.path).elim ∅ (stored donor.entries)
  else (payloadByPath args.replaceData b.path).elim (stored base.entries b) fun payload =>
    {payload} \ {[]}

/-- A base path that is a hard link once mode and link count are copied. -/
def LinkedAfter (donor : NewcArchive) (args : Arguments) (b : NewcEntry) : Prop :=
  (copyAll (entryByPath donor.entries) args.copy b).Linked

/-- The links of a file agree on what they are asked to contain, and store it. -/
structure LinkSafe (base donor : NewcArchive) (args : Arguments) : Prop where
  added : ∀ p ∈ args.copy, p ∉ paths base.entries → ∀ d ∈ donor.entries, d.path = p →
    ∀ x, SameFile donor.entries d x → x.data = [] ∨ x.data = d.data
  agree : ∀ b ∈ base.entries, ∀ b' ∈ base.entries, b.path ∉ args.delete → b'.path ∉ args.delete →
    LinkedAfter donor args b → LinkedAfter donor args b' → b'.file = b.file →
    fileAsked base donor args b' = fileAsked base donor args b
  stored : ∀ b ∈ base.entries, b.path ∉ args.delete → LinkedAfter donor args b →
    ∀ c ∈ fileAsked base donor args b, ∃ x ∈ base.entries, x.path ∉ args.delete ∧
      LinkedAfter donor args x ∧ x.file = b.file ∧ dataAsked donor args x = c

/-- Every path of the rewritten archive has the content asked for. -/
structure ContentKept (base donor : NewcArchive) (args : Arguments) (rewritten : NewcArchive) :
    Prop where
  copied : ∀ e ∈ rewritten.entries, e.path ∈ args.copy → ∀ d ∈ donor.entries, d.path = e.path →
    contents rewritten.entries e = contents donor.entries d
  replaced : ∀ e ∈ rewritten.entries, ∀ r ∈ args.replaceData, r.1 = e.path →
    ∀ payload, r.2.content = some payload → contents rewritten.entries e = {payload}
  kept : ∀ e ∈ rewritten.entries, e.path ∉ args.copy → e.path ∉ args.replacePaths →
    ∀ b ∈ base.entries, b.path = e.path →
      contents rewritten.entries e = contents base.entries b

theorem stored_of_not_linked {entries : List NewcEntry} {e : NewcEntry} (h : ¬ e.Linked) :
    stored entries e = {e.data} \ {[]} := by
  ext c
  simp only [stored, SameFile, if_neg h, exists_eq_left, Set.mem_ofPred_eq, Set.mem_sdiff,
    Set.mem_singleton_iff]
  exact ⟨fun hc => ⟨hc.2.symm, hc.1⟩, fun hc => ⟨hc.2, hc.1.symm⟩⟩

theorem links_replaceAll (rs : List (Path × Source)) (e : NewcEntry) :
    (replaceAll rs e).links = e.links := by
  unfold replaceAll
  cases payloadByPath rs e.path <;> rfl

theorem file_replaceAll (rs : List (Path × Source)) (e : NewcEntry) :
    (replaceAll rs e).file = e.file := by
  unfold replaceAll
  cases payloadByPath rs e.path <;> rfl

theorem file_copyAll (donorByPath : Dict Path NewcEntry) (ps : List Path) (e : NewcEntry) :
    (copyAll donorByPath ps e).file = e.file := by
  unfold copyAll
  split_ifs
  · cases donorByPath e.path <;> rfl
  · rfl

section
variable {basePayload donorPayload : Bytes} {base donor rewritten : NewcArchive} {args : Arguments}
  {init : List NewcEntry} {t : NewcEntry}

/-! ## The files of the rewritten archive -/

theorem linked_rewriteEntry (b : NewcEntry) :
    (rewriteEntry donor args b).Linked ↔ LinkedAfter donor args b := by
  rw [LinkedAfter, NewcEntry.Linked, NewcEntry.Linked, NewcEntry.IsDir, NewcEntry.IsDir,
    rewriteEntry, mode_replaceAll, links_replaceAll]

theorem file_rewriteEntry (b : NewcEntry) : (rewriteEntry donor args b).file = b.file := by
  rw [rewriteEntry, file_replaceAll, file_copyAll]

theorem data_rewriteEntry (hlists : DisjointLists args) (b : NewcEntry) :
    (rewriteEntry donor args b).data = dataAsked donor args b := by
  unfold rewriteEntry dataAsked
  split_ifs with hcopy
  · rw [replaceAll_of_notMem (by rw [path_copyAll]; exact hlists.copy_replace _ hcopy), copyAll,
      if_pos hcopy]
    cases entryByPath donor.entries b.path <;> rfl
  · rw [copyAll_of_notMem hcopy, replaceAll]
    cases payloadByPath args.replaceData b.path <;> rfl

/-- The inode number of an added entry is its own. -/
theorem Accepted.ClosedForm.file_added (c : Accepted.ClosedForm base donor args rewritten init t)
    {a e : NewcEntry} (ha : a ∈ Newc.added base donor args) (he : e ∈ rewritten.entries)
    (hfile : e.file = a.file) : e = replaceAll args.replaceData a := by
  have hinode : e.inode = a.inode := congrArg (fun f => f.2.2) hfile
  obtain ⟨i, p, d, hi, hd, rfl⟩ := mem_addedEntries.mp ha
  obtain ⟨-, ⟨b, hb, rfl⟩ | ⟨a', ha', rfl⟩⟩ := c.mem_iff.mp he
  · have hb' : (rewriteEntry donor args b).inode = b.inode :=
      congrArg (fun f => f.2.2) (file_rewriteEntry b)
    have := inode_le_maxInode hb
    rw [hb'] at hinode
    dsimp only at hinode
    omega
  · obtain ⟨i', p', d', hi', hd', rfl⟩ := mem_addedEntries.mp ha'
    rw [inode_replaceAll] at hinode
    obtain rfl : i' = i := by
      dsimp only at hinode
      omega
    obtain rfl : p' = p := Option.some.inj (hi'.symm.trans hi)
    obtain rfl : d' = d := Option.some.inj (hd'.symm.trans hd)
    rfl

/-- An added entry is a file of its own. -/
theorem Accepted.ClosedForm.stored_added (c : Accepted.ClosedForm base donor args rewritten init t)
    (hlists : DisjointLists args) {a : NewcEntry} (ha : a ∈ Newc.added base donor args)
    (hmem : a ∈ rewritten.entries) : stored rewritten.entries a = {a.data} \ {[]} := by
  have hrepl : replaceAll args.replaceData a = a :=
    replaceAll_of_notMem (hlists.copy_replace _ (path_added ha).1)
  by_cases hlinked : a.Linked
  · ext b
    simp only [stored, SameFile, if_pos hlinked, Set.mem_ofPred_eq, Set.mem_sdiff,
      Set.mem_singleton_iff]
    constructor
    · rintro ⟨hb, x, ⟨hx, -, hfile⟩, rfl⟩
      rw [c.file_added ha hx hfile, hrepl] at hb ⊢
      exact ⟨rfl, hb⟩
    · rintro ⟨rfl, hb⟩
      exact ⟨hb, a, ⟨hmem, hlinked, rfl⟩, rfl⟩
  · exact stored_of_not_linked hlinked

/-- The file of a base entry that is a hard link after the rewriting. -/
theorem Accepted.ClosedForm.stored_base (c : Accepted.ClosedForm base donor args rewritten init t)
    (hlists : DisjointLists args) {b : NewcEntry} (hb : b ∈ base.entries)
    (hlinked : LinkedAfter donor args b) : stored rewritten.entries (rewriteEntry donor args b) =
      {d | d ≠ [] ∧ ∃ x ∈ base.entries, x.path ∉ args.delete ∧ LinkedAfter donor args x ∧
        x.file = b.file ∧ dataAsked donor args x = d} := by
  ext d
  simp only [stored, SameFile, if_pos ((linked_rewriteEntry b).mpr hlinked), Set.mem_ofPred_eq,
    file_rewriteEntry]
  refine and_congr_right fun hd => ?_
  constructor
  · rintro ⟨e, ⟨he, helinked, hfile⟩, rfl⟩
    obtain ⟨hkept, ⟨x, hx, rfl⟩ | ⟨a, ha, rfl⟩⟩ := c.mem_iff.mp he
    · rw [path_rewriteEntry] at hkept
      rw [file_rewriteEntry] at hfile
      exact ⟨x, hx, hkept, (linked_rewriteEntry x).mp helinked, hfile,
        (data_rewriteEntry hlists x).symm⟩
    · -- an added entry shares no inode number with the base
      obtain ⟨i, y, -, -, rfl⟩ := mem_added ha
      have hinode := congrArg (fun f : ℤ × ℤ × ℤ => f.2.2) hfile
      rw [file_replaceAll] at hinode
      have := inode_le_maxInode hb
      simp only [NewcEntry.file] at hinode
      omega
  · rintro ⟨x, hx, hkept, hxlinked, hfile, rfl⟩
    refine ⟨rewriteEntry donor args x, ⟨?_, (linked_rewriteEntry x).mpr hxlinked, ?_⟩,
      data_rewriteEntry hlists x⟩
    · exact c.mem_iff.mpr ⟨by rw [path_rewriteEntry]; exact hkept, .inl ⟨x, hx, rfl⟩⟩
    · rw [file_rewriteEntry, hfile]

/-! ## What is asked for -/

theorem nil_notMem_fileAsked (b : NewcEntry) : [] ∉ fileAsked base donor args b := by
  unfold fileAsked
  split_ifs
  · cases entryByPath donor.entries b.path with
    | none => exact fun h => h
    | some d => exact nil_notMem_stored _ _
  · cases payloadByPath args.replaceData b.path with
    | none => exact nil_notMem_stored _ _
    | some payload => exact nil_notMem_diff payload

theorem payloadByPath_eq_some {r : Path × Source} {payload : Bytes} (hlists : DisjointLists args)
    (hr : r ∈ args.replaceData) (hp : r.2.content = some payload) :
    payloadByPath args.replaceData r.1 = some payload := by
  have hsub : ∀ rs : List (Path × Source), ((rs.filterMap fun r => r.2.content.map fun payload =>
      (r.1, payload)).map Prod.fst).Sublist (rs.map Prod.fst) := by
    intro rs
    induction rs with
    | nil => exact .slnil
    | cons r rs ih =>
      rw [List.filterMap_cons]
      cases r.2.content with
      | none => exact ih.cons _
      | some payload => exact ih.cons_cons _
  refine (Dict.ofPairs_eq_some_iff (hlists.replace.sublist (hsub _))).mpr ?_
  exact List.mem_filterMap.mpr ⟨r, hr, by rw [hp]; rfl⟩

/-- A path without a payload is not replaced. -/
theorem Accepted.ClosedForm.notMem_replacePaths
    (c : Accepted.ClosedForm base donor args rewritten init t) {p : Path}
    (h : payloadByPath args.replaceData p = none) : p ∉ args.replacePaths := by
  intro hmem
  obtain ⟨r, hr, rfl⟩ := List.mem_map.mp hmem
  obtain ⟨-, payload, hpayload⟩ := c.regular r hr
  rw [payloadByPath, Dict.ofPairs_eq_none_iff] at h
  exact h (List.mem_map.mpr ⟨(r.1, payload), List.mem_filterMap.mpr ⟨r, hr, by rw [hpayload]; rfl⟩,
    rfl⟩)

/-- What an entry stores is part of what it is asked to be. -/
theorem dataAsked_mem {b : NewcEntry} (hb : b ∈ base.entries)
    (hne : dataAsked donor args b ≠ []) (hcopy : b.path ∈ args.copy →
      ∃ d ∈ donor.entries, entryByPath donor.entries b.path = some d) :
    dataAsked donor args b ∈ fileAsked base donor args b := by
  unfold dataAsked at hne ⊢
  unfold fileAsked
  split_ifs at hne ⊢ with h
  · obtain ⟨d, hd, hlookup⟩ := hcopy h
    rw [hlookup] at hne ⊢
    exact ⟨hne, d, sameFile_self hd, rfl⟩
  · cases hp : payloadByPath args.replaceData b.path with
    | none =>
      rw [hp] at hne
      exact ⟨hne, b, sameFile_self hb, rfl⟩
    | some payload =>
      rw [hp] at hne
      exact ⟨rfl, hne⟩

/-- A base entry that is no hard link after the rewriting has what is asked. -/
theorem fileAsked_of_not_linkedAfter {b : NewcEntry} (hlinked : ¬ LinkedAfter donor args b)
    (hcopy : b.path ∈ args.copy → ∃ d ∈ donor.entries, entryByPath donor.entries b.path = some d) :
    fileAsked base donor args b = {dataAsked donor args b} \ {[]} := by
  unfold LinkedAfter at hlinked
  unfold fileAsked dataAsked
  split_ifs with h
  · obtain ⟨d, hd, hlookup⟩ := hcopy h
    rw [copyAll, if_pos h, hlookup] at hlinked
    rw [hlookup]
    exact stored_of_not_linked hlinked
  · rw [copyAll_of_notMem h] at hlinked
    cases payloadByPath args.replaceData b.path with
    | none => exact stored_of_not_linked hlinked
    | some payload => rfl

/-- Contents are kept when every file stores what it is asked to be. -/
theorem Accepted.contentKept_iff_stored
    (h : Accepted basePayload donorPayload base donor args rewritten) (hlists : DisjointLists args) :
    ContentKept base donor args rewritten ↔
      (∀ b ∈ base.entries, b.path ∉ args.delete →
        stored rewritten.entries (rewriteEntry donor args b) = fileAsked base donor args b) ∧
      ∀ a ∈ Newc.added base donor args, ∀ d ∈ donor.entries, d.path = a.path →
        stored rewritten.entries a = stored donor.entries d := by
  obtain ⟨init, t, c⟩ := h.closedForm
  have hdnodup := h.donor_gate.wellFormed.nodup
  have hbnodup := h.base_gate.wellFormed.nodup
  have hadded : ∀ a ∈ Newc.added base donor args, replaceAll args.replaceData a = a := fun a ha =>
    replaceAll_of_notMem (hlists.copy_replace _ (path_added ha).1)
  constructor
  · intro hkept
    constructor
    · intro b hb hbkept
      have hmem : rewriteEntry donor args b ∈ rewritten.entries :=
        c.mem_iff.mpr ⟨by rw [path_rewriteEntry]; exact hbkept, .inl ⟨b, hb, rfl⟩⟩
      by_cases hcopy : b.path ∈ args.copy
      · obtain ⟨d, hd, hdp⟩ := c.in_donor _ hcopy
        have hlookup := (entryByPath_eq_some_iff hdnodup).mpr ⟨hd, hdp⟩
        have := hkept.copied _ hmem (by rw [path_rewriteEntry]; exact hcopy) d hd
          (by rw [path_rewriteEntry]; exact hdp)
        rw [fileAsked, if_pos hcopy, hlookup]
        exact (orEmpty_inj (nil_notMem_stored _ _) (nil_notMem_stored _ _)).mp this
      · rw [fileAsked, if_neg hcopy]
        cases hp : payloadByPath args.replaceData b.path with
        | none =>
          have := hkept.kept _ hmem (by rw [path_rewriteEntry]; exact hcopy)
            (by rw [path_rewriteEntry]; exact c.notMem_replacePaths hp) b hb
            (path_rewriteEntry donor args b).symm
          exact (orEmpty_inj (nil_notMem_stored _ _) (nil_notMem_stored _ _)).mp this
        | some payload =>
          obtain ⟨r, hr, hrp⟩ := List.mem_filterMap.mp (Dict.mem_of_ofPairs hp)
          obtain ⟨payload', hcontent, heq⟩ := Option.map_eq_some_iff.mp hrp
          obtain ⟨hpath, rfl⟩ := Prod.mk.inj heq
          have := hkept.replaced _ hmem r hr (by rw [path_rewriteEntry]; exact hpath) _ hcontent
          rw [contents, ← orEmpty_singleton] at this
          exact (orEmpty_inj (nil_notMem_stored _ _) (nil_notMem_diff _)).mp this
    · intro a ha d hd hdp
      have hpath := path_added ha
      have hmem : a ∈ rewritten.entries := c.mem_iff.mpr
        ⟨hlists.copy_delete _ hpath.1, .inr ⟨a, ha, hadded a ha⟩⟩
      exact (orEmpty_inj (nil_notMem_stored _ _) (nil_notMem_stored _ _)).mp
        (hkept.copied a hmem hpath.1 d hd hdp)
  · rintro ⟨hbase, hnew⟩
    constructor
    case copied =>
      intro e he hcopy d hd hdp
      have hlookup := (entryByPath_eq_some_iff hdnodup).mpr ⟨hd, hdp⟩
      obtain ⟨hekept, ⟨b, hb, rfl⟩ | ⟨a, ha, rfl⟩⟩ := c.mem_iff.mp he
      · rw [path_rewriteEntry] at hcopy hekept hlookup
        rw [contents, hbase b hb hekept, fileAsked, if_pos hcopy, hlookup]
        rfl
      · rw [hadded a ha] at hdp ⊢
        rw [contents, hnew a ha d hd hdp]
        rfl
    case replaced =>
      intro e he r hr hpath payload hpayload
      obtain ⟨hekept, ⟨b, hb, rfl⟩ | ⟨a, ha, rfl⟩⟩ := c.mem_iff.mp he
      · rw [path_rewriteEntry] at hpath hekept
        have hnocopy : b.path ∉ args.copy := fun hcopy =>
          hlists.copy_replace _ hcopy (hpath ▸ List.mem_map_of_mem hr)
        rw [contents, hbase b hb hekept, fileAsked, if_neg hnocopy, ← hpath,
          payloadByPath_eq_some hlists hr hpayload]
        exact orEmpty_singleton payload
      · rw [path_replaceAll] at hpath
        exact absurd (hpath ▸ List.mem_map_of_mem hr) (hlists.copy_replace _ (path_added ha).1)
    case kept =>
      intro e he hcopy hreplace b hb hpath
      obtain rfl := c.of_base_path hbnodup hb he hpath.symm
      rw [path_rewriteEntry] at hcopy hreplace
      have hekept := (c.mem_iff.mp he).1
      rw [path_rewriteEntry] at hekept
      rw [contents, hbase b hb hekept, fileAsked, if_neg hcopy, payloadByPath_eq_none hreplace]
      rfl

/-! ## The two directions -/

/-- What an added path stores is the file it has in the donor. -/
theorem stored_donor_eq_iff {d : NewcEntry} (hd : d ∈ donor.entries) :
    ({d.data} \ {[]} : Set Bytes) = stored donor.entries d ↔
      ∀ x, SameFile donor.entries d x → x.data = [] ∨ x.data = d.data := by
  constructor
  · intro heq x hx
    by_contra hnot
    rw [not_or] at hnot
    have hmem : x.data ∈ stored donor.entries d := ⟨hnot.1, x, hx, rfl⟩
    rw [← heq] at hmem
    exact hnot.2 hmem.1
  · intro hall
    ext c
    constructor
    · rintro ⟨rfl, hne⟩
      exact ⟨hne, d, sameFile_self hd, rfl⟩
    · rintro ⟨hne, x, hx, rfl⟩
      exact ⟨(hall x hx).resolve_left hne, hne⟩

/-- **Contents.** What accepted arguments make of accepted inputs has the
    content asked for at every path if and only if `LinkSafe`. -/
theorem contentKept_iff (h : Accepted basePayload donorPayload base donor args rewritten)
    (hlists : DisjointLists args) :
    ContentKept base donor args rewritten ↔ LinkSafe base donor args := by
  obtain ⟨init, t, c⟩ := h.closedForm
  have hdnodup := h.donor_gate.wellFormed.nodup
  have hcopy : ∀ b : NewcEntry, b.path ∈ args.copy →
      ∃ d ∈ donor.entries, entryByPath donor.entries b.path = some d := fun b hb => by
    obtain ⟨d, hd, hdp⟩ := c.in_donor _ hb
    exact ⟨d, hd, (entryByPath_eq_some_iff hdnodup).mpr ⟨hd, hdp⟩⟩
  have hadded : ∀ a ∈ Newc.added base donor args, stored rewritten.entries a = {a.data} \ {[]} :=
    fun a ha => by
      have hrepl : replaceAll args.replaceData a = a :=
        replaceAll_of_notMem (hlists.copy_replace _ (Accepted.path_added ha).1)
      exact c.stored_added hlists ha (c.mem_iff.mpr
        ⟨hlists.copy_delete _ (Accepted.path_added ha).1, .inr ⟨a, ha, hrepl⟩⟩)
  rw [h.contentKept_iff_stored hlists]
  constructor
  · rintro ⟨hbase, hnew⟩
    constructor
    case added =>
      intro p hp hpnew d hd hdp
      obtain ⟨i, hi⟩ := List.mem_iff_getElem?.mp (mem_addedPaths.mpr ⟨hp, hpnew⟩)
      have ha : { d with inode := maxInode base.entries + 1 + i } ∈ Newc.added base donor args :=
        mem_addedEntries.mpr ⟨i, p, d, hi, (entryByPath_eq_some_iff hdnodup).mpr ⟨hd, hdp⟩, rfl⟩
      exact (stored_donor_eq_iff hd).mp ((hadded _ ha).symm.trans (hnew _ ha d hd rfl))
    case agree =>
      intro b hb b' hb' hkept hkept' hlinked hlinked' hfile
      rw [← hbase b hb hkept, ← hbase b' hb' hkept', c.stored_base hlists hb hlinked,
        c.stored_base hlists hb' hlinked', hfile]
    case stored =>
      intro b hb hkept hlinked d hd
      rw [← hbase b hb hkept, c.stored_base hlists hb hlinked] at hd
      exact hd.2
  · intro hsafe
    constructor
    · intro b hb hkept
      by_cases hlinked : LinkedAfter donor args b
      · rw [c.stored_base hlists hb hlinked]
        ext d
        constructor
        · rintro ⟨hne, x, hx, hxkept, hxlinked, hfile, rfl⟩
          rw [← hsafe.agree b hb x hx hkept hxkept hlinked hxlinked hfile]
          exact dataAsked_mem hx hne (hcopy x)
        · intro hd
          exact ⟨fun hnil => nil_notMem_fileAsked b (hnil ▸ hd), hsafe.stored b hb hkept hlinked d hd⟩
      · rw [stored_of_not_linked (mt (linked_rewriteEntry b).mp hlinked), data_rewriteEntry hlists,
          fileAsked_of_not_linkedAfter hlinked (hcopy b)]
    · intro a ha d hd hdp
      rw [hadded a ha]
      obtain ⟨i, d', -, hd', rfl⟩ := Accepted.mem_added ha
      obtain rfl : d = d' := eq_of_path_eq hdnodup hd hd' hdp
      have hnew := Accepted.path_added ha
      exact (stored_donor_eq_iff hd).mpr (hsafe.added d.path hnew.1 hnew.2 d hd rfl)

end

/-- A name of a file that is stored with another name. -/
def linkEntry : NewcEntry := { fileEntry with links := 2, data := [], name := ascii "b" }

/-- Two names of one file; the data is stored with the second. -/
def linkArchive : NewcArchive :=
  ⟨[linkEntry, { fileEntry with links := 2, name := ascii "c" }, trailerEntry], []⟩

theorem gate_linkArchive : Gate linkArchive.serialize linkArchive := by
  have hascii : ∀ e ∈ linkArchive.entries, e.name.all (fun b => b < 0x80) = true := by decide
  exact gate_serialize ⟨by decide, fun e he => utf8Valid_of_ascii (hascii e he), by decide, [_, _],
    _, rfl, rfl⟩ (by decide) (by decide)

/-- `--copy c`, the name the data is stored with. -/
theorem accepted_stored :
    Accepted fileArchive.serialize linkArchive.serialize fileArchive linkArchive
      ⟨[ascii "c"], [], []⟩
      ⟨[fileEntry, { fileEntry with links := 2, name := ascii "c", inode := 0xac }, trailerEntry],
        ascii "070701"⟩ :=
  ⟨gate_fileArchive, gate_linkArchive, _, _, _, _, _, rfl, rfl, rfl⟩

theorem disjointLists_stored : DisjointLists ⟨[ascii "c"], [], []⟩ := by
  have hcheck : checkArguments ⟨[ascii "c"], [], []⟩ true = .ok () := rfl
  exact (checkArguments_eq_ok hcheck).1

theorem linkSafe_stored : LinkSafe fileArchive linkArchive ⟨[ascii "c"], [], []⟩ := by
  have hsingle : ∀ b ∈ fileArchive.entries,
      ¬ (copyAll (entryByPath linkArchive.entries) [ascii "c"] b).Linked := by decide
  have hdonor : ∀ d ∈ linkArchive.entries, d.path = ascii "c" →
      d.Linked ∧ ∀ x ∈ linkArchive.entries, x.data = [] ∨ x.data = d.data := by decide
  refine ⟨fun p hp _ d hd hdp x hx => ?_, fun b hb _ _ _ _ hlinked => absurd hlinked (hsingle b hb),
    fun b hb _ hlinked => absurd hlinked (hsingle b hb)⟩
  obtain rfl := List.mem_singleton.mp hp
  obtain ⟨hlinked, hdata⟩ := hdonor d hd hdp
  rw [SameFile, if_pos hlinked] at hx
  exact hdata x hx.1

/-- The copied name keeps its content, which the other one shares in the donor. -/
theorem contentKept_iff_copied :
    LinkSafe fileArchive linkArchive ⟨[ascii "c"], [], []⟩ ∧
      ContentKept fileArchive linkArchive ⟨[ascii "c"], [], []⟩
        ⟨[fileEntry, { fileEntry with links := 2, name := ascii "c", inode := 0xac },
          trailerEntry], ascii "070701"⟩ :=
  ⟨linkSafe_stored, (contentKept_iff accepted_stored disjointLists_stored).mpr linkSafe_stored⟩

/-- `--copy b`, without the name the data is stored with. -/
theorem accepted_link : Accepted fileArchive.serialize linkArchive.serialize fileArchive linkArchive
    ⟨[ascii "b"], [], []⟩
    ⟨[fileEntry, { linkEntry with inode := 0xac }, trailerEntry], ascii "070701"⟩ :=
  ⟨gate_fileArchive, gate_linkArchive, _, _, _, _, _, rfl, rfl, rfl⟩

theorem disjointLists_link : DisjointLists ⟨[ascii "b"], [], []⟩ := by
  have hcheck : checkArguments ⟨[ascii "b"], [], []⟩ true = .ok () := rfl
  exact (checkArguments_eq_ok hcheck).1

/-- The copied name has lost the content it has in the donor. -/
theorem rewritten_link_empty :
    DisjointLists ⟨[ascii "b"], [], []⟩ ∧ ∃ rewritten,
      Accepted fileArchive.serialize linkArchive.serialize fileArchive linkArchive
        ⟨[ascii "b"], [], []⟩ rewritten ∧
      ¬ ContentKept fileArchive linkArchive ⟨[ascii "b"], [], []⟩ rewritten := by
  refine ⟨disjointLists_link, _, accepted_link, fun h => ?_⟩
  have heq := h.copied { linkEntry with inode := 0xac } (by simp) (by decide) linkEntry
    (by simp [linkArchive]) rfl
  have hstored := (orEmpty_inj (nil_notMem_stored _ _) (nil_notMem_stored _ _)).mp heq
  -- `hi` is stored for the file in the donor only
  have hdonor : ascii "hi" ∈ stored linkArchive.entries linkEntry := by
    refine ⟨by decide, { fileEntry with links := 2, name := ascii "c" }, ?_, rfl⟩
    rw [SameFile, if_pos (by decide)]
    exact ⟨by simp [linkArchive], by decide, rfl⟩
  rw [← hstored] at hdonor
  obtain ⟨-, x, hx, hdata⟩ := hdonor
  rw [SameFile, if_pos (by decide)] at hx
  obtain ⟨hmem, hlinked, hfile⟩ := hx
  have hall : ∀ y ∈ [fileEntry, { linkEntry with inode := 0xac }, trailerEntry],
      y.Linked → y.data = [] := by decide
  rw [hall x hmem hlinked] at hdata
  exact absurd hdata (by decide)

end Pro5Android.Newc
