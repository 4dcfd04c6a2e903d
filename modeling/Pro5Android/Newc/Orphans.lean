import Pro5Android.Newc.Frame
import Pro5Android.Lib.ListOrder

/-!
# Parents before children

The kernel creates the entries of an archive in order, so the directory of an
entry has to stand before it (`ParentsFirst`). Deletion refuses to remove a
directory from under its children; copying looks at nothing but the path it
copies. `ParentsKept` is what it would have to check.

Results:
* `Accepted.parentsFirst`: under `ParentsKept` the rewritten archive has
  parents before children when base and donor have.
* `Accepted.parentsKept`: only then.
* `parentsFirst_rewritten_iff`: the two directions together.
-/

namespace Pro5Android.Newc

open Python Lib List

/-! ## Parent paths -/

/-- What stands before the last `/` of a path that has one. -/
def parentPath (p : Path) : Option Path :=
  match p.reverse.dropWhile (· ≠ 47) with
  | [] => none
  | _ :: rest => some rest.reverse

example : parentPath (ascii "sbin/su/x") = some (ascii "sbin/su") := by decide
example : parentPath (ascii "init.rc") = none := by decide

theorem parentPath_eq_some {p q : Path} (h : parentPath p = some q) :
    ∃ name, p = q ++ ascii "/" ++ name := by
  unfold parentPath at h
  cases hd : p.reverse.dropWhile (· ≠ 47) with
  | nil => rw [hd] at h; cases h
  | cons b rest =>
    rw [hd] at h
    obtain rfl := Option.some.inj h
    have hb : b = 47 := by
      have hhead : ∀ hne, (p.reverse.dropWhile (· ≠ 47)).head hne = b := by
        rw [hd]
        exact fun _ => rfl
      have := List.head_dropWhile_not (l := p.reverse) (· ≠ (47 : Byte)) (by rw [hd]; simp)
      rw [hhead] at this
      simpa using this
    have hsplit := List.takeWhile_append_dropWhile (p := (· ≠ (47 : Byte))) (l := p.reverse)
    rw [hd, hb] at hsplit
    refine ⟨(p.reverse.takeWhile (· ≠ 47)).reverse, ?_⟩
    have := congrArg List.reverse hsplit
    rw [List.reverse_reverse, List.reverse_append, List.reverse_cons] at this
    exact this.symm

theorem isBelow_parentPath {p q : Path} (h : parentPath p = some q) : isBelow q p = true := by
  obtain ⟨name, rfl⟩ := parentPath_eq_some h
  rw [isBelow, List.isPrefixOf_iff_prefix]
  exact List.prefix_append _ _

theorem parentPath_ne {p q : Path} (h : parentPath p = some q) : q ≠ p := by
  obtain ⟨name, hp⟩ := parentPath_eq_some h
  intro heq
  have := congrArg List.length (heq.trans hp)
  simp [ascii] at this

/-! ## The invariant -/

/-- `stat.S_ISDIR(mode)`. -/
def NewcEntry.IsDir (e : NewcEntry) : Prop := fileType e.mode = 0o4

instance (e : NewcEntry) : Decidable e.IsDir := inferInstanceAs (Decidable (_ = _))

/-- Every entry whose name contains `/` stands behind an entry for its parent
    path that has a directory mode. -/
def ParentsFirst (entries : List NewcEntry) : Prop :=
  ∀ e ∈ entries, ∀ q, parentPath e.path = some q → ∃ d, [d, e] <+ entries ∧ d.path = q ∧ d.IsDir

/-- What copying would have to check: a base path that stays the parent of a
    base entry is copied from a directory, and the parent of an added path is a
    copied path or a directory of the base, or was added before. -/
structure ParentsKept (base donor : NewcArchive) (args : Arguments) : Prop where
  copied : ∀ e ∈ base.entries, e.path ∉ args.delete → ∀ q ∈ args.copy,
    parentPath e.path = some q → ∀ d ∈ donor.entries, d.path = q → d.IsDir
  added : ∀ (i : ℕ) (p q : Path), (addedPaths (paths base.entries) args.copy)[i]? = some p →
    p ∉ args.delete → parentPath p = some q →
      (∃ b ∈ base.entries, b.path = q ∧ (q ∈ args.copy ∨ b.IsDir)) ∨
        ∃ j < i, (addedPaths (paths base.entries) args.copy)[j]? = some q

section
variable {basePayload donorPayload : Bytes} {base donor rewritten : NewcArchive} {args : Arguments}
  {init : List NewcEntry} {t : NewcEntry}

/-! ## Order and modes after the mutations -/

theorem getElem?_addedEntries {donor : List NewcEntry} : ∀ {ps : List Path} {next : ℤ} {i : ℕ}
    {p : Path} {d : NewcEntry}, (∀ p ∈ ps, ∃ d ∈ donor, d.path = p) → ps[i]? = some p →
    entryByPath donor p = some d →
    (addedEntries (entryByPath donor) next ps)[i]? = some { d with inode := next + i } := by
  intro ps
  induction ps with
  | nil => intro next i p d _ hi; cases hi
  | cons q ps ih =>
    intro next i p d hall hi hd
    cases hq : entryByPath donor q with
    | none =>
      obtain ⟨c, hc, hcq⟩ := hall q (by simp)
      rw [entryByPath, Dict.ofPairs_eq_none_iff, List.map_map] at hq
      exact absurd (List.mem_map.mpr ⟨c, hc, hcq⟩) hq
    | some c =>
      rw [addedEntries, hq, Option.elim_some, List.singleton_append]
      cases i with
      | zero =>
        obtain rfl : q = p := by simpa using hi
        obtain rfl : c = d := Option.some.inj (hq.symm.trans hd)
        simp
      | succ i =>
        rw [List.getElem?_cons_succ] at hi ⊢
        rw [ih (fun p hp => hall p (by simp [hp])) hi hd]
        congr 2
        push_cast
        ring

/-- The `i`-th added path is copied into the `i`-th added entry. -/
theorem Accepted.ClosedForm.getElem?_added
    (c : Accepted.ClosedForm base donor args rewritten init t) (hd : (paths donor.entries).Nodup)
    {i : ℕ} {d : NewcEntry} (hmem : d ∈ donor.entries)
    (hi : (addedPaths (paths base.entries) args.copy)[i]? = some d.path) :
    (Newc.added base donor args)[i]? =
      some { d with inode := maxInode base.entries + 1 + i } :=
  getElem?_addedEntries (fun p hp => c.in_donor p (mem_addedPaths.mp hp).1) hi
    ((entryByPath_eq_some_iff hd).mpr ⟨hmem, rfl⟩)

/-- Base entries keep their order, and stand before what is added. -/
theorem Accepted.ClosedForm.sublist_base
    (c : Accepted.ClosedForm base donor args rewritten init t) :
    (base.entries.map (rewriteEntry donor args)).filter args.keeps <+ rewritten.entries := by
  have hkeep : args.keeps (rewriteEntry donor args t) = true := by
    simp [Arguments.keeps, c.trailer, c.trailer_kept]
  rw [c.entries_eq, c.base_eq, List.map_append, List.filter_append, List.map_singleton,
    List.filter_singleton, hkeep, List.append_assoc]
  exact List.Sublist.append_left (List.sublist_append_right _ _) _

theorem Accepted.ClosedForm.sublist_added
    (c : Accepted.ClosedForm base donor args rewritten init t) :
    ((Newc.added base donor args).map (replaceAll args.replaceData)).filter args.keeps <+
      rewritten.entries := by
  rw [c.entries_eq]
  exact (List.sublist_append_right _ _).trans (List.sublist_append_left _ _)

/-- The mode of a copied path is that of the donor. -/
theorem isDir_rewriteEntry_of_mem (hd : (paths donor.entries).Nodup) {e d : NewcEntry}
    (hmem : d ∈ donor.entries) (hp : d.path = e.path) (hcopy : e.path ∈ args.copy) :
    (rewriteEntry donor args e).IsDir ↔ d.IsDir := by
  have hlookup : entryByPath donor.entries e.path = some d :=
    (entryByPath_eq_some_iff hd).mpr ⟨hmem, hp⟩
  rw [NewcEntry.IsDir, NewcEntry.IsDir, rewriteEntry, mode_replaceAll, copyAll, if_pos hcopy,
    hlookup]
  rfl

theorem isDir_rewriteEntry_of_notMem {e : NewcEntry} (hcopy : e.path ∉ args.copy) :
    (rewriteEntry donor args e).IsDir ↔ e.IsDir := by
  rw [NewcEntry.IsDir, NewcEntry.IsDir, rewriteEntry, mode_replaceAll, copyAll_of_notMem hcopy]

/-- An entry that stands before another one is not the trailer. -/
theorem WellFormed.ne_trailer_of_sublist {a : NewcArchive} (h : WellFormed a) {d e : NewcEntry}
    (hsub : [d, e] <+ a.entries) : d.path ≠ trailerPath := by
  intro hd
  obtain ⟨init, t, heq, ht⟩ := h.trailer_last
  have hnodup : a.entries.Nodup := List.Nodup.of_map _ h.nodup
  obtain ⟨hdmem, hemem⟩ := mem_of_pair_sublist hsub
  have hdt : d = t := eq_of_path_eq h.nodup hdmem (by simp [heq]) (hd.trans ht.symm)
  subst hdt
  refine not_pair_sublist_swap hnodup hsub ?_
  rw [heq] at hemem hsub ⊢
  rcases List.mem_append.mp hemem with he | he
  · exact pair_sublist_append he (by simp)
  · rw [List.mem_singleton.mp he] at hsub ⊢
    exact hsub

/-- The parent of a kept path is kept. -/
theorem Accepted.ClosedForm.parent_kept
    (c : Accepted.ClosedForm base donor args rewritten init t) {e : NewcEntry}
    (he : e ∈ rewritten.entries) {q : Path} (hq : parentPath e.path = some q) :
    q ∉ args.delete := by
  intro hdel
  obtain ⟨hkept, hmem⟩ := c.mem_iff.mp he
  refine hkept ((c.deletable q hdel).below e.path ?_ (isBelow_parentPath hq))
  rcases hmem with ⟨b, hb, rfl⟩ | ⟨a, ha, rfl⟩
  · exact mem_paths.mpr ⟨_, List.mem_append_left _ (List.mem_map_of_mem hb), rfl⟩
  · exact mem_paths.mpr ⟨_, List.mem_append_right _ (List.mem_map_of_mem ha), rfl⟩

/-! ## The two directions -/

/-- Under `ParentsKept` the rewritten archive has parents before children. -/
theorem Accepted.parentsFirst (h : Accepted basePayload donorPayload base donor args rewritten)
    (hbase : ParentsFirst base.entries) (hdonor : ParentsFirst donor.entries)
    (hkept : ParentsKept base donor args) : ParentsFirst rewritten.entries := by
  obtain ⟨init, t, c⟩ := h.closedForm
  have hbnodup := h.base_gate.wellFormed.nodup
  have hdnodup := h.donor_gate.wellFormed.nodup
  have hkeeps : ∀ x : NewcEntry, x.path ∉ args.delete → args.keeps x = true := fun x hx => by
    simp [Arguments.keeps, hx]
  intro e he q hq
  have hqkept := c.parent_kept he hq
  obtain ⟨hekept, ⟨b, hb, rfl⟩ | ⟨a, ha, rfl⟩⟩ := c.mem_iff.mp he
  · -- a base entry: its parent in the base stays a directory
    rw [path_rewriteEntry] at hq hekept
    obtain ⟨d, hsub, rfl, hdir⟩ := hbase b hb q hq
    refine ⟨rewriteEntry donor args d, ?_, path_rewriteEntry donor args d, ?_⟩
    · have hmap := (hsub.map (rewriteEntry donor args)).filter args.keeps
      rw [List.map_cons, List.map_singleton, List.filter_cons_of_pos, List.filter_cons_of_pos,
        List.filter_nil] at hmap
      · exact hmap.trans c.sublist_base
      · exact hkeeps _ (by rw [path_rewriteEntry]; exact hekept)
      · exact hkeeps _ (by rw [path_rewriteEntry]; exact hqkept)
    · by_cases hcopy : d.path ∈ args.copy
      · obtain ⟨x, hx, hxp⟩ := c.in_donor _ hcopy
        exact (isDir_rewriteEntry_of_mem hdnodup hx hxp hcopy).mpr
          (hkept.copied b hb hekept _ hcopy hq x hx hxp)
      · exact (isDir_rewriteEntry_of_notMem hcopy).mpr hdir
  · -- an added entry: its parent in the donor is a directory
    rw [path_replaceAll] at hq hekept
    obtain ⟨i, x, hi, hx, rfl⟩ := mem_added ha
    have hxa : ({ x with inode := maxInode base.entries + 1 + i } : NewcEntry).path = x.path := rfl
    rw [hxa] at hq hekept
    obtain ⟨y, hysub, rfl, hydir⟩ := hdonor x hx q hq
    have hy := (mem_of_pair_sublist hysub).1
    rcases hkept.added i x.path y.path hi hekept hq with ⟨b, hb, hbp, hcase⟩ | ⟨j, hj, hjq⟩
    · refine ⟨rewriteEntry donor args b, ?_, (path_rewriteEntry donor args b).trans hbp, ?_⟩
      · -- the parent is not the trailer, as it is not last in the donor
        have hne : b.path ≠ trailerPath := by
          rw [hbp]
          exact h.donor_gate.wellFormed.ne_trailer_of_sublist hysub
        have hbinit : b ∈ init := by
          rw [c.base_eq] at hb
          rcases List.mem_append.mp hb with hb | hb
          · exact hb
          · rw [List.mem_singleton.mp hb] at hne
            exact absurd c.trailer hne
        rw [c.entries_eq]
        refine (pair_sublist_append ?_ ?_).trans (List.sublist_append_left _ _)
        · refine List.mem_filter.mpr ⟨List.mem_map_of_mem hbinit, hkeeps _ ?_⟩
          rw [path_rewriteEntry, hbp]
          exact hqkept
        · exact List.mem_filter.mpr ⟨List.mem_map_of_mem ha, hkeeps _ (by
            rw [path_replaceAll]; exact hekept)⟩
      · by_cases hcopy : y.path ∈ args.copy
        · exact (isDir_rewriteEntry_of_mem hdnodup hy hbp.symm (hbp ▸ hcopy)).mpr hydir
        · exact (isDir_rewriteEntry_of_notMem (hbp ▸ hcopy)).mpr (hcase.resolve_left hcopy)
    · have hgetj := c.getElem?_added hdnodup hy hjq
      have hgeti := c.getElem?_added hdnodup hx hi
      have hpair := ((pair_sublist_of_lt hj hgetj hgeti).map
        (replaceAll args.replaceData)).filter args.keeps
      rw [List.map_cons, List.map_singleton, List.filter_cons_of_pos, List.filter_cons_of_pos,
        List.filter_nil] at hpair
      · refine ⟨_, hpair.trans c.sublist_added, path_replaceAll _ _, ?_⟩
        rw [NewcEntry.IsDir, mode_replaceAll]
        exact hydir
      · exact hkeeps _ (by rw [path_replaceAll]; exact hekept)
      · exact hkeeps _ (by rw [path_replaceAll]; exact hqkept)

/-- Only under `ParentsKept` does it have parents before children. -/
theorem Accepted.parentsKept (h : Accepted basePayload donorPayload base donor args rewritten)
    (hbase : ParentsFirst base.entries) (hrewritten : ParentsFirst rewritten.entries) :
    ParentsKept base donor args := by
  obtain ⟨init, t, c⟩ := h.closedForm
  have hbnodup := h.base_gate.wellFormed.nodup
  have hdnodup := h.donor_gate.wellFormed.nodup
  constructor
  · intro e he hkept q hcopy hq d hd hdp
    have hmem : rewriteEntry donor args e ∈ rewritten.entries :=
      c.mem_iff.mpr ⟨by rw [path_rewriteEntry]; exact hkept, .inl ⟨e, he, rfl⟩⟩
    obtain ⟨d', hsub, hd'p, hdir⟩ := hrewritten _ hmem q (by rw [path_rewriteEntry]; exact hq)
    obtain ⟨b, hbsub, rfl, -⟩ := hbase e he q hq
    rw [c.of_base_path hbnodup (mem_of_pair_sublist hbsub).1 (mem_of_pair_sublist hsub).1 hd'p]
      at hdir
    exact (isDir_rewriteEntry_of_mem hdnodup hd hdp hcopy).mp hdir
  · intro i p q hi hkept hq
    obtain ⟨hcopy, hnew⟩ := mem_addedPaths.mp (List.mem_of_getElem? hi)
    obtain ⟨x, hx, rfl⟩ := c.in_donor p hcopy
    have hgeti := c.getElem?_added hdnodup hx hi
    have hmem := c.mem_iff.mpr ⟨by rw [path_replaceAll]; exact hkept,
      .inr ⟨_, List.mem_of_getElem? hgeti, rfl⟩⟩
    obtain ⟨d', hsub, hd'p, hdir⟩ := hrewritten _ hmem q (by rw [path_replaceAll]; exact hq)
    obtain ⟨-, ⟨b, hb, rfl⟩ | ⟨a, ha, rfl⟩⟩ := c.mem_iff.mp (mem_of_pair_sublist hsub).1
    · rw [path_rewriteEntry] at hd'p
      refine .inl ⟨b, hb, hd'p, ?_⟩
      by_cases hqcopy : q ∈ args.copy
      · exact .inl hqcopy
      · exact .inr ((isDir_rewriteEntry_of_notMem (hd'p ▸ hqcopy)).mp hdir)
    · rw [path_replaceAll] at hd'p
      obtain ⟨j, y, hj, hy, rfl⟩ := mem_added ha
      have hyq : y.path = q := hd'p
      refine .inr ⟨j, ?_, hyq ▸ hj⟩
      by_contra hge
      rcases Nat.eq_or_lt_of_le (Nat.le_of_not_lt hge) with heq | hlt
      · rw [heq, hj, Option.some.injEq] at hi
        exact parentPath_ne hq (hyq.symm.trans hi)
      · -- the entry for `q` would stand behind its child
        have hgetj := c.getElem?_added hdnodup hy hj
        have hpair := ((pair_sublist_of_lt hlt hgeti hgetj).map
          (replaceAll args.replaceData)).filter args.keeps
        have hkeeps : ∀ z : NewcEntry, z ∈ rewritten.entries → args.keeps z = true := fun z hz => by
          simp [Arguments.keeps, (c.mem_iff.mp hz).1]
        rw [List.map_cons, List.map_singleton, List.filter_cons_of_pos (hkeeps _ hmem),
          List.filter_cons_of_pos (hkeeps _ (mem_of_pair_sublist hsub).1), List.filter_nil] at hpair
        exact not_pair_sublist_swap (List.Nodup.of_map _ h.wellFormed.nodup) hsub
          (hpair.trans c.sublist_added)

/-- **Parents before children.** From a base and a donor with parents before
    children, accepted arguments make such an archive if and only if
    `ParentsKept`. -/
theorem parentsFirst_rewritten_iff
    (h : Accepted basePayload donorPayload base donor args rewritten)
    (hbase : ParentsFirst base.entries) (hdonor : ParentsFirst donor.entries) :
    ParentsFirst rewritten.entries ↔ ParentsKept base donor args :=
  ⟨h.parentsKept hbase, h.parentsFirst hbase hdonor⟩

end

/-- A directory, and a file in it. -/
def dirArchive : NewcArchive :=
  ⟨[{ trailerEntry with mode := 0o40755, name := ascii "d" }, { fileEntry with name := ascii "d/a" },
    trailerEntry], []⟩

theorem gate_dirArchive : Gate dirArchive.serialize dirArchive := by
  have hascii : ∀ e ∈ dirArchive.entries, e.name.all (fun b => b < 0x80) = true := by decide
  exact gate_serialize ⟨by decide, fun e he => utf8Valid_of_ascii (hascii e he), by decide, [_, _],
    _, rfl, rfl⟩ (by decide) (by decide)

theorem parentsFirst_fileArchive : ParentsFirst fileArchive.entries := by
  have hflat : ∀ e ∈ fileArchive.entries, parentPath e.path = none := by decide
  intro e he q hq
  rw [hflat e he] at hq
  cases hq

theorem parentsFirst_dirArchive : ParentsFirst dirArchive.entries := by
  have hparent : ∀ e ∈ dirArchive.entries, parentPath e.path = none ∨
      parentPath e.path = some (ascii "d") ∧ e = { fileEntry with name := ascii "d/a" } := by decide
  intro e he q hq
  rcases hparent e he with hnone | ⟨hsome, rfl⟩
  · rw [hnone] at hq
    cases hq
  · obtain rfl := Option.some.inj (hsome.symm.trans hq)
    exact ⟨_, (List.singleton_sublist.mpr (List.mem_cons_self)).cons_cons _, rfl, rfl⟩

/-- `--copy d --copy d/a`. -/
theorem accepted_directory :
    Accepted fileArchive.serialize dirArchive.serialize fileArchive dirArchive
      ⟨[ascii "d", ascii "d/a"], [], []⟩
      ⟨[fileEntry, { trailerEntry with mode := 0o40755, name := ascii "d", inode := 0xac },
        { fileEntry with name := ascii "d/a", inode := 0xad }, trailerEntry],
        ascii "070701"⟩ :=
  ⟨gate_fileArchive, gate_dirArchive, _, _, _, _, _, rfl, rfl, rfl⟩

/-- The directory is added before the file in it. -/
theorem parentsKept_directory :
    ParentsKept fileArchive dirArchive ⟨[ascii "d", ascii "d/a"], [], []⟩ := by
  have hflat : ∀ e ∈ fileArchive.entries, parentPath e.path = none := by decide
  have hadded : addedPaths (paths fileArchive.entries) [ascii "d", ascii "d/a"] =
      [ascii "d", ascii "d/a"] := by decide
  have hd : parentPath (ascii "d") = none := by decide
  have ha : parentPath (ascii "d/a") = some (ascii "d") := by decide
  refine ⟨fun e he _ q _ hq => ?_, fun i p q hi _ hq => ?_⟩
  · rw [hflat e he] at hq
    cases hq
  · rw [hadded] at hi ⊢
    match i with
    | 0 =>
      obtain rfl := Option.some.inj hi
      rw [hd] at hq
      cases hq
    | 1 =>
      obtain rfl := Option.some.inj hi
      obtain rfl := Option.some.inj (ha.symm.trans hq)
      exact .inr ⟨0, Nat.one_pos, rfl⟩
    | i + 2 => cases hi

theorem parentsFirst_rewritten_iff_directory :
    ParentsKept fileArchive dirArchive ⟨[ascii "d", ascii "d/a"], [], []⟩ ∧
      ParentsFirst [fileEntry,
        { trailerEntry with mode := 0o40755, name := ascii "d", inode := 0xac },
        { fileEntry with name := ascii "d/a", inode := 0xad }, trailerEntry] :=
  ⟨parentsKept_directory, (parentsFirst_rewritten_iff accepted_directory parentsFirst_fileArchive
    parentsFirst_dirArchive).mpr parentsKept_directory⟩

/-- `--copy d/a`, where the base has no `d`. -/
theorem accepted_orphan : Accepted fileArchive.serialize dirArchive.serialize fileArchive dirArchive
    ⟨[ascii "d/a"], [], []⟩
    ⟨[fileEntry, { fileEntry with name := ascii "d/a", inode := 0xac }, trailerEntry],
      ascii "070701"⟩ :=
  ⟨gate_fileArchive, gate_dirArchive, _, _, _, _, _, rfl, rfl, rfl⟩

theorem rewritten_orphan :
    ParentsFirst fileArchive.entries ∧ ParentsFirst dirArchive.entries ∧
      ∃ rewritten, Accepted fileArchive.serialize dirArchive.serialize fileArchive dirArchive
        ⟨[ascii "d/a"], [], []⟩ rewritten ∧ ¬ ParentsFirst rewritten.entries := by
  refine ⟨parentsFirst_fileArchive, parentsFirst_dirArchive, _, accepted_orphan, fun h => ?_⟩
  obtain ⟨d, hsub, hd, -⟩ := h { fileEntry with name := ascii "d/a", inode := 0xac } (by simp)
    (ascii "d") (by decide)
  have habsent : ascii "d" ∉ paths [fileEntry, { fileEntry with name := ascii "d/a", inode := 0xac },
      trailerEntry] := by decide
  exact habsent (mem_paths.mpr ⟨d, (mem_of_pair_sublist hsub).1, hd⟩)

end Pro5Android.Newc
