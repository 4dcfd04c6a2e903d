import Pro5Android.Newc.Orphans
import Mathlib.Logic.Relation

/-!
# What deletion accepts and what it leaves

`deleted_archive` (lines 263–298) refuses to leave an entry below a path that it deletes.
It looks for the text `f"{path}/"` at the start of a name, which is to say for a direct or
indirect parent path.

Results:
* `ancestor_iff_isBelow`: the text stands there exactly if the path is such a parent.
* `deletedArchive_isOk_iff`: when deletion succeeds.
* `deletedArchive_spec`: that, and what it leaves.
-/

namespace Pro5Android.Newc

open Python

/-! ## Parents of parents -/

/-- `q` is the parent path of `p`, or the parent of a parent, and so on. -/
def Ancestor (q p : Path) : Prop := Relation.TransGen (fun q p => parentPath p = some q) q p

theorem ascii_slash : (ascii "/" : Path) = [47] := by decide

/-- The parent stands before a `/` behind which there is no other. -/
theorem parentPath_append (q : Path) {name : Path} (h : (47 : Byte) ∉ name) :
    parentPath (q ++ ascii "/" ++ name) = some q := by
  have hname : ∀ b ∈ name.reverse, decide (b ≠ 47) = true := by
    intro b hb
    refine decide_eq_true fun heq => h ?_
    rw [← heq]
    exact List.mem_reverse.mp hb
  have hdrop : (q ++ ascii "/" ++ name).reverse.dropWhile (· ≠ 47) = 47 :: q.reverse := by
    rw [ascii_slash, List.reverse_append, List.reverse_append, List.dropWhile_append_of_pos hname]
    exact List.dropWhile_cons_of_neg (by decide)
  unfold parentPath
  rw [hdrop]
  dsimp only
  rw [List.reverse_reverse]

theorem isBelow_iff {q p : Path} : isBelow q p = true ↔ ∃ name, p = q ++ ascii "/" ++ name := by
  rw [isBelow, List.isPrefixOf_iff_prefix]
  exact exists_congr fun name => eq_comm

theorem isBelow_trans {r q p : Path} (hrq : isBelow r q = true) (hqp : isBelow q p = true) :
    isBelow r p = true := by
  obtain ⟨name, rfl⟩ := isBelow_iff.mp hrq
  obtain ⟨name', rfl⟩ := isBelow_iff.mp hqp
  exact isBelow_iff.mpr ⟨name ++ ascii "/" ++ name', by simp only [List.append_assoc]⟩

theorem Ancestor.isBelow {q p : Path} (h : Ancestor q p) : isBelow q p = true := by
  induction h with
  | single h => exact isBelow_parentPath h
  | tail _ h ih => exact isBelow_trans ih (isBelow_parentPath h)

/-- What stands before a `/` is an ancestor, by induction on the length of the rest. -/
theorem ancestor_append (q : Path) : ∀ (n : ℕ) (name : Path), name.length ≤ n →
    Ancestor q (q ++ ascii "/" ++ name) := by
  intro n
  induction n with
  | zero =>
    intro name hn
    obtain rfl := List.eq_nil_of_length_eq_zero (Nat.le_zero.mp hn)
    exact .single (parentPath_append q List.not_mem_nil)
  | succ n ih =>
    intro name hn
    by_cases hslash : (47 : Byte) ∈ name
    · -- what stands before the last `/` of the rest is the parent
      obtain ⟨back, front, heq, hback⟩ := List.eq_append_cons_of_mem (List.mem_reverse.mpr hslash)
      have hname : name = front.reverse ++ ascii "/" ++ back.reverse := by
        have hrev := congrArg List.reverse heq
        rw [List.reverse_reverse, List.reverse_append, List.reverse_cons] at hrev
        exact hrev
      have hlen : front.reverse.length ≤ n := by
        rw [hname, List.length_append, List.length_append] at hn
        simp only [ascii_slash, List.length_singleton] at hn
        omega
      refine .tail (ih front.reverse hlen) ?_
      have hlast := parentPath_append (q ++ ascii "/" ++ front.reverse)
        (fun hmem => hback (List.mem_reverse.mp hmem))
      rw [hname, ← hlast]
      simp only [List.append_assoc]
    · exact .single (parentPath_append q hslash)

/-- **The text of the check** stands before a name exactly if the path is an ancestor. -/
theorem ancestor_iff_isBelow {q p : Path} : Ancestor q p ↔ isBelow q p = true := by
  refine ⟨Ancestor.isBelow, fun h => ?_⟩
  obtain ⟨name, rfl⟩ := isBelow_iff.mp h
  exact ancestor_append q _ name le_rfl

/-! ## When deletion succeeds -/

section

variable {base : NewcArchive} {ps : List Path}

theorem deleteCheck_eq_ok_iff {entries : List NewcEntry} (hnodup : (paths entries).Nodup)
    {p : Path} : deleteCheck entries ps p = .ok () ↔ Deletable entries ps p := by
  refine ⟨deleteCheck_eq_ok, fun ⟨⟨e, he, hp, hlinks⟩, hbelow⟩ => ?_⟩
  have hany : ¬ ((paths entries).any fun c => isBelow p c && !ps.contains c) = true := by
    intro hany
    obtain ⟨c, hc, hcond⟩ := List.any_eq_true.mp hany
    rw [Bool.and_eq_true] at hcond
    have hmem := hbelow c hc hcond.1
    simp [hmem] at hcond
  unfold deleteCheck
  rw [(entryByPath_eq_some_iff hnodup).mpr ⟨he, hp⟩]
  dsimp only
  rw [if_neg (by omega), if_neg hany]

/-- The call succeeds exactly if the trailer is not named and every path can be deleted. -/
theorem deletedArchive_isOk_iff (hnodup : (paths base.entries).Nodup) :
    (∃ result, deletedArchive base ps = .ok result) ↔
      trailerPath ∉ ps ∧ ∀ p ∈ ps, Deletable base.entries ps p := by
  constructor
  · rintro ⟨⟨deleted, actions⟩, h⟩
    obtain ⟨-, -, htrailer, hall⟩ := deletedArchive_eq_ok h
    exact ⟨htrailer, hall⟩
  · rintro ⟨htrailer, hall⟩
    have hloop := forM_eq_ok.mpr fun p hp => (deleteCheck_eq_ok_iff hnodup).mpr (hall p hp)
    refine ⟨(⟨base.entries.filter fun e => !ps.contains e.path, base.tail⟩,
      ps.map fun path => (path, .removed)), ?_⟩
    unfold deletedArchive
    rw [if_neg htrailer, hloop]
    rfl

/-- What can be deleted, over the whole list: the paths exist and have no further links, and
what stays lies below none of them. -/
theorem forall_deletable_iff (hnodup : (paths base.entries).Nodup) :
    (∀ p ∈ ps, Deletable base.entries ps p) ↔
      (∀ p ∈ ps, p ∈ paths base.entries) ∧
      (∀ e ∈ base.entries, e.path ∈ ps → ¬ e.links > 1) ∧
      ∀ e ∈ base.entries, e.path ∉ ps → ∀ p ∈ ps, ¬ p ++ ascii "/" <+: e.path := by
  constructor
  · intro hall
    refine ⟨fun p hp => ?_, fun e he hp => ?_, fun e he hkept p hp hprefix => ?_⟩
    · obtain ⟨e, he, rfl, -⟩ := (hall p hp).single
      exact List.mem_map_of_mem he
    · obtain ⟨d, hd, hpath, hlinks⟩ := (hall e.path hp).single
      obtain rfl := List.inj_on_of_nodup_map hnodup hd he hpath
      omega
    · have hbelow := (hall p hp).below e.path (List.mem_map_of_mem he)
      exact hkept (hbelow (List.isPrefixOf_iff_prefix.mpr hprefix))
  · rintro ⟨hexists, hlinks, hbelow⟩ p hp
    obtain ⟨e, he, rfl⟩ := List.mem_map.mp (hexists p hp)
    refine ⟨⟨e, he, rfl, not_lt.mp (hlinks e he hp)⟩, fun c hc hpc => ?_⟩
    obtain ⟨d, hd, rfl⟩ := List.mem_map.mp hc
    by_contra hkept
    exact hbelow d hd hkept e.path hp (List.isPrefixOf_iff_prefix.mp hpc)

/-- **Deletion is exact and safe.** It succeeds exactly if every path exists, none is the
trailer or has a link count above 1, and nothing that stays is below one of them; then it
takes these entries away and nothing else, and leaves none without a parent it had. -/
theorem deletedArchive_spec (base : NewcArchive) (hnodup : (paths base.entries).Nodup)
    (ps : List Path) :
    ((∃ result, deletedArchive base ps = .ok result) ↔
      (∀ p ∈ ps, p ∈ paths base.entries) ∧ trailerPath ∉ ps ∧
      (∀ e ∈ base.entries, e.path ∈ ps → ¬ e.links > 1) ∧
      ∀ e ∈ base.entries, e.path ∉ ps → ∀ p ∈ ps, ¬ p ++ ascii "/" <+: e.path) ∧
    ∀ deleted actions, deletedArchive base ps = .ok (deleted, actions) →
      deleted.entries = base.entries.filter (fun e => e.path ∉ ps) ∧
      deleted.tail = base.tail ∧
      ∀ e ∈ deleted.entries, ∀ p ∈ ps, ¬ Ancestor p e.path := by
  constructor
  · rw [deletedArchive_isOk_iff hnodup, forall_deletable_iff hnodup]
    tauto
  · intro deleted actions h
    obtain ⟨hentries, htail, -, hall⟩ := deletedArchive_eq_ok h
    obtain ⟨-, -, hbelow⟩ := (forall_deletable_iff hnodup).mp hall
    have hfilter : deleted.entries = base.entries.filter (fun e => e.path ∉ ps) := by
      rw [hentries]
      exact List.filter_congr fun e _ => by simp
    refine ⟨hfilter, htail, fun e he p hp hancestor => ?_⟩
    rw [hfilter, List.mem_filter, decide_eq_true_eq] at he
    exact hbelow e he.1 he.2 p hp (List.isPrefixOf_iff_prefix.mp hancestor.isBelow)

end

/-- A directory with a file, and the trailer. -/
def directoryArchive : NewcArchive :=
  ⟨[{ fileEntry with name := ascii "sbin", mode := 0o40755 },
    { fileEntry with name := ascii "sbin/su" }, { fileEntry with name := ascii "sbin2" },
    trailerEntry], []⟩

/-- The directory goes with its file, and not alone. -/
theorem deletedArchive_spec_directory :
    (∃ deleted actions,
      deletedArchive directoryArchive [ascii "sbin/su", ascii "sbin"] = .ok (deleted, actions) ∧
        deleted.entries = [{ fileEntry with name := ascii "sbin2" }, trailerEntry]) ∧
      ¬ ∃ result, deletedArchive directoryArchive [ascii "sbin"] = .ok result := by
  constructor
  · obtain ⟨hok, hresult⟩ :=
      deletedArchive_spec directoryArchive (by decide) [ascii "sbin/su", ascii "sbin"]
    obtain ⟨⟨deleted, actions⟩, h⟩ := hok.mpr (by decide)
    obtain ⟨hentries, -⟩ := hresult deleted actions h
    exact ⟨deleted, actions, h, hentries.trans (by decide)⟩
  · rw [(deletedArchive_spec directoryArchive (by decide) [ascii "sbin"]).1]
    decide

end Pro5Android.Newc
