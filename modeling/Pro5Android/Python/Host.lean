import Pro5Android.Lib.FileTree
import Pro5Android.Lib.Raising
import Pro5Android.Python.Text

/-!
# The files of the host

What `os` and `pathlib` do to the host's files. Names are bytes; a path is the list of
its names from the root, as the tools' own paths have neither `.` nor `..`, while the
target of a symbolic link may have them. Permissions, space, times and the limits on
names are left out, and so is the owner; a new file gets the mode `0o644`.

Results:
* `mkdir_eq_ok` and the like: where each operation acts.
* `mkdirParents_spec`: `mkdir(parents=True, exist_ok=True)` stays in a directory if all
  the directories on the way lead into it.
-/

namespace Pro5Android.Python

open Lib

/-- A regular file. -/
structure FileData where
  content : Bytes
  mode : ℕ
deriving DecidableEq

/-- The files of the host. -/
abbrev HostDisk := Disk Bytes FileData

/-- An absolute path. -/
abbrev HostPath := List Bytes

/-- A program on the host that may raise. -/
abbrev HostM (ε : Type) := EStateM ε HostDisk

/-- `MAXSYMLINKS`. -/
def maxLinks : ℕ := 40

/-- A component of the target of a link. -/
def comp (x : Bytes) : Comp Bytes :=
  if x = ascii "." then .self else if x = ascii ".." then .parent else .name x

/-- The link with the target `text`; a slash at the end asks for a directory. -/
def linkTo (text : Bytes) : Node Bytes FileData :=
  .link (text.head? = some 47)
    (((text.splitOn 47).filter (· ≠ [])).map comp ++ if text.getLast? = some 47 then [.self] else [])

namespace HostDisk

/-! ## Lookups -/

/-- Where `path` leads. -/
def lookup (s : HostDisk) (path : HostPath) : Except FileError HostPath :=
  match s.tree.locate maxLinks [] (names path) with
  | .ok l => .ok l
  | .error e => .error (.lookup e)

/-- Where the directory `path` is. -/
def dirAt (s : HostDisk) (path : HostPath) : Except FileError HostPath := do
  let l ← lookup s path
  if s.tree.IsDir l then .ok l
  else if (s.tree.node l).isNone then .error (.lookup .noEntry) else .error (.lookup .notDir)

/-- `path.exists()`. -/
def pathExists (s : HostDisk) (path : HostPath) : Bool :=
  match lookup s path with
  | .ok l => (s.tree.node l).isSome
  | .error _ => false

/-- `path.is_dir()`. -/
def isDirectory (s : HostDisk) (path : HostPath) : Bool :=
  match lookup s path with
  | .ok l => s.tree.IsDir l
  | .error _ => false

/-- `path.is_symlink()` of the name `n` in `up`. -/
def isSymlink (s : HostDisk) (up : HostPath) (n : Bytes) : Bool :=
  match dirAt s up with
  | .ok d => s.tree.IsLink (d ++ [n])
  | .error _ => false

/-! ## Changes -/

/-- `os.mkdir`. -/
def mkdir (s : HostDisk) (up : HostPath) (n : Bytes) : Except FileError HostDisk := do
  let d ← dirAt s up
  if (s.tree.node (d ++ [n])).isNone then s.place (d ++ [n]) .dir else .error .alreadyExists

/-- `os.unlink`. -/
def unlink (s : HostDisk) (up : HostPath) (n : Bytes) : Except FileError HostDisk := do
  let d ← dirAt s up
  if (s.tree.node (d ++ [n])).isNone then .error (.lookup .noEntry) else s.remove (d ++ [n])

/-- `os.symlink`. -/
def symlink (s : HostDisk) (target : Bytes) (up : HostPath) (n : Bytes) :
    Except FileError HostDisk := do
  if target = [] then .error (.lookup .noEntry)
  else
    let d ← dirAt s up
    if (s.tree.node (d ++ [n])).isNone then s.place (d ++ [n]) (linkTo target)
    else .error .alreadyExists

/-- `os.replace` of the name `m` by the name `n` of the same directory. Directories,
    which the tools never rename, are refused. -/
def replace (s : HostDisk) (up : HostPath) (n m : Bytes) : Except FileError HostDisk := do
  let d ← dirAt s up
  match s.tree.node (d ++ [n]) with
  | none => .error (.lookup .noEntry)
  | some .dir => .error .isDir
  | some v =>
    let s ← s.remove (d ++ [n])
    let s ← s.remove (d ++ [m])
    s.place (d ++ [m]) v

/-- `open(path, "wb")`: the file that was there or a new one, without content. -/
def openWrite (s : HostDisk) (path : HostPath) : Except FileError (HostPath × HostDisk) := do
  let l ← lookup s path
  let mode := match s.tree.node l with
    | some (.file data) => data.mode
    | _ => 0o644
  let s ← s.place l (.file ⟨[], mode⟩)
  return (l, s)

/-- `target.write(chunk)` to the open file at `l`. -/
def write (s : HostDisk) (l : HostPath) (chunk : Bytes) : Except FileError HostDisk :=
  match s.tree.node l with
  | some (.file data) => s.place l (.file { data with content := data.content ++ chunk })
  | _ => .ok s

/-- `os.chmod`. The mode of a directory is not kept, but changing it is noted. -/
def chmod (s : HostDisk) (path : HostPath) (mode : ℕ) : Except FileError HostDisk := do
  let l ← lookup s path
  match s.tree.node l with
  | some (.file data) => s.place l (.file { data with mode := mode })
  | some _ => .ok { s with changed := l :: s.changed }
  | none => .error (.lookup .noEntry)

/-- The answer of `Path.mkdir(exist_ok=True)` to an error of `os.mkdir` other than that
    a parent is missing. -/
def existOk (s : HostDisk) (path : HostPath) (e : FileError) :
    EStateM.Result FileError HostDisk Unit :=
  if isDirectory s path then .ok () s else .error e s

/-- `Path.mkdir(exist_ok=True)`. -/
def mkdirOnly (up : HostPath) (n : Bytes) : HostM FileError Unit := fun s =>
  match mkdir s up n with
  | .ok s => .ok () s
  | .error (.lookup .noEntry) => .error (.lookup .noEntry) s
  | .error e => existOk s (up ++ [n]) e

/-- `Path.mkdir(parents=True, exist_ok=True)` of the path whose names are given from its
    end. -/
def mkdirParents : List Bytes → HostM FileError Unit
  | [] => pure ()
  | n :: up => fun s =>
    match mkdir s up.reverse n with
    | .ok s => .ok () s
    | .error (.lookup .noEntry) => (do mkdirParents up; mkdirOnly up.reverse n) s
    | .error e => existOk s (up.reverse ++ [n]) e

/-! ## Where the operations act -/

section

variable {s s' : HostDisk} {path up : HostPath} {n m : Bytes} {l d o : HostPath}

theorem lookup_walks (h : lookup s path = .ok l) : s.tree.Walks [] (names path) l := by
  rw [lookup] at h
  split at h
  · rename_i hl
    obtain rfl := Except.ok.inj h
    exact FileTree.walks_of_locate hl
  · cases h

theorem dirAt_eq_ok (h : dirAt s path = .ok d) :
    s.tree.Walks [] (names path) d ∧ s.tree.IsDir d := by
  obtain ⟨l, hl, h⟩ := bind_eq_ok.mp h
  split_ifs at h with hdir
  obtain rfl := Except.ok.inj h
  exact ⟨lookup_walks hl, hdir⟩

theorem isDirectory_eq_true (h : isDirectory s path = true) :
    ∃ l, s.tree.Walks [] (names path) l ∧ s.tree.IsDir l := by
  rw [isDirectory] at h
  split at h
  · rename_i l hl
    exact ⟨l, lookup_walks hl, of_decide_eq_true h⟩
  · cases h

theorem isDirectory_of_isDir (h : s.tree.IsDir path) : isDirectory s path = true := by
  rw [isDirectory, lookup, FileTree.locate_names h]
  exact decide_eq_true h

theorem mkdir_eq_ok (h : mkdir s up n = .ok s') :
    ∃ d, s.tree.Walks [] (names up) d ∧ s.tree.IsDir d ∧ s.tree.node (d ++ [n]) = none ∧
      s.place (d ++ [n]) .dir = .ok s' := by
  obtain ⟨d, hd, h⟩ := bind_eq_ok.mp h
  split_ifs at h with hnone
  exact ⟨d, (dirAt_eq_ok hd).1, (dirAt_eq_ok hd).2, Option.isNone_iff_eq_none.mp hnone, h⟩

theorem unlink_eq_ok (h : unlink s up n = .ok s') :
    ∃ d, s.tree.Walks [] (names up) d ∧ s.tree.IsDir d ∧ s.remove (d ++ [n]) = .ok s' := by
  obtain ⟨d, hd, h⟩ := bind_eq_ok.mp h
  split_ifs at h
  exact ⟨d, (dirAt_eq_ok hd).1, (dirAt_eq_ok hd).2, h⟩

theorem symlink_eq_ok {target : Bytes} (h : symlink s target up n = .ok s') :
    ∃ d, s.tree.Walks [] (names up) d ∧ s.tree.IsDir d ∧
      s.place (d ++ [n]) (linkTo target) = .ok s' := by
  rw [symlink] at h
  split_ifs at h
  obtain ⟨d, hd, h⟩ := bind_eq_ok.mp h
  split_ifs at h
  exact ⟨d, (dirAt_eq_ok hd).1, (dirAt_eq_ok hd).2, h⟩

theorem replace_eq_ok (h : replace s up n m = .ok s') :
    ∃ d v s₁ s₂, s.tree.Walks [] (names up) d ∧ s.tree.IsDir d ∧
      s.tree.node (d ++ [n]) = some v ∧ s.remove (d ++ [n]) = .ok s₁ ∧
      s₁.remove (d ++ [m]) = .ok s₂ ∧ s₂.place (d ++ [m]) v = .ok s' := by
  obtain ⟨d, hd, h⟩ := bind_eq_ok.mp h
  split at h
  · cases h
  · cases h
  · rename_i v _ hv
    obtain ⟨s₁, h₁, h⟩ := bind_eq_ok.mp h
    obtain ⟨s₂, h₂, h⟩ := bind_eq_ok.mp h
    exact ⟨d, v, s₁, s₂, (dirAt_eq_ok hd).1, (dirAt_eq_ok hd).2, hv, h₁, h₂, h⟩

theorem openWrite_eq_ok (h : openWrite s path = .ok (l, s')) :
    s.tree.Walks [] (names path) l ∧ ∃ data, s.place l (.file data) = .ok s' := by
  obtain ⟨l', hl, h⟩ := bind_eq_ok.mp h
  obtain ⟨s₁, hplace, h⟩ := bind_eq_ok.mp h
  obtain ⟨rfl, rfl⟩ := Prod.mk.inj (Except.ok.inj h)
  exact ⟨lookup_walks hl, _, hplace⟩

/-- Writing touches the open file only. -/
theorem write_quiet {chunk : Bytes} (hl : o <+: l) (h : write s l chunk = .ok s') :
    Disk.Quiet o s s' := by
  rw [write] at h
  split at h
  · exact Disk.place_file_quiet hl h
  · obtain rfl := Except.ok.inj h
    exact .refl s

/-- `chmod` touches only what the path leads to. -/
theorem chmod_quiet {mode : ℕ} (hl : ∀ l, s.tree.Walks [] (names path) l → o <+: l)
    (h : chmod s path mode = .ok s') : Disk.Quiet o s s' := by
  obtain ⟨l, hlookup, h⟩ := bind_eq_ok.mp h
  have hol := hl l (lookup_walks hlookup)
  split at h
  · exact Disk.place_file_quiet hol h
  · obtain rfl := Except.ok.inj h
    exact ⟨⟨[l], by simpa using hol, rfl, fun _ h => h, fun _ _ => rfl⟩, .refl _, fun _ h => h⟩
  · cases h

/-! ## Making directories -/

/-- `path` leads to a directory that has nothing in it. -/
def Fresh (s : HostDisk) (path : HostPath) : Prop :=
  ∃ d, s.tree.Walks [] (names path) d ∧ s.tree.IsDir d ∧ ∀ n, s.tree.node (d ++ [n]) = none

/-- A directory that is made below a way extends it, and is empty. -/
theorem mkdir_way (hway : s.tree.Way o up) (hup : o <+: up) (h : mkdir s up n = .ok s') :
    Disk.Inside o s s' ∧ s'.tree.Way o (up ++ [n]) ∧ Fresh s' (up ++ [n]) := by
  obtain ⟨d, hw, hdir, hnone, hplace⟩ := mkdir_eq_ok h
  have hod : o <+: d := hway up hup List.prefix_rfl d hw hdir
  have hdirs : s.tree.DirsFrom s'.tree := Disk.place_missing_dirsFrom hnone hplace
  obtain ⟨-, -, hnode, -⟩ := Disk.place_eq_ok hplace
  have hnew : s'.tree.IsDir (d ++ [n]) := by rw [FileTree.IsDir, hnode, Function.update_self]
  obtain ⟨hw', hdir'⟩ := hdirs _ _ _ hw hdir
  have hlink : ¬ s'.tree.IsLink (d ++ [n]) := by
    rintro ⟨absolute, target, heq⟩
    rw [show s'.tree.node _ = _ from hnew] at heq
    cases heq
  refine ⟨Disk.place_inside (hod.trans (List.prefix_append _ _)) hplace,
    hway.extend hup hdirs hw hdir hnew, d ++ [n], ?_, hnew, fun k => ?_⟩
  · rw [FileTree.names_append]
    exact hw'.snoc hdir' hlink
  · rw [hnode, Function.update_of_ne (by simp)]
    by_contra hk
    rw [s.tree.parent_dir _ _ hk] at hnone
    cases hnone

/-- In a new directory there is no directory. -/
theorem Fresh.not_isDirectory (h : Fresh s up) : isDirectory s (up ++ [n]) ≠ true := by
  intro hdir
  obtain ⟨d, hw, -, hempty⟩ := h
  obtain ⟨l, hl, hldir⟩ := isDirectory_eq_true hdir
  rw [FileTree.names_append] at hl
  obtain ⟨k, hk, -, hkl⟩ := hl.split rfl (List.cons_ne_nil _ _)
  obtain rfl := hw.det hk
  cases hkl with
  | missing _ hnone =>
    rw [FileTree.IsDir, hnone] at hldir
    cases hldir
  | enter _ hsome => exact hsome (hempty n)
  | jump _ hlink =>
    rw [hempty n] at hlink
    cases hlink

/-- What `mkdirParents` makes of a path from its end. -/
theorem mkdirParents_concat (up : HostPath) (n : Bytes) (s : HostDisk) :
    mkdirParents (up ++ [n]).reverse s =
      match mkdir s up n with
      | .ok s => .ok () s
      | .error (.lookup .noEntry) => (do mkdirParents up.reverse; mkdirOnly up n) s
      | .error e => existOk s (up ++ [n]) e := by
  rw [List.reverse_append, List.reverse_singleton, List.singleton_append, mkdirParents,
    List.reverse_reverse]

/-- A directory that is there is not made again. -/
theorem mkdirParents_of_isDir (h : s.tree.IsDir path) :
    mkdirParents path.reverse s = .ok () s := by
  rcases List.eq_nil_or_concat path with rfl | ⟨up, n, rfl⟩
  · rfl
  · rw [List.concat_eq_append] at h ⊢
    have hup : s.tree.IsDir up := FileTree.isDir_of_append h
    have hdirAt : dirAt s up = .ok up := by
      rw [dirAt, lookup, FileTree.locate_names hup]
      exact if_pos hup
    have hexists : mkdir s up n = .error .alreadyExists := by
      rw [mkdir, hdirAt]
      show (if (s.tree.node (up ++ [n])).isNone then _ else _) = _
      rw [show s.tree.node (up ++ [n]) = _ from h]
      rfl
    rw [mkdirParents_concat, hexists]
    exact if_pos (isDirectory_of_isDir h)

/-- Making a path with its parents touches nothing outside `o`, if no directory that is
    on the way is outside; and then the way is as good as it was. -/
theorem mkdirParents_spec (rest : List Bytes) (ho : s.tree.IsDir o)
    (hway : s.tree.Way o (o ++ rest)) :
    Leaves (mkdirParents (o ++ rest).reverse s)
      (fun _ s' => Disk.Inside o s s' ∧ s'.tree.Way o (o ++ rest) ∧
        (s' = s ∨ Fresh s' (o ++ rest)))
      (Disk.Inside o s) := by
  induction rest using List.reverseRecOn generalizing s with
  | nil =>
    rw [List.append_nil] at hway ⊢
    rw [mkdirParents_of_isDir ho]
    exact ⟨.refl s, hway, .inl rfl⟩
  | append_singleton rest n ih =>
    rw [← List.append_assoc] at hway ⊢
    have hup : o <+: o ++ rest := List.prefix_append _ _
    have hwayUp : s.tree.Way o (o ++ rest) := hway.upTo (List.prefix_append _ _)
    rw [mkdirParents_concat]
    split
    · rename_i s₁ hmk
      obtain ⟨hinside, hway₁, hfresh⟩ := mkdir_way hwayUp hup hmk
      exact ⟨hinside, hway₁, .inr hfresh⟩
    · rename_i hmk
      refine (ih ho hwayUp).bind fun _ s₁ _ ⟨hinside, hway₁, hstate⟩ => ?_
      rw [mkdirOnly]
      split
      · rename_i s₂ hmk₁
        obtain ⟨hinside₁, hway₂, hfresh⟩ := mkdir_way hway₁ hup hmk₁
        exact ⟨hinside.trans hinside₁, hway₂, .inr hfresh⟩
      · exact hinside
      · -- the parents are there now: they are new, or were missing for the second time
        rename_i e hne hmk₁
        have hnot : isDirectory s₁ (o ++ rest ++ [n]) ≠ true := by
          rcases hstate with rfl | hfresh
          · rw [hmk] at hmk₁
            exact absurd (Except.error.inj hmk₁).symm hne
          · exact hfresh.not_isDirectory
        rw [existOk, if_neg hnot]
        exact hinside
    · rw [existOk]
      split_ifs
      · exact ⟨.refl s, hway, .inl rfl⟩
      · exact .refl s

end

end HostDisk

end Pro5Android.Python
