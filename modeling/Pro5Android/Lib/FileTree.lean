import Mathlib.Data.List.Infix
import Mathlib.Logic.Function.Basic
import Mathlib.Tactic.SplitIfs

/-!
# Trees of files with symbolic links

A tree gives the node at every location, that is at every list of names from the
root; above a node there are directories only. A path is a list of components that
is walked from a location; a symbolic link on the way continues with its target, also
as the last component, and a last component that is missing leads to the place where
it would be.

Results:
* `walks_of_locate`: `locate`, which gives up after a number of links, follows the
  relation `Walks`, which does not.
* `Walks.det`, `Walks.split`, `Walks.append`: a walk is a function of the path, and is
  made up of the walks of its parts.
* `dirsFrom_of_eqOff`: what a change at one location does to the directories that
  paths lead to.
* `Disk.Inside`, `Disk.Quiet`: all changes lie below a location, and no directory or
  link is new.
-/

namespace Pro5Android.Lib

/-- A component of a path: `.`, `..` or a name. -/
inductive Comp (ν : Type*)
  | self
  | parent
  | name (n : ν)

/-- A node; the target of a link is walked from the root or from the link's directory. -/
inductive Node (ν κ : Type*)
  | dir
  | file (data : κ)
  | link (absolute : Bool) (target : List (Comp ν))

/-- The nodes by location. -/
structure FileTree (ν κ : Type*) where
  node : List ν → Option (Node ν κ)
  root_dir : node [] = some .dir
  parent_dir : ∀ l n, node (l ++ [n]) ≠ none → node l = some .dir

/-- The path of names only. -/
def names {ν : Type*} (l : List ν) : List (Comp ν) := l.map .name

/-- Why a path leads nowhere. -/
inductive LookupError
  | noEntry
  | notDir
  | loop
deriving DecidableEq, Repr

namespace FileTree

variable {ν κ : Type*} {t t' : FileTree ν κ} {l m : List ν} {n : ν} {cs ds : List (Comp ν)}

/-- There is a directory at `l`. -/
def IsDir (t : FileTree ν κ) (l : List ν) : Prop := t.node l = some .dir

/-- There is a symbolic link at `l`. -/
def IsLink (t : FileTree ν κ) (l : List ν) : Prop :=
  ∃ absolute target, t.node l = some (.link absolute target)

instance (t : FileTree ν κ) (l : List ν) : Decidable (t.IsDir l) :=
  match h : t.node l with
  | some .dir => .isTrue h
  | none => .isFalse fun hd => by rw [IsDir, h] at hd; cases hd
  | some (.file _) => .isFalse fun hd => by rw [IsDir, h] at hd; cases hd
  | some (.link _ _) => .isFalse fun hd => by rw [IsDir, h] at hd; cases hd

instance (t : FileTree ν κ) (l : List ν) : Decidable (t.IsLink l) :=
  match h : t.node l with
  | some (.link absolute target) => .isTrue ⟨absolute, target, h⟩
  | none => .isFalse fun ⟨_, _, hl⟩ => by rw [h] at hl; cases hl
  | some .dir => .isFalse fun ⟨_, _, hl⟩ => by rw [h] at hl; cases hl
  | some (.file _) => .isFalse fun ⟨_, _, hl⟩ => by rw [h] at hl; cases hl

/-! ## Walking a path -/

/-- Walks to the end of the path or to the first link, where `jump` takes over. -/
def walk (t : FileTree ν κ) (jump : List ν → List (Comp ν) → Except LookupError (List ν)) :
    List ν → List (Comp ν) → Except LookupError (List ν)
  | l, [] => .ok l
  | l, c :: cs =>
    if t.IsDir l then
      match c with
      | .self => walk t jump l cs
      | .parent => walk t jump l.dropLast cs
      | .name n =>
        match t.node (l ++ [n]) with
        | none => if cs.isEmpty then .ok (l ++ [n]) else .error .noEntry
        | some (.link absolute target) => jump (if absolute then [] else l) (target ++ cs)
        | some _ => walk t jump (l ++ [n]) cs
    else .error .notDir

/-- The location that a path leads to through at most as many links. -/
def locate (t : FileTree ν κ) : ℕ → List ν → List (Comp ν) → Except LookupError (List ν)
  | 0 => t.walk fun _ _ => .error .loop
  | links + 1 => t.walk (locate t links)

/-- The path `cs` leads from `l` to `m`. -/
inductive Walks (t : FileTree ν κ) : List ν → List (Comp ν) → List ν → Prop
  | done (l : List ν) : Walks t l [] l
  | self {l : List ν} {cs m} : t.IsDir l → Walks t l cs m → Walks t l (.self :: cs) m
  | parent {l : List ν} {cs m} : t.IsDir l → Walks t l.dropLast cs m → Walks t l (.parent :: cs) m
  | missing {l : List ν} {n : ν} : t.IsDir l → t.node (l ++ [n]) = none →
      Walks t l [.name n] (l ++ [n])
  | enter {l : List ν} {n : ν} {cs m} : t.IsDir l → t.node (l ++ [n]) ≠ none →
      ¬ t.IsLink (l ++ [n]) → Walks t (l ++ [n]) cs m → Walks t l (.name n :: cs) m
  | jump {l : List ν} {n : ν} {cs m} {absolute : Bool} {target : List (Comp ν)} : t.IsDir l →
      t.node (l ++ [n]) = some (.link absolute target) →
      Walks t (if absolute then [] else l) (target ++ cs) m → Walks t l (.name n :: cs) m

theorem walks_of_walk {jump : List ν → List (Comp ν) → Except LookupError (List ν)}
    (hjump : ∀ l cs m, jump l cs = .ok m → t.Walks l cs m) :
    ∀ {cs l m}, t.walk jump l cs = .ok m → t.Walks l cs m := by
  intro cs
  induction cs with
  | nil =>
    intro l m h
    obtain rfl := Except.ok.inj h
    exact .done l
  | cons c cs ih =>
    intro l m h
    unfold walk at h
    by_cases hdir : t.IsDir l
    · rw [if_pos hdir] at h
      cases c with
      | self => exact .self hdir (ih h)
      | parent => exact .parent hdir (ih h)
      | name n =>
        dsimp only at h
        split at h
        · rename_i hnone
          split_ifs at h with hcs
          obtain rfl := Except.ok.inj h
          obtain rfl := List.isEmpty_iff.mp hcs
          exact .missing hdir hnone
        · rename_i hlink
          exact .jump hdir hlink (hjump _ _ _ h)
        · rename_i v hlink hsome
          refine .enter hdir (by rw [hsome]; simp) ?_ (ih h)
          rintro ⟨absolute, target, heq⟩
          rw [hsome] at heq
          exact hlink absolute target (Option.some.inj heq)
    · rw [if_neg hdir] at h
      cases h

theorem walks_of_locate : ∀ {links l cs m}, t.locate links l cs = .ok m → t.Walks l cs m := by
  intro links
  induction links with
  | zero => exact walks_of_walk fun _ _ _ h => by cases h
  | succ links ih => exact walks_of_walk fun _ _ _ h => ih h

/-- A path leads to one place. -/
theorem Walks.det (h : t.Walks l cs m) : ∀ {m'}, t.Walks l cs m' → m' = m := by
  induction h with
  | done => intro m' h'; cases h'; rfl
  | self _ _ ih => intro m' h'; cases h' with | self _ h' => exact ih h'
  | parent _ _ ih => intro m' h'; cases h' with | parent _ h' => exact ih h'
  | missing _ hnone =>
    intro m' h'
    cases h' with
    | missing => rfl
    | enter _ hsome => exact absurd hnone hsome
    | jump _ hlink => rw [hnone] at hlink; cases hlink
  | enter _ hsome hlink _ ih =>
    intro m' h'
    cases h' with
    | missing _ hnone => exact absurd hnone hsome
    | enter _ _ _ h' => exact ih h'
    | jump _ hlink' => exact absurd ⟨_, _, hlink'⟩ hlink
  | jump _ hlink _ ih =>
    intro m' h'
    cases h' with
    | missing _ hnone => rw [hlink] at hnone; cases hnone
    | enter _ _ hnot => exact absurd ⟨_, _, hlink⟩ hnot
    | jump _ hlink' h' =>
      rw [hlink] at hlink'
      obtain ⟨rfl, rfl⟩ := Node.link.inj (Option.some.inj hlink')
      exact ih h'

/-- A walk stands in a directory between two parts of its path. -/
theorem Walks.split {es : List (Comp ν)} (h : t.Walks l es m) : ∀ {cs ds}, es = cs ++ ds →
    ds ≠ [] → ∃ k, t.Walks l cs k ∧ t.IsDir k ∧ t.Walks k ds m := by
  induction h with
  | done l => intro cs ds heq hds; exact absurd (List.append_eq_nil_iff.mp heq.symm).2 hds
  | @self l es m hdir hw ih =>
    intro cs ds heq hds
    rcases List.cons_eq_append_iff.mp heq with ⟨rfl, rfl⟩ | ⟨cs, rfl, rfl⟩
    · exact ⟨l, .done l, hdir, .self hdir hw⟩
    · obtain ⟨k, hk, hdk, hkm⟩ := ih rfl hds
      exact ⟨k, .self hdir hk, hdk, hkm⟩
  | @parent l es m hdir hw ih =>
    intro cs ds heq hds
    rcases List.cons_eq_append_iff.mp heq with ⟨rfl, rfl⟩ | ⟨cs, rfl, rfl⟩
    · exact ⟨l, .done l, hdir, .parent hdir hw⟩
    · obtain ⟨k, hk, hdk, hkm⟩ := ih rfl hds
      exact ⟨k, .parent hdir hk, hdk, hkm⟩
  | @missing l n hdir hnone =>
    intro cs ds heq hds
    rcases List.cons_eq_append_iff.mp heq with ⟨rfl, rfl⟩ | ⟨cs, rfl, hnil⟩
    · exact ⟨l, .done l, hdir, .missing hdir hnone⟩
    · exact absurd (List.append_eq_nil_iff.mp hnil.symm).2 hds
  | @enter l n es m hdir hsome hlink hw ih =>
    intro cs ds heq hds
    rcases List.cons_eq_append_iff.mp heq with ⟨rfl, rfl⟩ | ⟨cs, rfl, rfl⟩
    · exact ⟨l, .done l, hdir, .enter hdir hsome hlink hw⟩
    · obtain ⟨k, hk, hdk, hkm⟩ := ih rfl hds
      exact ⟨k, .enter hdir hsome hlink hk, hdk, hkm⟩
  | @jump l n es m absolute target hdir hlink hw ih =>
    intro cs ds heq hds
    rcases List.cons_eq_append_iff.mp heq with ⟨rfl, rfl⟩ | ⟨cs, rfl, rfl⟩
    · exact ⟨l, .done l, hdir, .jump hdir hlink hw⟩
    · obtain ⟨k, hk, hdk, hkm⟩ := ih (List.append_assoc ..).symm hds
      exact ⟨k, .jump hdir hlink hk, hdk, hkm⟩

theorem Walks.append {k : List ν} (h : t.Walks l cs k) (hk : t.IsDir k) (hd : t.Walks k ds m) :
    t.Walks l (cs ++ ds) m := by
  induction h with
  | done l => exact hd
  | self hdir _ ih => exact .self hdir (ih hk hd)
  | parent hdir _ ih => exact .parent hdir (ih hk hd)
  | missing _ hnone => rw [IsDir, hnone] at hk; cases hk
  | enter hdir hsome hlink _ ih => exact .enter hdir hsome hlink (ih hk hd)
  | jump hdir hlink _ ih =>
    have hrest := ih hk hd
    rw [List.append_assoc] at hrest
    exact .jump hdir hlink hrest

theorem names_append (l r : List ν) : names (l ++ r) = names l ++ names r := List.map_append

theorem isDir_of_append {r : List ν} (h : t.IsDir (l ++ r)) : t.IsDir l := by
  induction r using List.reverseRecOn with
  | nil => rwa [List.append_nil] at h
  | append_singleton r n ih =>
    refine ih (t.parent_dir (l ++ r) n ?_)
    rw [List.append_assoc, show t.node _ = _ from h]
    simp

/-- The way down such directories needs no link. -/
theorem walk_names {jump : List ν → List (Comp ν) → Except LookupError (List ν)} :
    ∀ {r l : List ν}, t.IsDir (l ++ r) → t.walk jump l (names r) = .ok (l ++ r) := by
  intro r
  induction r with
  | nil =>
    intro l _
    rw [List.append_nil]
    rfl
  | cons n r ih =>
    intro l h
    rw [List.append_cons] at h ⊢
    have hn : t.node (l ++ [n]) = some .dir := isDir_of_append h
    show t.walk jump l (.name n :: names r) = _
    unfold walk
    rw [if_pos (isDir_of_append hn)]
    dsimp only
    rw [hn]
    exact ih h

theorem locate_names (h : t.IsDir l) (links : ℕ) : t.locate links [] (names l) = .ok l := by
  cases links with
  | zero => exact @walk_names _ _ t _ l [] h
  | succ links => exact @walk_names _ _ t _ l [] h

/-- The last name of a path, where there is no link. -/
theorem Walks.snoc {k : List ν} (h : t.Walks l cs k) (hk : t.IsDir k) (hlink : ¬ t.IsLink (k ++ [n])) :
    t.Walks l (cs ++ [.name n]) (k ++ [n]) := by
  refine h.append hk ?_
  by_cases hnone : t.node (k ++ [n]) = none
  · exact .missing hk hnone
  · exact .enter hk hnone hlink (.done _)

/-! ## Changes -/

/-- Paths that lead to a directory in `t'` lead to the same one in `t`. -/
def DirsFrom (t' t : FileTree ν κ) : Prop :=
  ∀ l cs m, t'.Walks l cs m → t'.IsDir m → t.Walks l cs m ∧ t.IsDir m

theorem DirsFrom.refl (t : FileTree ν κ) : DirsFrom t t := fun _ _ _ h hm => ⟨h, hm⟩

theorem DirsFrom.trans {t'' : FileTree ν κ} (h' : DirsFrom t'' t') (h : DirsFrom t' t) :
    DirsFrom t'' t := fun l cs m hw hm =>
  have hmid := h' l cs m hw hm
  h l cs m hmid.1 hmid.2

/-- A location at which there is neither a directory nor a link does not matter. -/
theorem dirsFrom_of_eqOff {l₀ : List ν} (hoff : ∀ l, l ≠ l₀ → t'.node l = t.node l)
    (hdir₀ : ¬ t'.IsDir l₀) (hlink₀ : ¬ t'.IsLink l₀) : DirsFrom t' t := by
  have hisdir {l : List ν} (h : t'.IsDir l) : t.IsDir l := by
    have hne : l ≠ l₀ := by
      rintro rfl
      exact hdir₀ h
    rwa [IsDir, ← hoff l hne]
  intro l cs m hw
  induction hw with
  | done l => exact fun hm => ⟨.done l, hisdir hm⟩
  | self hdir _ ih => exact fun hm => ⟨.self (hisdir hdir) (ih hm).1, hisdir hm⟩
  | parent hdir _ ih => exact fun hm => ⟨.parent (hisdir hdir) (ih hm).1, hisdir hm⟩
  | missing _ hnone =>
    intro hm
    rw [IsDir, hnone] at hm
    cases hm
  | @enter l n cs m hdir hsome hlink hw ih =>
    intro hm
    have hne : l ++ [n] ≠ l₀ := by
      rintro rfl
      -- only the empty path leads on from what is not a directory
      cases hw with
      | done => exact hdir₀ hm
      | self h | parent h | missing h | enter h | jump h => exact hdir₀ h
    rw [hoff _ hne] at hsome
    have hlink' : ¬ t.IsLink (l ++ [n]) := by
      rwa [IsLink, ← hoff _ hne]
    exact ⟨.enter (hisdir hdir) hsome hlink' (ih hm).1, hisdir hm⟩
  | @jump l n cs m absolute target hdir hlink _ ih =>
    intro hm
    have hne : l ++ [n] ≠ l₀ := by
      rintro rfl
      exact hlink₀ ⟨_, _, hlink⟩
    rw [hoff _ hne] at hlink
    exact ⟨.jump (hisdir hdir) hlink (ih hm).1, hisdir hm⟩

theorem ne_nil_of_not_isDir (h : ¬ t.IsDir l) : l ≠ [] := by
  rintro rfl
  exact h t.root_dir

/-- `path` leads to no directory outside `o`. -/
def LeadsIn (o : List ν) (t : FileTree ν κ) (path : List ν) : Prop :=
  ∀ m, t.Walks [] (names path) m → t.IsDir m → o <+: m

/-- No directory on the way from `o` down `path` is outside `o`. -/
def Way (o : List ν) (t : FileTree ν κ) (path : List ν) : Prop :=
  ∀ q, o <+: q → q <+: path → LeadsIn o t q

theorem LeadsIn.of_dirsFrom {o path : List ν} (h : LeadsIn o t path) (hd : DirsFrom t' t) :
    LeadsIn o t' path := fun m hw hm =>
  h m (hd _ _ _ hw hm).1 (hd _ _ _ hw hm).2

theorem Way.upTo {o p path : List ν} (h : Way o t path) (hp : p <+: path) : Way o t p :=
  fun q hoq hqp => h q hoq (hqp.trans hp)

/-- A path of names without a link on it leads where it says. -/
theorem walks_unlinked : ∀ {r l m : List ν}, (∀ q, q <+: r → ¬ t.IsLink (l ++ q)) →
    t.Walks l (names r) m → m = l ++ r := by
  intro r
  induction r with
  | nil =>
    intro l m _ hw
    cases hw with
    | done => exact (List.append_nil l).symm
  | cons n r ih =>
    intro l m h hw
    rw [List.append_cons]
    change t.Walks l (.name n :: names r) m at hw
    generalize hr : names r = cs at hw
    cases hw with
    | missing =>
      obtain rfl : r = [] := List.map_eq_nil_iff.mp hr
      exact (List.append_nil _).symm
    | enter _ _ _ hw =>
      refine ih (fun q hq => ?_) (hr ▸ hw)
      rw [← List.append_cons]
      exact h (n :: q) (List.cons_prefix_cons.mpr ⟨rfl, hq⟩)
    | jump _ hlink =>
      exact absurd ⟨_, _, hlink⟩ (h [n] (List.cons_prefix_cons.mpr ⟨rfl, List.nil_prefix⟩))

/-- There is no link on the path. -/
def Unlinked (t : FileTree ν κ) (path : List ν) : Prop := ∀ q ∈ path.inits, ¬ t.IsLink q

instance (t : FileTree ν κ) (path : List ν) : Decidable (t.Unlinked path) :=
  inferInstanceAs (Decidable (∀ q ∈ path.inits, ¬ t.IsLink q))

theorem Unlinked.walks {path : List ν} (h : Unlinked t path) (hw : t.Walks [] (names path) m) :
    m = path :=
  walks_unlinked (fun q hq => h q ((List.mem_inits q path).mpr hq)) hw

theorem Unlinked.way {o path : List ν} (h : Unlinked t path) : Way o t path := by
  intro q hoq hq m hm _
  have hup : Unlinked t q := fun p hp =>
    h p ((List.mem_inits p path).mpr (((List.mem_inits p q).mp hp).trans hq))
  rwa [hup.walks hm]

/-- There is no link at all. -/
def LinkFree (t : FileTree ν κ) : Prop := ∀ l, ¬ t.IsLink l

theorem LinkFree.unlinked (h : LinkFree t) (path : List ν) : Unlinked t path := fun q _ => h q

theorem LinkFree.way {o path : List ν} (h : LinkFree t) : Way o t path := (h.unlinked path).way

/-- A path to a directory passes through directories. -/
theorem Walks.through {p path : List ν} (h : t.Walks [] (names path) m) (hm : t.IsDir m)
    (hp : p <+: path) : ∃ k, t.Walks [] (names p) k ∧ t.IsDir k := by
  obtain ⟨r, rfl⟩ := hp
  cases r with
  | nil =>
    rw [List.append_nil] at h
    exact ⟨m, h, hm⟩
  | cons n r =>
    obtain ⟨k, hk, hdk, -⟩ := h.split (names_append ..) (List.cons_ne_nil _ _)
    exact ⟨k, hk, hdk⟩

/-- Where the last directory of the way is a new one, the way is as it was before. -/
theorem Way.extend {o path : List ν} {d : List ν} (h : Way o t path) (ho : o <+: path)
    (hd : DirsFrom t t') (hw : t.Walks [] (names path) d) (hdir : t.IsDir d)
    (hnew : t'.IsDir (d ++ [n])) : Way o t' (path ++ [n]) := by
  have hod : o <+: d := h path ho List.prefix_rfl d hw hdir
  obtain ⟨hw', hdir'⟩ := hd _ _ _ hw hdir
  intro q hoq hq m hm hmdir
  rcases List.prefix_concat_iff.mp hq with rfl | hq
  · have hlink : ¬ t'.IsLink (d ++ [n]) := by
      rintro ⟨absolute, target, heq⟩
      rw [show t'.node _ = _ from hnew] at heq
      cases heq
    have hend := hw'.snoc hdir' hlink
    rw [names_append] at hm
    rw [hend.det hm]
    exact hod.trans (List.prefix_append _ _)
  · obtain ⟨k, hk, hkdir⟩ := hw.through hdir hq
    rw [(hd _ _ _ hk hkdir).1.det hm]
    exact h q hoq hq k hk hkdir

variable [DecidableEq ν]

/-- The tree with `v` at `l`, in place of what is no directory. -/
def put (t : FileTree ν κ) (l : List ν) (v : Node ν κ) (hp : t.IsDir l.dropLast)
    (hl : ¬ t.IsDir l) : FileTree ν κ where
  node := Function.update t.node l (some v)
  root_dir := by rw [Function.update_of_ne (ne_nil_of_not_isDir hl).symm, t.root_dir]
  parent_dir m n h := by
    by_cases hm : m = l
    · subst hm
      rw [Function.update_of_ne (by simp)] at h
      exact absurd (t.parent_dir m n h) hl
    · rw [Function.update_of_ne hm]
      by_cases hmn : m ++ [n] = l
      · rw [← hmn, List.dropLast_concat] at hp
        exact hp
      · rw [Function.update_of_ne hmn] at h
        exact t.parent_dir m n h

@[simp] theorem put_node (t : FileTree ν κ) (l : List ν) (v : Node ν κ) (hp : t.IsDir l.dropLast)
    (hl : ¬ t.IsDir l) : (t.put l v hp hl).node = Function.update t.node l (some v) := rfl

/-- The tree without what is at `l` and no directory. -/
def erase (t : FileTree ν κ) (l : List ν) (hl : ¬ t.IsDir l) : FileTree ν κ where
  node := Function.update t.node l none
  root_dir := by rw [Function.update_of_ne (ne_nil_of_not_isDir hl).symm, t.root_dir]
  parent_dir m n h := by
    by_cases hmn : m ++ [n] = l
    · subst hmn
      rw [Function.update_self] at h
      exact absurd rfl h
    · rw [Function.update_of_ne hmn] at h
      have hm : m ≠ l := by
        rintro rfl
        exact hl (t.parent_dir m n h)
      rw [Function.update_of_ne hm]
      exact t.parent_dir m n h

end FileTree

/-- Why an operation fails. -/
inductive FileError
  | lookup (e : LookupError)
  | alreadyExists
  | isDir
deriving DecidableEq, Repr

/-- A tree with the locations at which something was created, changed or removed, the
    last one first. -/
structure Disk (ν κ : Type*) where
  tree : FileTree ν κ
  changed : List (List ν)

namespace Disk

variable {ν κ : Type*} {s s' s'' : Disk ν κ} {l : List ν} {ls ls' : List (List ν)}

section

variable [DecidableEq ν]

/-- Puts `v` at `l`, in place of what is no directory. -/
def place (s : Disk ν κ) (l : List ν) (v : Node ν κ) : Except FileError (Disk ν κ) :=
  if h : s.tree.IsDir l.dropLast ∧ ¬ s.tree.IsDir l then
    .ok ⟨s.tree.put l v h.1 h.2, l :: s.changed⟩
  else .error .isDir

/-- Removes what is at `l` and no directory. -/
def remove (s : Disk ν κ) (l : List ν) : Except FileError (Disk ν κ) :=
  if h : s.tree.IsDir l then .error .isDir else .ok ⟨s.tree.erase l h, l :: s.changed⟩

theorem place_eq_ok {v : Node ν κ} (h : s.place l v = .ok s') :
    s.tree.IsDir l.dropLast ∧ ¬ s.tree.IsDir l ∧
      s'.tree.node = Function.update s.tree.node l (some v) ∧ s'.changed = l :: s.changed := by
  rw [place] at h
  split_ifs at h with hl
  obtain rfl := Except.ok.inj h
  exact ⟨hl.1, hl.2, rfl, rfl⟩

theorem remove_eq_ok (h : s.remove l = .ok s') :
    ¬ s.tree.IsDir l ∧ s'.tree.node = Function.update s.tree.node l none ∧
      s'.changed = l :: s.changed := by
  rw [remove] at h
  split_ifs at h with hl
  obtain rfl := Except.ok.inj h
  exact ⟨hl, rfl, rfl⟩

end

/-- Nothing but `ls` is touched, and no directory goes. -/
structure Touches (ls : List (List ν)) (s s' : Disk ν κ) : Prop where
  changed : s'.changed = ls ++ s.changed
  dirs : ∀ l, s.tree.IsDir l → s'.tree.IsDir l
  same : ∀ l, l ∉ ls → s'.tree.node l = s.tree.node l

theorem touches_of_update [DecidableEq ν] {v : Option (Node ν κ)} (hl : ¬ s.tree.IsDir l)
    (hnode : s'.tree.node = Function.update s.tree.node l v)
    (hchanged : s'.changed = l :: s.changed) : Touches [l] s s' where
  changed := hchanged
  dirs m hm := by
    have hne : m ≠ l := by
      rintro rfl
      exact hl hm
    rw [FileTree.IsDir, hnode, Function.update_of_ne hne]
    exact hm
  same m hm := by
    rw [hnode, Function.update_of_ne (List.ne_of_not_mem_cons hm)]

theorem Touches.trans (h : Touches ls s s') (h' : Touches ls' s' s'') :
    Touches (ls' ++ ls) s s'' where
  changed := by rw [h'.changed, h.changed, List.append_assoc]
  dirs l hl := h'.dirs l (h.dirs l hl)
  same l hl := by
    rw [List.mem_append, not_or] at hl
    rw [h'.same l hl.1, h.same l hl.2]

/-- Everything that is touched lies in or below `o`. -/
def Inside (o : List ν) (s s' : Disk ν κ) : Prop := ∃ ls, (∀ l ∈ ls, o <+: l) ∧ Touches ls s s'

variable {o : List ν}

theorem Inside.refl (s : Disk ν κ) : Inside o s s :=
  ⟨[], fun _ h => absurd h List.not_mem_nil, rfl, fun _ h => h, fun _ _ => rfl⟩

theorem Inside.trans (h : Inside o s s') (h' : Inside o s' s'') : Inside o s s'' := by
  obtain ⟨ls, hls, h⟩ := h
  obtain ⟨ls', hls', h'⟩ := h'
  refine ⟨ls' ++ ls, fun l hl => ?_, h.trans h'⟩
  exact (List.mem_append.mp hl).elim (hls' l) (hls l)

theorem Inside.dirs (h : Inside o s s') (hl : s.tree.IsDir l) : s'.tree.IsDir l := by
  obtain ⟨_, -, h⟩ := h
  exact h.dirs l hl

/-- Besides, no directory or link is new: paths find the same directories, or none. -/
structure Quiet (o : List ν) (s s' : Disk ν κ) : Prop where
  inside : Inside o s s'
  dirs : s'.tree.DirsFrom s.tree
  links : ∀ l, s'.tree.IsLink l → s.tree.IsLink l

theorem Quiet.refl (s : Disk ν κ) : Quiet o s s := ⟨.refl s, .refl _, fun _ h => h⟩

theorem Quiet.trans (h : Quiet o s s') (h' : Quiet o s' s'') : Quiet o s s'' :=
  ⟨h.inside.trans h'.inside, h'.dirs.trans h.dirs, fun l hl => h.links l (h'.links l hl)⟩

section

variable [DecidableEq ν]

/-- What is neither a directory nor a link leads nowhere. -/
theorem quiet_of_update {v : Option (Node ν κ)} (hinside : Inside o s s')
    (hnode : s'.tree.node = Function.update s.tree.node l v) (hdir : v ≠ some .dir)
    (hlink : ∀ absolute target, v ≠ some (.link absolute target)) : Quiet o s s' := by
  have hv : s'.tree.node l = v := by rw [hnode, Function.update_self]
  have hdir' : ¬ s'.tree.IsDir l := fun h => hdir (hv.symm.trans h)
  have hlink' : ¬ s'.tree.IsLink l := by
    rintro ⟨absolute, target, h⟩
    exact hlink absolute target (hv.symm.trans h)
  have hoff : ∀ m, m ≠ l → s'.tree.node m = s.tree.node m := fun m hm => by
    rw [hnode, Function.update_of_ne hm]
  refine ⟨hinside, FileTree.dirsFrom_of_eqOff hoff hdir' hlink', fun m hm => ?_⟩
  have hne : m ≠ l := by
    rintro rfl
    exact hlink' hm
  rwa [FileTree.IsLink, ← hoff m hne]

theorem place_inside {v : Node ν κ} (hl : o <+: l) (h : s.place l v = .ok s') : Inside o s s' := by
  obtain ⟨-, hdir, hnode, hchanged⟩ := place_eq_ok h
  exact ⟨[l], by simpa using hl, touches_of_update hdir hnode hchanged⟩

theorem remove_inside (hl : o <+: l) (h : s.remove l = .ok s') : Inside o s s' := by
  obtain ⟨hdir, hnode, hchanged⟩ := remove_eq_ok h
  exact ⟨[l], by simpa using hl, touches_of_update hdir hnode hchanged⟩

/-- A file in place of what is no directory leaves every directory where paths find it. -/
theorem place_file_quiet {data : κ} (hl : o <+: l) (h : s.place l (.file data) = .ok s') :
    Quiet o s s' := by
  have hinside := place_inside hl h
  obtain ⟨-, -, hnode, -⟩ := place_eq_ok h
  exact quiet_of_update hinside hnode (by simp) (by simp)

theorem remove_quiet (hl : o <+: l) (h : s.remove l = .ok s') : Quiet o s s' := by
  have hinside := remove_inside hl h
  obtain ⟨-, hnode, -⟩ := remove_eq_ok h
  exact quiet_of_update hinside hnode (by simp) (by simp)

/-- What is put where nothing was leaves every directory where paths find it. -/
theorem place_missing_dirsFrom {v : Node ν κ} (hnone : s.tree.node l = none)
    (h : s.place l v = .ok s') : s.tree.DirsFrom s'.tree := by
  obtain ⟨-, -, hnode, -⟩ := place_eq_ok h
  refine FileTree.dirsFrom_of_eqOff
    (fun m hm => by rw [hnode, Function.update_of_ne hm]) ?_ ?_
  · rw [FileTree.IsDir, hnone]
    simp
  · rw [FileTree.IsLink, hnone]
    simp

end

end Disk

end Pro5Android.Lib
