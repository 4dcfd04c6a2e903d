import Mathlib.Data.List.Chain
import Mathlib.Data.List.Nodup
import Mathlib.Data.List.TakeDrop
import Mathlib.Tactic.SplitIfs

/-!
# Circular lists in memory

Doubly linked lists whose links are in the elements themselves, closed to a circle by
a sentinel. Memory gives the links of every address; a null pointer is `none`, and so is
the result of an access through it.

Results:
* `Circle.addToList`: an element is inserted before any member or the sentinel.
* `Circle.removeFromList`: a member is taken out.
* `Circle.frame`: a list stays when only the links of other elements change.
* `Circle.next_sentinel`, `Circle.next_member`: where a walk along `next` goes.
-/

namespace Pro5Android.Lib

structure Link (α : Type*) where
  next : Option α
  prev : Option α

/-- The links of every address. -/
abbrev Links (α : Type*) := α → Link α

namespace Links

variable {α : Type*} [DecidableEq α] (l : Links α)

def setNext (a : α) (v : Option α) : Links α :=
  fun b => if b = a then { l b with next := v } else l b

def setPrev (a : α) (v : Option α) : Links α :=
  fun b => if b = a then { l b with prev := v } else l b

@[simp] theorem setNext_next (a b : α) (v : Option α) :
    (l.setNext a v b).next = if b = a then v else (l b).next := by
  rw [setNext]
  split_ifs <;> rfl

@[simp] theorem setNext_prev (a b : α) (v : Option α) : (l.setNext a v b).prev = (l b).prev := by
  rw [setNext]
  split_ifs <;> rfl

@[simp] theorem setPrev_prev (a b : α) (v : Option α) :
    (l.setPrev a v b).prev = if b = a then v else (l b).prev := by
  rw [setPrev]
  split_ifs <;> rfl

@[simp] theorem setPrev_next (a b : α) (v : Option α) : (l.setPrev a v b).next = (l b).next := by
  rw [setPrev]
  split_ifs <;> rfl

theorem setNext_of_ne {a b : α} (v : Option α) (h : b ≠ a) : l.setNext a v b = l b := if_neg h

theorem setPrev_of_ne {a b : α} (v : Option α) (h : b ≠ a) : l.setPrev a v b = l b := if_neg h

/-- The list of its own. -/
def initList (list : α) : Links α := (l.setNext list (some list)).setPrev list (some list)

/-- Insert `ev` before `list`. -/
def addToList (ev list : α) : Option (Links α) :=
  let l := l.setNext ev (some list)
  let l := l.setPrev ev (l list).prev
  (l ev).prev.map fun p => (l.setNext p (some ev)).setPrev list (some ev)

/-- Take `ev` out. -/
def removeFromList (ev : α) : Option (Links α) :=
  (l ev).next.bind fun n =>
    let l := l.setPrev n (l ev).prev
    (l ev).prev.map fun p =>
      ((l.setNext p (l ev).next).setNext ev none).setPrev ev none

end Links

/-! ## Circles -/

variable {α : Type*}

/-- Neighbours point to each other. -/
def Neighbours (l : Links α) (a b : α) : Prop := (l a).next = some b ∧ (l b).prev = some a

/-- The members `xs` behind the sentinel `s`, and back to it. -/
structure Circle (l : Links α) (s : α) (xs : List α) : Prop where
  nodup : (s :: xs).Nodup
  chain : List.IsChain (Neighbours l) (s :: xs ++ [s])

namespace Circle

variable {l l' : Links α} {s : α} {xs ys : List α}

/-- A chain depends on the `next` of all but its last element and the `prev` of all but its
    first one. -/
theorem chain_congr {zs : List α} (h : List.IsChain (Neighbours l) zs)
    (hnext : ∀ a ∈ zs.dropLast, (l' a).next = (l a).next)
    (hprev : ∀ a ∈ zs.tail, (l' a).prev = (l a).prev) : List.IsChain (Neighbours l') zs := by
  induction zs with
  | nil => exact .nil
  | cons a zs ih =>
    cases zs with
    | nil => exact .singleton a
    | cons b zs =>
      obtain ⟨hab, hrest⟩ := List.isChain_cons_cons.mp h
      refine List.isChain_cons_cons.mpr ⟨⟨?_, ?_⟩, ih hrest (fun x hx => hnext x ?_) fun x hx =>
        hprev x (List.mem_of_mem_tail hx)⟩
      · rw [hnext a (by simp [List.dropLast]), hab.1]
      · rw [hprev b (by simp), hab.2]
      · rw [List.dropLast_cons_of_ne_nil (by simp)]
        exact List.mem_cons_of_mem _ hx

theorem frame (h : Circle l s xs) (hsame : ∀ a ∈ s :: xs, l' a = l a) : Circle l' s xs := by
  have hmem : ∀ a ∈ s :: xs ++ [s], l' a = l a := by
    intro a ha
    have : a = s ∨ a ∈ xs ∨ a = s := by simpa using ha
    exact hsame a (by rw [List.mem_cons]; tauto)
  refine ⟨h.nodup, chain_congr h.chain (fun a ha => ?_) fun a ha => ?_⟩
  · rw [hmem a (List.dropLast_subset _ ha)]
  · rw [hmem a (List.mem_of_mem_tail ha)]

/-- A place in the circle: `p` before it and `x` behind it. -/
structure Place (s : α) (xs ys : List α) (p x : α) (A B : List α) : Prop where
  before : s :: xs = A ++ [p]
  behind : ys ++ [s] = x :: B

theorem Place.append {p x : α} {A B : List α} (h : Place s xs ys p x A B) (zs : List α) :
    s :: (xs ++ zs ++ ys) ++ [s] = A ++ p :: (zs ++ x :: B) := by
  rw [← h.behind, List.append_assoc, ← List.cons_append, ← List.cons_append, h.before]
  simp

theorem Place.p_mem {p x : α} {A B : List α} (h : Place s xs ys p x A B) : p ∈ s :: xs := by
  simp [h.before]

theorem Place.x_mem {p x : α} {A B : List α} (h : Place s xs ys p x A B) : x = s ∨ x ∈ ys := by
  have hx : x ∈ ys ++ [s] := by simp [h.behind]
  rcases List.mem_append.mp hx with hx | hx
  · exact .inr hx
  · exact .inl (List.mem_singleton.mp hx)

/-- The elements on both sides of a place in the circle. -/
theorem split (h : Circle l s (xs ++ ys)) : ∃ p x A B, Place s xs ys p x A B ∧
    x = ys.head?.getD s ∧ List.IsChain (Neighbours l) (A ++ [p]) ∧ Neighbours l p x ∧
      List.IsChain (Neighbours l) (x :: B) := by
  obtain ⟨A, p, hA⟩ : ∃ A p, s :: xs = A ++ [p] :=
    ⟨_, _, (List.dropLast_append_getLast (List.cons_ne_nil s xs)).symm⟩
  obtain ⟨x, B, hB, hx⟩ : ∃ x B, ys ++ [s] = x :: B ∧ x = ys.head?.getD s := by
    cases ys with
    | nil => exact ⟨s, [], rfl, rfl⟩
    | cons y ys => exact ⟨y, ys ++ [s], rfl, rfl⟩
  have hplace : Place s xs ys p x A B := ⟨hA, hB⟩
  have hchain := h.chain
  have hsplit := hplace.append []
  rw [List.append_nil] at hsplit
  rw [hsplit, List.nil_append, List.isChain_append_cons_cons] at hchain
  exact ⟨p, x, A, B, hplace, hx, hchain⟩

/-- The chains on both sides stay when `next` of `p`, `prev` of `x` and other elements
    change. -/
theorem Place.relink {p x : α} {A B : List α} (h : Place s xs ys p x A B) (l' : Links α)
    (hnodup : (s :: (xs ++ ys)).Nodup) (hbefore : List.IsChain (Neighbours l) (A ++ [p]))
    (hbehind : List.IsChain (Neighbours l) (x :: B))
    (hnext : ∀ a ∈ s :: (xs ++ ys), a ≠ p → (l' a).next = (l a).next)
    (hprev : ∀ a ∈ s :: (xs ++ ys), a ≠ x → (l' a).prev = (l a).prev) :
    List.IsChain (Neighbours l') (A ++ [p]) ∧ List.IsChain (Neighbours l') (x :: B) := by
  obtain ⟨hs, hxsys⟩ := List.nodup_cons.mp hnodup
  obtain ⟨hxs, hys, hdisj⟩ := List.nodup_append.mp hxsys
  have hnodupA : (A ++ [p]).Nodup := by
    rw [← h.before]
    exact List.nodup_cons.mpr ⟨fun hmem => hs (List.mem_append_left _ hmem), hxs⟩
  have hnodupB : (x :: B).Nodup := by
    rw [← h.behind, ← List.nodup_reverse, List.reverse_append]
    exact List.nodup_cons.mpr ⟨fun hmem => hs (List.mem_append_right _ (List.mem_reverse.mp hmem)),
      List.nodup_reverse.mpr hys⟩
  have hp := h.p_mem
  have hx := h.x_mem
  constructor
  · refine chain_congr hbefore (fun a ha => ?_) fun a ha => ?_
    · rw [List.dropLast_concat] at ha
      have hap : a ≠ p := (List.nodup_append.mp hnodupA).2.2 a ha p (List.mem_singleton_self p)
      have hmem : a ∈ s :: xs := by simp [h.before, ha]
      exact hnext a (by grind) hap
    · rw [← h.before, List.tail_cons] at ha
      have hax : a ≠ x := by grind
      exact hprev a (by simp [ha]) hax
  · refine chain_congr hbehind (fun a ha => ?_) fun a ha => ?_
    · rw [← h.behind, List.dropLast_concat] at ha
      have hap : a ≠ p := by grind
      exact hnext a (by simp [ha]) hap
    · rw [List.tail_cons] at ha
      have hax : a ≠ x := fun hax => (List.nodup_cons.mp hnodupB).1 (hax ▸ ha)
      have hmem : a ∈ ys ++ [s] := by simp [h.behind, ha]
      exact hprev a (by grind) hax

/-- The first step of a walk. -/
theorem next_sentinel (h : Circle l s ys) : (l s).next = some (ys.head?.getD s) := by
  have h' : Circle l s ([] ++ ys) := h
  obtain ⟨p, x, A, B, hplace, rfl, -, hpx, -⟩ := h'.split
  have hbefore : [] ++ [s] = A ++ [p] := hplace.before
  obtain ⟨-, hp⟩ := List.append_inj' hbefore rfl
  obtain rfl := (List.cons.inj hp).1
  exact hpx.1

/-- A further step. -/
theorem next_member {ev : α} (h : Circle l s (xs ++ ev :: ys)) :
    (l ev).next = some (ys.head?.getD s) := by
  have h' : Circle l s ((xs ++ [ev]) ++ ys) := by rwa [List.append_assoc]
  obtain ⟨p, x, A, B, hplace, rfl, -, hpx, -⟩ := h'.split
  have hbefore : (s :: xs) ++ [ev] = A ++ [p] := hplace.before
  obtain ⟨-, hp⟩ := List.append_inj' hbefore rfl
  obtain rfl := (List.cons.inj hp).1
  exact hpx.1

variable [DecidableEq α]

theorem initList (l : Links α) (s : α) : Circle (l.initList s) s [] := by
  refine ⟨List.nodup_singleton s, List.isChain_cons_cons.mpr ⟨⟨?_, ?_⟩, .singleton s⟩⟩
  · simp [Links.initList]
  · simp [Links.initList]

/-- An element is inserted where it is wanted. -/
theorem addToList (h : Circle l s (xs ++ ys)) {ev : α} (hev : ev ∉ s :: (xs ++ ys)) :
    ∃ l', l.addToList ev (ys.head?.getD s) = some l' ∧ Circle l' s (xs ++ ev :: ys) ∧
      ∀ a ∉ ev :: s :: (xs ++ ys), l' a = l a := by
  obtain ⟨p, x, A, B, hplace, hx, hbefore, hpx, hbehind⟩ := h.split
  rw [← hx]
  have hne : ∀ a ∈ s :: (xs ++ ys), a ≠ ev := fun a ha hae => hev (hae ▸ ha)
  have hp : p ∈ s :: (xs ++ ys) := by
    have := hplace.p_mem
    grind
  have hx : x ∈ s :: (xs ++ ys) := by
    have := hplace.x_mem
    grind
  have hpev := hne p hp
  have hxev := hne x hx
  have hprev : ((l.setNext ev (some x)) x).prev = some p := by
    rw [Links.setNext_prev, hpx.2]
  refine ⟨(((l.setNext ev (some x)).setPrev ev (some p)).setNext p (some ev)).setPrev x (some ev),
    ?_, ⟨?_, ?_⟩, fun a ha => ?_⟩
  · rw [Links.addToList, hprev]
    simp
  · rw [← List.cons_append]
    exact List.nodup_middle.mpr (List.nodup_cons.mpr ⟨hev, h.nodup⟩)
  · have hsplit := hplace.append [ev]
    rw [List.append_assoc, List.singleton_append, List.singleton_append] at hsplit
    rw [hsplit, List.isChain_append_cons_cons, List.isChain_cons_cons]
    obtain ⟨hbefore, hbehind⟩ := hplace.relink ((((l.setNext ev (some x)).setPrev ev
      (some p)).setNext p (some ev)).setPrev x (some ev)) h.nodup hbefore hbehind
      (fun a ha hap => by simp [hap, hne a ha]) fun a ha hax => by simp [hax, hne a ha]
    refine ⟨hbefore, ⟨?_, ?_⟩, ⟨?_, ?_⟩, hbehind⟩
    · simp
    · simp [hxev.symm]
    · simp [hpev.symm]
    · simp
  · have hap : a ≠ p := fun hap => ha (List.mem_cons_of_mem _ (hap ▸ hp))
    have hax : a ≠ x := fun hax => ha (List.mem_cons_of_mem _ (hax ▸ hx))
    have haev : a ≠ ev := fun haev => ha (haev ▸ List.mem_cons_self)
    rw [Links.setPrev_of_ne _ _ hax, Links.setNext_of_ne _ _ hap, Links.setPrev_of_ne _ _ haev,
      Links.setNext_of_ne _ _ haev]

/-- Any member is taken out. -/
theorem removeFromList {ev : α} (h : Circle l s (xs ++ ev :: ys)) :
    ∃ l', l.removeFromList ev = some l' ∧ Circle l' s (xs ++ ys) ∧
      ∀ a ∉ s :: (xs ++ ev :: ys), l' a = l a := by
  obtain ⟨p, x, A, B, hplace, hx, hbefore, hpev, hbehind⟩ := h.split
  obtain rfl : ev = x := hx.symm
  obtain ⟨q, C, hqC⟩ : ∃ q C, ys ++ [s] = q :: C := by
    cases ys with
    | nil => exact ⟨s, [], rfl⟩
    | cons y ys => exact ⟨y, ys ++ [s], rfl⟩
  have hplace' : Place s xs ys p q A C := ⟨hplace.before, hqC⟩
  have hB := hplace.behind
  rw [List.cons_append, hqC] at hB
  obtain rfl := (List.cons_eq_cons.mp hB).2
  obtain ⟨hevq, hbehind⟩ := List.isChain_cons_cons.mp hbehind
  have hmiddle : (s :: xs ++ ev :: ys).Nodup := h.nodup
  obtain ⟨hev, hnodup⟩ := List.nodup_cons.mp (List.nodup_middle.mp hmiddle)
  rw [List.cons_append] at hev hnodup
  have hne : ∀ a ∈ s :: (xs ++ ys), a ≠ ev := fun a ha hae => hev (hae ▸ ha)
  have hp : p ∈ s :: (xs ++ ys) := by
    have := hplace'.p_mem
    grind
  have hq : q ∈ s :: (xs ++ ys) := by
    have := hplace'.x_mem
    grind
  have hpev' := hne p hp
  have hqev := hne q hq
  refine ⟨(((l.setPrev q (some p)).setNext p (some q)).setNext ev none).setPrev ev none, ?_,
    ⟨hnodup, ?_⟩, fun a ha => ?_⟩
  · simp [Links.removeFromList, hevq.1, hpev.2]
  · have hsplit := hplace'.append []
    rw [List.append_nil, List.nil_append] at hsplit
    rw [hsplit, List.isChain_append_cons_cons]
    obtain ⟨hbefore, hbehind⟩ := hplace'.relink ((((l.setPrev q (some p)).setNext p
      (some q)).setNext ev none).setPrev ev none) hnodup hbefore hbehind
      (fun a ha hap => by simp [hap, hne a ha]) fun a ha hax => by simp [hax, hne a ha]
    refine ⟨hbefore, ⟨?_, ?_⟩, hbehind⟩
    · simp [hpev']
    · simp [hqev]
  · have hmem : ∀ b ∈ s :: (xs ++ ys), a ≠ b := by
      intro b hb hab
      exact ha (by grind)
    have haev : a ≠ ev := fun haev => ha (by simp [haev])
    rw [Links.setPrev_of_ne _ _ haev, Links.setNext_of_ne _ _ haev,
      Links.setNext_of_ne _ _ (hmem p hp), Links.setPrev_of_ne _ _ (hmem q hq)]

end Circle

end Pro5Android.Lib
