import Mathlib.Data.List.Basic
import Mathlib.Data.Nat.ModEq
import Mathlib.Logic.Function.Basic

/-!
# Circular queues

A queue of at most `n` elements in `n` slots: `count` elements from `head` on,
wrapping around at the end of the array. `toList` reads the queue off the
slots, head first, and the operations are the bounded FIFO operations on it.

Results:
* `toList_of_enqueue?`, `enqueue?_eq_none`: an insertion appends, and is
  refused exactly when the queue is full.
* `toList_of_dequeue?`, `dequeue?_eq_none`: a removal takes the first element,
  and fails exactly when the queue is empty.
* `peek?_eq`: looking at the head reads the first element.
-/

namespace Pro5Android.Lib

/-- A circular queue. The occupied slots are the `count` ones from `head` on. -/
structure Ring (α : Type*) (n : ℕ) where
  slots : Fin n → α
  head : Fin n
  count : ℕ
  count_le : count ≤ n

namespace Ring

variable {α : Type*} {n : ℕ}

/-- The slot `i` places after the head. -/
def slot (r : Ring α n) (i : ℕ) : Fin n :=
  ⟨(r.head + i) % n, Nat.mod_lt _ r.head.pos⟩

/-- The queued elements, head first. -/
def toList (r : Ring α n) : List α :=
  (List.range r.count).map fun i => r.slots (r.slot i)

/-- The empty queue, every slot cleared. -/
def empty (n : ℕ) [NeZero n] [Inhabited α] : Ring α n :=
  ⟨fun _ => default, 0, 0, Nat.zero_le n⟩

/-- Insert behind the last element; `none` when all slots are taken. -/
def enqueue? (r : Ring α n) (x : α) : Option (Ring α n) :=
  if h : r.count < n then
    some ⟨Function.update r.slots (r.slot r.count) x, r.head, r.count + 1, h⟩
  else none

/-- Remove the first element and clear its slot; `none` when there is none. -/
def dequeue? [Inhabited α] (r : Ring α n) : Option (α × Ring α n) :=
  if 0 < r.count then
    some (r.slots r.head, ⟨Function.update r.slots r.head default, r.slot 1, r.count - 1,
      (Nat.sub_le _ _).trans r.count_le⟩)
  else none

/-- The first element, left in the queue. -/
def peek? (r : Ring α n) : Option α :=
  if 0 < r.count then some (r.slots r.head) else none

/-! ## The slots -/

theorem slot_zero (r : Ring α n) : r.slot 0 = r.head :=
  Fin.ext (Nat.mod_eq_of_lt r.head.isLt)

/-- Within one turn of the array, different places are different slots. -/
theorem slot_ne (r : Ring α n) {i j : ℕ} (hij : i < j) (hj : j < i + n) : r.slot i ≠ r.slot j := by
  intro h
  have hmod : (r.head + i) % n = (r.head + j) % n := congrArg Fin.val h
  have hdvd : n ∣ (r.head + j) - (r.head + i) := (Nat.modEq_iff_dvd' (by omega)).mp hmod
  have hle : n ≤ (r.head + j) - (r.head + i) := Nat.le_of_dvd (by omega) hdvd
  omega

@[simp] theorem length_toList (r : Ring α n) : r.toList.length = r.count := by
  simp [toList]

theorem toList_eq_nil {r : Ring α n} : r.toList = [] ↔ r.count = 0 := by
  rw [← List.length_eq_zero_iff, length_toList]

/-! ## The operations on the list of elements -/

@[simp] theorem toList_empty [NeZero n] [Inhabited α] : (empty n : Ring α n).toList = [] :=
  toList_eq_nil.mpr rfl

theorem enqueue?_eq_none {r : Ring α n} {x : α} : r.enqueue? x = none ↔ r.toList.length = n := by
  have hle := r.count_le
  rw [enqueue?, length_toList]
  split_ifs with h
  · simp only [false_iff]
    omega
  · simp only [true_iff]
    omega

theorem toList_of_enqueue? {r r' : Ring α n} {x : α} (h : r.enqueue? x = some r') :
    r'.toList = r.toList ++ [x] := by
  rw [enqueue?] at h
  split_ifs at h with hlt
  obtain rfl := Option.some.inj h
  rw [toList, toList, List.range_succ, List.map_append, List.map_singleton]
  congr 1
  · -- the elements already queued lie in other slots
    apply List.map_congr_left
    intro i hi
    have hi' : i < r.count := List.mem_range.mp hi
    exact Function.update_of_ne (r.slot_ne hi' (by omega)) _ _
  · exact congrArg (fun y => [y]) (Function.update_self _ _ _)

theorem dequeue?_eq_none [Inhabited α] {r : Ring α n} : r.dequeue? = none ↔ r.toList = [] := by
  rw [dequeue?, toList_eq_nil]
  split_ifs with h
  · simp only [false_iff]
    omega
  · simp only [true_iff]
    omega

theorem toList_of_dequeue? [Inhabited α] {r r' : Ring α n} {x : α}
    (h : r.dequeue? = some (x, r')) : r.toList = x :: r'.toList := by
  rw [dequeue?] at h
  split_ifs at h with hpos
  obtain ⟨rfl, rfl⟩ := Prod.mk.inj (Option.some.inj h)
  have hle := r.count_le
  have hrange : List.range r.count = 0 :: (List.range (r.count - 1)).map Nat.succ := by
    rw [← List.range_succ_eq_map, show r.count - 1 + 1 = r.count by omega]
  rw [toList, hrange, List.map_cons, List.map_map, slot_zero]
  congr 1
  show _ = (List.range (r.count - 1)).map _
  apply List.map_congr_left
  intro i hi
  have hi' : i < r.count - 1 := List.mem_range.mp hi
  -- the new head is one place on, and the cleared slot is no longer queued
  have hslot : (⟨((r.head + 1) % n + i) % n, Nat.mod_lt _ r.head.pos⟩ : Fin n) = r.slot (i + 1) := by
    apply Fin.ext
    show ((r.head + 1) % n + i) % n = (r.head + (i + 1)) % n
    rw [Nat.mod_add_mod, Nat.add_assoc, Nat.add_comm 1 i]
  have hne : r.slot (i + 1) ≠ r.head := by
    rw [← slot_zero]
    exact (r.slot_ne (by omega) (by omega)).symm
  show r.slots (r.slot (i + 1)) = Function.update r.slots r.head default
    ⟨((r.head + 1) % n + i) % n, Nat.mod_lt _ r.head.pos⟩
  rw [hslot, Function.update_of_ne hne]

theorem peek?_eq (r : Ring α n) : r.peek? = r.toList.head? := by
  rw [peek?, toList]
  split_ifs with h
  · obtain ⟨k, hk⟩ : ∃ k, r.count = k + 1 := ⟨r.count - 1, by omega⟩
    rw [hk, List.range_succ_eq_map, List.map_cons, slot_zero]
    rfl
  · rw [show r.count = 0 by omega]
    rfl

end Ring

end Pro5Android.Lib
