import Mathlib.Data.Nat.Notation
import Mathlib.Logic.Function.Basic
import Mathlib.Tactic.NormNum

/-!
# Transfers between the cells of a memory

A copy is a list of assignments from one cell of a memory to another. Where no cell is
both read and written, and a cell that is written twice is written from one place, the
order of the assignments does not matter: each cell that is written has what its source
had before.

The rows of a plane are a stride apart, and a machine multiplies modulo its word. A row
that wraps around cannot hide from a bound that is far enough below the word.

Results:
* `exists_transferAll_eq`: the assignment that a cell has its contents from.
* `transferAll_of_mem`, `transferAll_of_not_mem`: the memory after a copy.
* `row_column_eq`: the bytes of a plane, told apart by their offsets.
* `row_within_iff`: when all the bytes of a row fit.
* `rows_within_iff`: when all the rows of a plane fit.
-/

namespace Pro5Android.Lib

/-! ## Assignments -/

section

variable {α β : Type*}

/-- The assignment of the cell `src` to the cell `dst`. -/
structure Transfer (α : Type*) where
  dst : α
  src : α

variable [DecidableEq α]

/-- The memory after an assignment. -/
def Transfer.apply (m : α → β) (t : Transfer α) : α → β := Function.update m t.dst (m t.src)

/-- The memory after a list of assignments. -/
def transferAll (m : α → β) (ts : List (Transfer α)) : α → β := ts.foldl Transfer.apply m

variable {m : α → β} {ts : List (Transfer α)} {a : α}

theorem transferAll_cons (t : Transfer α) :
    transferAll m (t :: ts) = transferAll (t.apply m) ts := rfl

theorem Transfer.apply_of_ne {t : Transfer α} (h : a ≠ t.dst) : t.apply m a = m a :=
  Function.update_of_ne h _ _

/-- A cell that is not written keeps what it has. -/
theorem transferAll_of_not_mem (h : ∀ t ∈ ts, a ≠ t.dst) : transferAll m ts a = m a := by
  induction ts generalizing m with
  | nil => rfl
  | cons t ts ih =>
    rw [List.forall_mem_cons] at h
    rw [transferAll_cons, ih h.2, Transfer.apply_of_ne h.1]

/-- No cell is both read and written. -/
def Separate (ts : List (Transfer α)) : Prop := ∀ t ∈ ts, ∀ t' ∈ ts, t.src ≠ t'.dst

/-- A cell is written from one place. -/
def Functional (ts : List (Transfer α)) : Prop :=
  ∀ t ∈ ts, ∀ t' ∈ ts, t.dst = t'.dst → t.src = t'.src

/-- A cell that is written has what the source of the last assignment to it had. -/
theorem exists_transferAll_eq (hseparate : Separate ts) (h : ∃ t ∈ ts, t.dst = a) :
    ∃ t ∈ ts, t.dst = a ∧ ∀ m : α → β, transferAll m ts a = m t.src := by
  induction ts with
  | nil =>
    obtain ⟨t, ht, -⟩ := h
    exact absurd ht List.not_mem_nil
  | cons s ts ih =>
    have hseparate' : Separate ts := fun u hu u' hu' =>
      hseparate u (List.mem_cons_of_mem s hu) u' (List.mem_cons_of_mem s hu')
    by_cases hlater : ∃ t ∈ ts, t.dst = a
    · obtain ⟨t, ht, hdst, hlast⟩ := ih hseparate' hlater
      refine ⟨t, List.mem_cons_of_mem s ht, hdst, fun m => ?_⟩
      rw [transferAll_cons, hlast]
      exact Transfer.apply_of_ne (hseparate t (List.mem_cons_of_mem s ht) s List.mem_cons_self)
    · have hdst : s.dst = a := by
        obtain ⟨t, ht, hdst⟩ := h
        obtain rfl | hmem := List.mem_cons.mp ht
        · exact hdst
        · exact absurd ⟨t, hmem, hdst⟩ hlater
      refine ⟨s, List.mem_cons_self, hdst, fun m => ?_⟩
      rw [transferAll_cons, transferAll_of_not_mem fun t ht heq => hlater ⟨t, ht, heq.symm⟩, ← hdst]
      exact Function.update_self _ _ _

/-- A cell that is written has what its source had. -/
theorem transferAll_of_mem (hseparate : Separate ts) (hfunctional : Functional ts)
    {t : Transfer α} (ht : t ∈ ts) : transferAll m ts t.dst = m t.src := by
  obtain ⟨s, hs, hdst, hlast⟩ := exists_transferAll_eq hseparate ⟨t, ht, rfl⟩
  rw [hlast, hfunctional s hs t ht hdst]

end

/-! ## Rows -/

/-- A byte of a plane has one row and one column. -/
theorem row_column_eq {stride row row' column column' : ℕ} (hcolumn : column < stride)
    (hcolumn' : column' < stride) (h : row * stride + column = row' * stride + column') :
    row = row' ∧ column = column' := by
  have hdiv := congrArg (· / stride) h
  have hmod := congrArg (· % stride) h
  simp only [Nat.add_comm _ column, Nat.add_comm _ column',
    Nat.add_mul_div_right _ _ (Nat.zero_lt_of_lt hcolumn), Nat.div_eq_of_lt hcolumn,
    Nat.div_eq_of_lt hcolumn', Nat.zero_add] at hdiv
  simp only [Nat.mul_add_mod_self_right, Nat.mod_eq_of_lt hcolumn, Nat.mod_eq_of_lt hcolumn']
    at hmod
  exact ⟨hdiv, hmod⟩

/-- **The bytes of a row** are all in the first `size`, modulo `word`, if the row does not reach
    behind them from where its first byte wraps to. -/
theorem row_within_iff (start : ℕ) {word bytes size : ℕ} (hsize : size < word)
    (hbytes : 0 < bytes) :
    (∀ b < bytes, (start + b) % word < size) ↔ start % word + bytes ≤ size := by
  have hstart : start % word < word := Nat.mod_lt _ (by omega)
  constructor
  · intro h
    by_contra hlong
    by_cases hfirst : size ≤ start % word
    · have := h 0 hbytes
      rw [Nat.add_zero] at this
      omega
    · -- the byte right behind the bound
      have := h (size - start % word) (by omega)
      rw [← Nat.mod_add_mod, Nat.add_sub_cancel' (by omega), Nat.mod_eq_of_lt hsize] at this
      omega
  · intro h b hb
    rw [← Nat.mod_add_mod, Nat.mod_eq_of_lt (by omega)]
    omega

/-- **The rows of a plane fit** in `size` bytes, their offsets taken modulo `word`, if the
    last row does without wrapping around. -/
theorem rows_within_iff (stride columns : ℕ) {word rows size : ℕ} (hsize : size < word)
    (hbound : size + stride < word + columns) (hrows : 0 < rows) :
    (∀ row < rows, row * stride % word + columns ≤ size) ↔
      (rows - 1) * stride + columns ≤ size := by
  constructor
  · intro h
    by_cases hwrap : (rows - 1) * stride < word
    · have hlast := h (rows - 1) (by omega)
      rwa [Nat.mod_eq_of_lt hwrap] at hlast
    · -- the last row that does not wrap around ends behind the bound
      have hstride : 0 < stride := by
        apply Nat.pos_of_ne_zero
        rintro rfl
        omega
      have hrow : (word - 1) / stride < rows := by
        have hle : (word - 1) / stride ≤ rows - 1 := by
          apply Nat.div_le_of_le_mul
          rw [Nat.mul_comm]
          omega
        omega
      have hlow : (word - 1) / stride * stride ≤ word - 1 := Nat.div_mul_le_self _ _
      have hhigh : word - 1 < (word - 1) / stride * stride + stride := Nat.lt_div_mul_add hstride
      have hlast := h _ hrow
      rw [Nat.mod_eq_of_lt (by omega)] at hlast
      omega
  · intro h row hrow
    have hle : row * stride ≤ (rows - 1) * stride := Nat.mul_le_mul_right stride (by omega)
    rw [Nat.mod_eq_of_lt (by omega)]
    omega

end Pro5Android.Lib
