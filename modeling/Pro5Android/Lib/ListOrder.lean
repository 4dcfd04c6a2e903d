import Mathlib.Data.List.Nodup

/-!
# The order of two elements of a list

`[x, y] <+ l` says that `x` stands before `y` in `l`. Maps, filters and
insertions elsewhere keep it, by the lemmas on sublists; the lemmas here relate
it to indices and say that it is asymmetric.
-/

namespace Pro5Android.Lib

open List

variable {α : Type*} {x y : α} {l l' : List α}

theorem pair_sublist_of_lt : ∀ {l : List α} {i j : ℕ}, i < j → l[i]? = some x → l[j]? = some y →
    [x, y] <+ l := by
  intro l
  induction l with
  | nil => intro i j _ hi; cases hi
  | cons z l ih =>
    intro i j hij hi hj
    obtain ⟨j, rfl⟩ : ∃ k, j = k + 1 := ⟨j - 1, by omega⟩
    rw [getElem?_cons_succ] at hj
    cases i with
    | zero =>
      obtain rfl : z = x := by simpa using hi
      exact (singleton_sublist.mpr (mem_of_getElem? hj)).cons_cons z
    | succ i =>
      rw [getElem?_cons_succ] at hi
      exact (ih (by omega) hi hj).cons z

theorem pair_sublist_append (hx : x ∈ l) (hy : y ∈ l') : [x, y] <+ l ++ l' :=
  (singleton_sublist.mpr hx).append (singleton_sublist.mpr hy)

theorem mem_of_pair_sublist (h : [x, y] <+ l) : x ∈ l ∧ y ∈ l :=
  ⟨h.subset (by simp), h.subset (by simp)⟩

/-- Without duplicates, no two elements stand before each other. -/
theorem not_pair_sublist_swap (hl : l.Nodup) (h : [x, y] <+ l) : ¬ [y, x] <+ l := by
  induction l with
  | nil => cases h
  | cons z l ih =>
    obtain ⟨hz, hl⟩ := nodup_cons.mp hl
    intro h'
    rcases cons_sublist_cons'.mp h with hxy | ⟨rfl, hy⟩
    · rcases cons_sublist_cons'.mp h' with hyx | ⟨rfl, hx⟩
      · exact ih hl hxy hyx
      · exact hz (mem_of_pair_sublist hxy).2
    · rcases cons_sublist_cons'.mp h' with hyx | ⟨rfl, hx⟩
      · exact hz (mem_of_pair_sublist hyx).2
      · exact hz (singleton_sublist.mp hy)

end Pro5Android.Lib
