import Mathlib.Data.List.DropRight
import Mathlib.Data.List.Infix

/-!
# Searching a list that arrives in pieces

A scan of `l ++ c` that has looked at `l` before needs only the last `n` elements
of `l` to find what begins in `l` and ends in `c`, if nothing that it looks for is
longer than `n + 1`.

Results:
* `infix_append_iff`: what is in `l ++ c` is in `l`, or in the window.
* `rtake_rtake_append`: the window can be carried on from piece to piece.
-/

namespace Pro5Android.Lib

open List

variable {α : Type*}

theorem length_rtake (l : List α) (n : ℕ) : (l.rtake n).length = min n l.length := by
  rw [rtake, length_drop]
  omega

theorem rtake_suffix (l : List α) (n : ℕ) : l.rtake n <:+ l := drop_suffix _ _

theorem rtake_append_suffix (l c : List α) (n : ℕ) : l.rtake n ++ c <:+ l ++ c := by
  obtain ⟨s, hs⟩ := rtake_suffix l n
  exact ⟨s, by rw [← append_assoc, hs]⟩

/-- The window over `l ++ c` is that over the window of `l` and `c`. -/
theorem rtake_rtake_append (l c : List α) (n : ℕ) :
    (l.rtake n ++ c).rtake n = (l ++ c).rtake n := by
  have hshort : (l.rtake n ++ c).rtake n <:+ l ++ c :=
    (rtake_suffix _ n).trans (rtake_append_suffix l c n)
  have hlen : ((l.rtake n ++ c).rtake n).length = ((l ++ c).rtake n).length := by
    rw [length_rtake, length_rtake, length_append, length_append, length_rtake]
    omega
  exact (suffix_of_suffix_length_le hshort (rtake_suffix _ n) hlen.le).eq_of_length hlen

/-- An occurrence in `l ++ c` ends in `l`, or begins among its last `n` elements. -/
theorem infix_append_iff {x l c : List α} {n : ℕ} (hx : x.length ≤ n + 1) :
    x <:+: l ++ c ↔ x <:+: l ∨ x <:+: l.rtake n ++ c := by
  constructor
  · rintro ⟨s, t, hst⟩
    have htotal : s.length + x.length + t.length = l.length + c.length := by
      rw [← length_append, ← length_append, hst, length_append]
    rcases le_or_gt (s ++ x).length l.length with hle | hlt
    · have hpre : s ++ x <+: l :=
        prefix_of_prefix_length_le ⟨t, hst⟩ (prefix_append l c) hle
      exact .inl (infix_append_right.trans hpre.isInfix)
    · have hsuf : x ++ t <:+ l ++ c := ⟨s, by rw [← append_assoc, hst]⟩
      have hlen : (x ++ t).length ≤ (l.rtake n ++ c).length := by
        rw [length_append] at hlt
        rw [length_append, length_append, length_rtake]
        omega
      have hwindow := suffix_of_suffix_length_le hsuf (rtake_append_suffix l c n) hlen
      exact .inr (infix_append_left.trans hwindow.isInfix)
  · rintro (h | h)
    · exact infix_append_of_infix_left h
    · exact h.trans (rtake_append_suffix l c n).isInfix

end Pro5Android.Lib
