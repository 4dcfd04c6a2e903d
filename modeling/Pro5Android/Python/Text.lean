import Pro5Android.Python.Bytes

/-!
# Python text

A `str` obtained from `bytes.decode("utf-8")` is represented by the bytes it
was decoded from: the strict decoder is injective, and equality, `startswith`
`removeprefix` and `split("/")` on the text are the same operations on its bytes.
`utf8Valid` says when the decoder accepts. Texts are ordered by their code points,
which UTF-8 keeps, so that `sorted` compares the bytes.
-/

namespace Pro5Android.Python

/-- A continuation byte `10xxxxxx`. -/
def isContinuation (b : Byte) : Bool := 0x80 ≤ b && b ≤ 0xBF

/-- `text.decode("utf-8")` succeeds: no overlong form, no surrogate, nothing
    above U+10FFFF, no truncated sequence. -/
def utf8Valid : Bytes → Bool
  | [] => true
  | b0 :: rest =>
    if b0 < 0x80 then utf8Valid rest
    else match rest with
      | [] => false
      | b1 :: rest =>
        if 0xC2 ≤ b0 && b0 ≤ 0xDF then isContinuation b1 && utf8Valid rest
        else match rest with
          | [] => false
          | b2 :: rest =>
            if 0xE0 ≤ b0 && b0 ≤ 0xEF then
              isContinuation b1 && (b0 != 0xE0 || 0xA0 ≤ b1) && (b0 != 0xED || b1 ≤ 0x9F) &&
                isContinuation b2 && utf8Valid rest
            else match rest with
              | [] => false
              | b3 :: rest =>
                0xF0 ≤ b0 && b0 ≤ 0xF4 && isContinuation b1 && (b0 != 0xF0 || 0x90 ≤ b1) &&
                  (b0 != 0xF4 || b1 ≤ 0x8F) && isContinuation b2 && isContinuation b3 &&
                  utf8Valid rest

/-- `text.removeprefix(pre)`. -/
def removePrefix (pre s : Bytes) : Bytes := if pre.isPrefixOf s then s.drop pre.length else s

/-- What is left is a slice of whatever the text was a slice of. -/
theorem removePrefix_mem_slices {p s : Bytes} (pre : Bytes) (h : s ∈ slices p) :
    removePrefix pre s ∈ slices p := by
  rw [removePrefix]
  split_ifs with hpre
  · obtain ⟨⟨i, j⟩, hij, rfl⟩ := Finset.mem_image.mp h
    have hlen := (List.isPrefixOf_iff_prefix.mp hpre).length_le
    rw [List.length_drop, List.length_take] at hlen
    simp only [Finset.mem_product, Finset.mem_range] at hij
    rw [slices, Finset.mem_image]
    by_cases hnil : pre.length = 0
    · exact ⟨(i, j), by simpa using hij, by rw [hnil, List.drop_zero]⟩
    · refine ⟨(i + pre.length, j), ?_, by rw [List.drop_drop]⟩
      simp only [Finset.mem_product, Finset.mem_range]
      omega
  · exact h

/-- `s <= t`. -/
def TextLE (s t : Bytes) : Prop := s.map UInt8.toNat ≤ t.map UInt8.toNat

instance : DecidableRel TextLE := fun _ _ => inferInstanceAs (Decidable (_ ≤ _))

instance : IsTrans Bytes TextLE := ⟨fun _ _ _ => le_trans⟩

instance : Std.Total TextLE := ⟨fun _ _ => le_total _ _⟩

instance : Std.Antisymm TextLE :=
  ⟨fun _ _ hst hts =>
    List.map_injective_iff.mpr (fun _ _ => UInt8.toNat_inj.mp) (le_antisymm hst hts)⟩

/-- `sorted(s)` of a set. -/
def sorted (s : Finset Bytes) : List Bytes := s.sort TextLE

theorem mem_sorted {s : Finset Bytes} {t : Bytes} : t ∈ sorted s ↔ t ∈ s := Finset.mem_sort _

/-- ASCII text decodes. -/
theorem utf8Valid_of_ascii {s : Bytes} (h : s.all (fun b => b < 0x80) = true) :
    utf8Valid s = true := by
  induction s with
  | nil => rfl
  | cons b s ih =>
    rw [List.all_cons, Bool.and_eq_true, decide_eq_true_eq] at h
    rw [utf8Valid.eq_def]
    simp only [if_pos h.1, ih h.2]

example : utf8Valid (ascii "a/b") = true ∧ utf8Valid [0xC3, 0xA9] = true := by decide
example : utf8Valid [0xED, 0xA0, 0x80] = false ∧ utf8Valid [0xC0, 0x80] = false := by decide

end Pro5Android.Python
