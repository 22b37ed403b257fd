import Imageboard.Proofs.Text.Letters
import Mathlib.Algebra.Group.Nat.Defs
import Mathlib.Data.List.TakeWhile

namespace Imageboard.Text

variable {n width : Nat} {c : Char} {rest : List Char}

theorem isDigit_eq (c : Char) : isDigit c = c.isDigit := rfl

theorem toNat_of_isDigit (h : isDigit c = true) : 48 ≤ c.toNat ∧ c.toNat ≤ 57 := by
  simp only [isDigit, Bool.and_eq_true, decide_eq_true_eq] at h
  exact h

theorem isBlank_of_isDigit (h : isDigit c = true) : isBlank c = false := by
  obtain ⟨low, high⟩ := toNat_of_isDigit h
  exact isBlank_eq_false (by omega) (by omega)

theorem isDigit_of_mem_toDigits (h : c ∈ Nat.toDigits 10 n) : isDigit c = true := by
  rw [isDigit_eq]
  exact Nat.isDigit_of_mem_toDigits (by decide) (by decide) h

theorem ofDigits_toDigits (n : Nat) : ofDigits (Nat.toDigits 10 n) = n :=
  Nat.ofDigitChars_toDigits (by decide) (by decide)

theorem exists_toDigits (n : Nat) : ∃ d ds, Nat.toDigits 10 n = d :: ds ∧ isDigit d = true := by
  obtain ⟨d, ds, hds⟩ := List.exists_cons_of_length_pos (Nat.length_toDigits_pos (b := 10) (n := n))
  exact ⟨d, ds, hds, isDigit_of_mem_toDigits (hds ▸ List.mem_cons_self)⟩

theorem head?_toDigits (h : 0 < n) : (Nat.toDigits 10 n).head? ≠ some '0' := by
  induction n using Nat.strongRecOn with
  | ind n ih =>
    by_cases hn : n < 10
    · rw [Nat.toDigits_of_lt_base hn]
      intro he
      have hzero := Nat.digitChar_eq_zero.1 (Option.some.inj he)
      omega
    · obtain ⟨d, ds, hds, -⟩ := exists_toDigits (n / 10)
      have shorter := ih (n / 10) (by omega) (by omega)
      rw [hds] at shorter
      rwa [Nat.toDigits_of_base_le (by decide) (Nat.le_of_not_lt hn), hds]

theorem ofDigits_zeros (k : Nat) (ds : List Char) :
    ofDigits (List.replicate k '0' ++ ds) = ofDigits ds := by
  induction k with
  | zero => rfl
  | succ k ih =>
    rw [List.replicate_succ, List.cons_append]
    exact ih

theorem digits_append {ds : List Char} (all : ∀ d ∈ ds, isDigit d = true)
    (h : ∀ d ∈ rest.head?, isDigit d = false) : digits (ds ++ rest) = (ds, rest) := by
  have stop : rest.takeWhile isDigit = [] ∧ rest.dropWhile isDigit = rest := by
    cases rest with
    | nil => exact ⟨rfl, rfl⟩
    | cons d rest =>
      have hd : isDigit d = false := h d rfl
      simp [hd]
  rw [digits, List.takeWhile_append_of_pos all, List.dropWhile_append_of_pos all, stop.1, stop.2,
    List.append_nil]

theorem toList_padded (width n : Nat) : (padded width n).toList =
    List.replicate (width - (Nat.toDigits 10 n).length) '0' ++ Nat.toDigits 10 n := by
  rw [padded, String.toList_ofList]

theorem ofDigits_padded (width n : Nat) : ofDigits (padded width n).toList = n := by
  rw [toList_padded, ofDigits_zeros, ofDigits_toDigits]

theorem isDigit_of_mem_padded (h : c ∈ (padded width n).toList) : isDigit c = true := by
  rw [toList_padded] at h
  rcases List.mem_append.1 h with h | h
  · rw [List.eq_of_mem_replicate h]
    decide
  · exact isDigit_of_mem_toDigits h

theorem padded_ne_nil (width n : Nat) : (padded width n).toList ≠ [] := by
  rw [toList_padded]
  intro h
  have hlen := Nat.length_toDigits_pos (b := 10) (n := n)
  rw [(List.append_eq_nil_iff.1 h).2] at hlen
  exact Nat.lt_irrefl 0 hlen

theorem length_padded (h : n < 10 ^ width) (hw : 0 < width) :
    (padded width n).toList.length = width := by
  have hlen := (Nat.length_toDigits_le_iff (by decide) hw).2 h
  rw [toList_padded, List.length_append, List.length_replicate]
  omega

theorem takeWhile_padded (width n : Nat) (rest : List Char) :
    ((padded width n).toList ++ rest).takeWhile isDigit =
      (padded width n).toList ++ rest.takeWhile isDigit :=
  List.takeWhile_append_of_pos fun _ hc => isDigit_of_mem_padded hc

theorem dropWhile_isBlank_padded (width n : Nat) (rest : List Char) :
    ((padded width n).toList ++ rest).dropWhile isBlank = (padded width n).toList ++ rest := by
  have first (c : Char) (hc : c ∈ (padded width n).toList) : isBlank c = false :=
    isBlank_of_isDigit (isDigit_of_mem_padded hc)
  have some := padded_ne_nil width n
  revert first some
  generalize (padded width n).toList = ds
  intro first some
  cases ds with
  | nil => exact absurd rfl some
  | cons d ds =>
    rw [List.cons_append, List.dropWhile_cons_of_neg]
    rw [first d List.mem_cons_self]
    exact Bool.false_ne_true

end Imageboard.Text
