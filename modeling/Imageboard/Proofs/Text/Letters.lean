import Imageboard.Text.Blank

namespace Imageboard.Text

variable {c d : Char} {s : String} {p : Char → Bool} {cs : List Char}

theorem toNat_lowerChar (c : Char) :
    (lowerChar c).toNat = if 65 ≤ c.toNat ∧ c.toNat ≤ 90 then c.toNat + 32 else c.toNat := by
  unfold lowerChar
  have capital : ('A' ≤ c ∧ c ≤ 'Z') ↔ 65 ≤ c.toNat ∧ c.toNat ≤ 90 := .rfl
  simp only [capital]
  split
  next h =>
    have hvalid : (c.toNat + 32).isValidChar := .inl (by omega)
    unfold Char.ofNat
    rw [dif_pos hvalid]
    rfl
  next => rfl

theorem eq_of_lowerChar_eq (h : lowerChar c = d) (hd : d.toNat < 97) : c = d := by
  have hn := toNat_lowerChar c
  rw [h] at hn
  apply Char.toNat_inj.1
  split at hn <;> omega

@[simp] theorem lowerChar_lowerChar (c : Char) : lowerChar (lowerChar c) = lowerChar c := by
  apply Char.toNat_inj.1
  rw [toNat_lowerChar (lowerChar c), if_neg]
  rw [toNat_lowerChar c]
  split <;> omega

@[simp] theorem lower_lower (s : String) : lower (lower s) = lower s := by
  simp [lower, Function.comp_def]

theorem not_mem_lower (hd : d.toNat < 97) (h : d ∉ s.toList) : d ∉ (lower s).toList := by
  intro hm
  rw [lower, String.toList_ofList] at hm
  obtain ⟨c, hc, he⟩ := List.mem_map.1 hm
  exact h (eq_of_lowerChar_eq he hd ▸ hc)

theorem isBlank_eq_false (h : 0x21 ≤ c.toNat) (h' : c.toNat < 0x7F) : isBlank c = false := by
  simp only [isBlank, blankRanges, List.any_cons, List.any_nil, Bool.or_false, Bool.or_eq_false_iff,
    Bool.and_eq_false_iff, decide_eq_false_iff_not]
  omega

theorem forall_mem_of_all {α : Type} {xs : List α} {P : α → Prop} [DecidablePred P]
    (h : xs.all (fun x => decide (P x)) = true) : ∀ x ∈ xs, P x :=
  fun x hx => of_decide_eq_true (List.all_eq_true.1 h x hx)

theorem not_mem_of_all (h : cs.all p = true) (hc : p c = false) : c ∉ cs := by
  intro hm
  have hp := List.all_eq_true.1 h c hm
  rw [hc] at hp
  cases hp

end Imageboard.Text
