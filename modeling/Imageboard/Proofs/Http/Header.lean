import Imageboard.Http.Header
import Imageboard.Proofs.Text.Letters

namespace Imageboard

open Text

section Characters

variable {c : Char}

theorem Text.toNat_of_isAlphanumeric (h : isAlphanumeric c = true) :
    48 ≤ c.toNat ∧ c.toNat ≤ 122 := by
  simp only [isAlphanumeric, isLetter, isDigit, Bool.or_eq_true, Bool.and_eq_true,
    decide_eq_true_eq] at h
  rcases h with (⟨low, high⟩ | ⟨low, high⟩) | ⟨low, high⟩
  · exact ⟨Nat.le_trans (by decide : 48 ≤ 97) low, high⟩
  · exact ⟨Nat.le_trans (by decide : 48 ≤ 65) low, Nat.le_trans (m := 90) high (by decide)⟩
  · exact ⟨low, Nat.le_trans (m := 57) high (by decide)⟩

theorem isTokenChar_bounds (h : isTokenChar c = true) :
    0x21 ≤ c.toNat ∧ c.toNat < 0x7F ∧ c ≠ '"' ∧ c ≠ ',' := by
  have signs : ∀ c ∈ "!#$%&'*+-.^_|~".toList,
      0x21 ≤ c.toNat ∧ c.toNat < 0x7F ∧ c ≠ '"' ∧ c ≠ ',' :=
    forall_mem_of_all (by decide)
  have inside (low : 48 ≤ c.toNat) (high : c.toNat ≤ 122) :
      0x21 ≤ c.toNat ∧ c.toNat < 0x7F ∧ c ≠ '"' ∧ c ≠ ',' := by
    refine ⟨by omega, by omega, ?_, ?_⟩
    · rintro rfl
      exact absurd low (by decide)
    · rintro rfl
      exact absurd low (by decide)
  unfold isTokenChar at h
  rw [Bool.or_eq_true, Bool.or_eq_true, List.contains_iff_mem, beq_iff_eq] at h
  rcases h with (h | h) | h
  · have bounds := toNat_of_isAlphanumeric h
    exact inside (by omega) (by omega)
  · exact signs c h
  · exact inside (by omega) (by omega)

theorem isPlainChar_of_printable (low : 0x20 ≤ c.toNat) (high : c.toNat < 0x7F) :
    isPlainChar c = true := by
  simp [isPlainChar, low, high]

end Characters

namespace HeaderName

variable {s : String} {name : HeaderName}

theorem text_of_of? (h : of? s = some name) : name.text = lower s ∧ s ≠ "" := by
  unfold of? at h
  dsimp only at h
  split at h
  next => cases h
  next hs =>
    split at h
    next =>
      obtain rfl := Option.some.inj h
      refine ⟨rfl, ?_⟩
      rintro rfl
      exact hs (.inl rfl)
    next => cases h

end HeaderName

namespace HeaderValue

variable {s : String} {v : HeaderValue}

theorem text_of_of? (h : of? s = some v) : v.text = s := by
  unfold of? at h
  split at h
  next =>
    obtain rfl := Option.some.inj h
    rfl
  next => cases h

theorem of?_succeeds (h : s.toList.all isPlainChar = true) : ∃ v, of? s = some v := by
  have value : s.toList.all isValueChar = true := by
    refine List.all_eq_true.2 fun c hc => ?_
    have hplain := List.all_eq_true.1 h c hc
    simp only [isPlainChar, isValueChar, Bool.or_eq_true, Bool.and_eq_true, decide_eq_true_eq,
      bne_iff_ne] at hplain ⊢
    exact hplain.imp_right fun ⟨low, high⟩ => ⟨low, by omega⟩
  unfold of?
  rw [dif_pos value]
  exact ⟨_, rfl⟩

theorem plain?_eq_some_iff {text : String} :
    v.plain? = some text ↔ v.text = text ∧ v.text.toList.all isPlainChar = true := by
  unfold plain?
  split
  next h => exact ⟨fun he => ⟨Option.some.inj he, h⟩, fun he => congrArg some he.1⟩
  next h => exact ⟨nofun, fun he => absurd he.2 h⟩

end HeaderValue

namespace Headers

variable {hs : Headers} {name other : HeaderName} {value : HeaderValue}

@[simp] theorem get?_insert_self : (hs.insert name value).get? name = some value := by
  have others : (hs.filter fun h => h.1 != name).find? (fun h => h.1 == name) = none := by
    simp
  rw [get?, insert, List.find?_append, others]
  simp

theorem get?_insert_of_ne (h : other ≠ name) :
    (hs.insert name value).get? other = hs.get? other := by
  have single : [(name, value)].find? (fun h => h.1 == other) = none := by
    simpa using Ne.symm h
  unfold get? insert
  rw [List.find?_append, single, Option.or_none, List.find?_filter]
  congr 2
  funext p
  by_cases hp : p.1 = other
  · simp [hp, h]
  · simp [hp]

theorem contains_eq_false_iff : hs.contains name = false ↔ hs.get? name = none := by
  unfold contains
  cases hs.get? name <;> simp

end Headers
end Imageboard
