import Imageboard.Crypto.Md5Crypt
import Mathlib.Data.List.TakeWhile

namespace Imageboard.Md5Crypt

variable {password salt : Bytes} {cs : List Char} {text : String}

theorem length_alphabet : alphabet.length = 64 := by
  decide +kernel

theorem dollar_not_mem_alphabet : '$' ∉ alphabet := by
  decide +kernel

theorem length_digits (n v : Nat) : (digits n v).length = n := by
  induction n generalizing v with
  | zero => rfl
  | succ n ih => simp [digits, ih]

theorem mem_alphabet_of_mem_digits {n v : Nat} {c : Char} (h : c ∈ digits n v) : c ∈ alphabet := by
  induction n generalizing v with
  | zero => cases h
  | succ n ih =>
    rcases List.mem_cons.1 h with rfl | h
    · have within : v % 64 < alphabet.length := by
        rw [length_alphabet]
        exact Nat.mod_lt v (by decide)
      rw [List.getElem?_eq_getElem within]
      exact List.getElem_mem within
    · exact ih h

theorem length_render (digest : Bytes) : (render digest).length = 22 := by
  simp [render, groups, length_digits]

theorem mem_alphabet_of_mem_render {digest : Bytes} {c : Char} (h : c ∈ render digest) :
    c ∈ alphabet := by
  simp only [render, List.mem_append, List.mem_flatMap] at h
  rcases h with ⟨group, -, h⟩ | h
  · exact mem_alphabet_of_mem_digits h
  · exact mem_alphabet_of_mem_digits h

theorem cut_eq_self {n : Nat} (short : cs.length ≤ n) (h : ∀ c ∈ cs, c ∈ alphabet) :
    salt?.cut n cs = some cs := by
  induction cs generalizing n with
  | nil => cases n <;> rfl
  | cons c cs ih =>
    cases n with
    | zero => cases short
    | succ n =>
      have first : alphabet.contains c = true := List.contains_iff_mem.2 (h c List.mem_cons_self)
      rw [salt?.cut, if_pos first,
        ih (Nat.le_of_succ_le_succ short) fun d hd => h d (List.mem_cons_of_mem c hd)]
      rfl

theorem salt?_ofList (hne : cs ≠ []) (short : cs.length ≤ 8) (h : ∀ c ∈ cs, c ∈ alphabet) :
    salt? (String.ofList cs) = some cs := by
  have unmarked : cs.takeWhile (· != '$') = cs := by
    refine List.takeWhile_eq_self_iff.2 fun c hc => bne_iff_ne.2 ?_
    rintro rfl
    exact dollar_not_mem_alphabet (h _ hc)
  have filled : String.ofList cs ≠ "" := fun he => hne (by simpa using congrArg String.toList he)
  rw [salt?, String.toList_ofList, unmarked, if_neg filled]
  exact cut_eq_self short h

theorem hash?_eq_none_iff (password : Bytes) : hash? password text = none ↔ salt? text = none := by
  cases h : salt? text <;> simp [hash?, h]

theorem hash?_eq_some (h : salt? text = some cs) (password : Bytes) :
    ∃ front digits, hash? password text = some (front ++ digits) ∧
      front = ['$', '1', '$'] ++ cs ++ ['$'] ∧ digits.length = 22 ∧ ∀ c ∈ digits, c ∈ alphabet := by
  refine ⟨_, render (digest password (Text.ofLatin cs)), ?_, rfl, length_render _,
    fun c hc => mem_alphabet_of_mem_render hc⟩
  simp [hash?, h]

end Imageboard.Md5Crypt
