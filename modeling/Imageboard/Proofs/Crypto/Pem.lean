import Imageboard.Crypto.Pem
import Imageboard.Proofs.Crypto.Base64
import Imageboard.Proofs.Text.Cuts

namespace Imageboard.Pem

open Text

variable {label : String} {bs : Bytes} {cs rest : List Char} {c : Char} {fuel : Nat}

def isLineEnd (c : Char) : Bool :=
  c == '\n' || c == '\r'

/-- Characters that lines are made of: groups of four without line ends, and padding in the last
two places only. -/
structure IsBody (cs : List Char) : Prop where
  groups : cs.length % 4 = 0
  noLineEnd : ∀ c ∈ cs, isLineEnd c = false
  padding : '=' ∉ cs.take (cs.length - 2)

theorem isBody_encodeList (bs : Bytes) : IsBody (Base64.encodeList bs) := by
  have groups := Base64.length_encodeList_mod bs
  refine ⟨groups, ?_, ?_⟩
  · intro c hc
    have hall : ∀ c ∈ Base64.encodeList bs, (!isLineEnd c) = true :=
      Base64.forall_mem_encodeList (by decide) (by decide)
    simpa using hall c hc
  · by_cases hlen : (Base64.encodeList bs).length < 2
    · rw [Nat.sub_eq_zero_of_le hlen.le]
      exact List.not_mem_nil
    · exact Base64.pad_not_mem_take (by omega)

theorem IsBody.drop (h : IsBody cs) (hlen : width < cs.length) : IsBody (cs.drop width) := by
  have hwidth : width = 64 := rfl
  have hgroups := h.groups
  refine ⟨?_, fun c hc => h.noLineEnd c (List.mem_of_mem_drop hc), ?_⟩
  · rw [List.length_drop]
    omega
  · rw [List.length_drop, show cs.length - width - 2 = cs.length - 2 - width by omega,
      ← List.drop_take]
    exact fun hm => h.padding (List.mem_of_mem_drop hm)

theorem IsBody.getLast?_take (h : IsBody cs) (hlen : width < cs.length) :
    (cs.take width).getLast? ≠ some '=' := by
  have hwidth : width = 64 := rfl
  have hgroups := h.groups
  intro hlast
  have hm : '=' ∈ cs.take width := List.mem_of_getLast? hlast
  exact h.padding (List.take_subset_take_left cs (by omega) hm)

def lined : Nat → List Char → List Char
  | 0, cs => cs
  | fuel + 1, cs =>
    if cs.length ≤ width then cs else cs.take width ++ '\n' :: lined fuel (cs.drop width)

theorem lined_ne_nil (hne : cs ≠ []) : lined fuel cs ≠ [] := by
  cases fuel with
  | zero => exact hne
  | succ fuel =>
    unfold lined
    split
    · exact hne
    · exact List.append_ne_nil_of_right_ne_nil _ (List.cons_ne_nil _ _)

theorem mem_lined (h : c ∈ lined fuel cs) : c ∈ cs ∨ c = '\n' := by
  induction fuel generalizing cs with
  | zero => exact .inl h
  | succ fuel ih =>
    unfold lined at h
    split at h
    · exact .inl h
    · rcases List.mem_append.1 h with h | h
      · exact .inl (List.mem_of_mem_take h)
      · rcases List.mem_cons.1 h with h | h
        · exact .inr h
        · exact (ih h).imp_left List.mem_of_mem_drop

theorem length_le_lined (fuel : Nat) (cs : List Char) : cs.length ≤ (lined fuel cs).length := by
  induction fuel generalizing cs with
  | zero => exact Nat.le_refl _
  | succ fuel ih =>
    unfold lined
    split
    · exact Nat.le_refl _
    · have := ih (cs.drop width)
      simp only [List.length_append, List.length_cons, List.length_take, List.length_drop] at this ⊢
      omega

theorem rows_eq (hne : cs ≠ []) (hfuel : cs.length < fuel) :
    (rows fuel cs).flatMap (· ++ ['\n']) = lined fuel cs ++ ['\n'] := by
  induction fuel generalizing cs with
  | zero => exact absurd hfuel (Nat.not_lt_zero _)
  | succ fuel ih =>
    unfold rows lined
    split
    next => simp [hne]
    next hlong =>
      have hwidth : width = 64 := rfl
      have hlen : (cs.drop width).length = cs.length - width := List.length_drop
      have hdrop : cs.drop width ≠ [] := by
        intro he
        rw [he, List.length_nil] at hlen
        omega
      rw [List.flatMap_cons, ih hdrop (by omega)]
      simp

theorem chomp?_of_noLineEnd (h : ∀ c ∈ cs, isLineEnd c = false) : chomp? cs = none := by
  have hrev : ∀ c ∈ cs.reverse, isLineEnd c = false := fun c hc => h c (List.mem_reverse.1 hc)
  unfold chomp?
  split
  next he => exact absurd (hrev '\n' (he ▸ List.mem_cons_self)) (by decide)
  next he => exact absurd (hrev '\n' (he ▸ List.mem_cons_self)) (by decide)
  next he => exact absurd (hrev '\r' (he ▸ List.mem_cons_self)) (by decide)
  next => rfl

theorem chomp?_append (h : cs.getLast? ≠ some '\r') : chomp? (cs ++ ['\n']) = some cs := by
  unfold chomp?
  rw [List.reverse_append, List.reverse_singleton, List.singleton_append]
  split
  next r he =>
    have hlast := congrArg List.head? (List.cons.inj he).2
    rw [List.head?_reverse] at hlast
    exact absurd hlast h
  next r _ he => rw [← (List.cons.inj he).2, List.reverse_reverse]
  next he => exact absurd (List.cons.inj he).1 (by decide)
  next _ hno _ => exact absurd rfl (hno _)

theorem unrows?_lined (fuel' : Nat) (h : IsBody cs) (hne : cs ≠ []) (hfuel : cs.length < fuel)
    (hfuel' : cs.length < fuel') : unrows? fuel' (lined fuel cs) = some cs := by
  induction fuel generalizing cs fuel' with
  | zero => exact absurd hfuel (Nat.not_lt_zero _)
  | succ fuel ih =>
    obtain ⟨fuel', rfl⟩ : ∃ k, fuel' = k + 1 := ⟨fuel' - 1, by omega⟩
    unfold lined unrows?
    split
    next hshort =>
      rw [if_neg (Nat.not_lt_of_le hshort), chomp?_of_noLineEnd h.noLineEnd]
      rfl
    next hlong =>
      have hlong : width < cs.length := Nat.lt_of_not_le hlong
      have hwidth : width = 64 := rfl
      have hrow : (cs.take width).length = width := List.length_take_of_le hlong.le
      have hlen : (cs.drop width).length = cs.length - width := List.length_drop
      have hdrop : cs.drop width ≠ [] := by
        intro he
        rw [he, List.length_nil] at hlen
        omega
      have others := ih fuel' (h.drop hlong) hdrop (by omega) (by omega)
      have some : (lined fuel (cs.drop width)).isEmpty = false := by
        simpa using lined_ne_nil hdrop
      rw [if_pos (by rw [List.length_append, hrow, List.length_cons]; omega)]
      simp only [List.take_left' hrow, List.drop_left' hrow, lineEnd?, bind, Option.bind, some,
        if_neg (h.getLast?_take hlong), others, pure, List.take_append_drop]
      rfl

theorem decode?_encode (h : bs ≠ []) : decode? label (encode label bs) = some bs := by
  have body := isBody_encodeList bs
  have hne := Base64.encodeList_ne_nil h
  have text : (encode label bs).toList = opening label ++ '\n' ::
      (lined ((Base64.encodeList bs).length + 1) (Base64.encodeList bs) ++ ['\n'] ++
        closing label ++ ['\n']) := by
    unfold encode
    rw [String.toList_ofList, rows_eq hne (Nat.lt_succ_self _)]
    simp
  have begins (rest : List Char) : body?.startsWithOpening (opening label ++ rest) = true := by
    unfold body?.startsWithOpening opening
    rw [String.toList_append, String.toList_append, List.append_assoc, List.append_assoc,
      after?_append]
    rfl
  have dash : (closing label).getLast? = some '-' := by
    unfold closing
    rw [String.toList_append, List.getLast?_append_of_ne_nil _ (by decide)]
    decide
  have hlines := unrows?_lined ((lined ((Base64.encodeList bs).length + 1)
    (Base64.encodeList bs) ++ ['\n']).length + 1) body hne (Nat.lt_succ_self _) (by
      rw [List.length_append, List.length_singleton]
      have := length_le_lined ((Base64.encodeList bs).length + 1) (Base64.encodeList bs)
      omega)
  have noReturn : (lined ((Base64.encodeList bs).length + 1) (Base64.encodeList bs)).getLast? ≠
      some '\r' := by
    intro hlast
    rcases mem_lined (List.mem_of_getLast? hlast) with hm | hm
    · exact absurd (body.noLineEnd _ hm) (by decide)
    · exact absurd hm (by decide)
  generalize lined ((Base64.encodeList bs).length + 1) (Base64.encodeList bs) = lines at *
  have closed : chomp? (lines ++ ['\n'] ++ closing label ++ ['\n']) =
      some (lines ++ ['\n'] ++ closing label) := by
    apply chomp?_append
    rw [List.getLast?_append, dash, Option.some_or]
    decide
  have front : after? (closing label).reverse (lines ++ ['\n'] ++ closing label).reverse =
      some (lines ++ ['\n']).reverse := by
    rw [List.reverse_append, after?_append]
  unfold decode?
  rw [text]
  simp only [begins, if_true, after?_append, lineEnd?, closed, Option.getD_some, front,
    List.reverse_reverse, chomp?_append noReturn, hlines, Base64.decodeList?_encodeList, bind,
    Option.bind]

end Imageboard.Pem
