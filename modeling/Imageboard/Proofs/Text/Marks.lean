import Imageboard.Proofs.Text.Cuts

namespace Imageboard.Text

/-- A mark stands first in a text between what precedes it and what follows it: no other place of
the mark has less before it. -/
structure IsFirst (mark front back cs : List Char) : Prop where
  split : cs = front ++ mark ++ back
  least : ∀ front' back', cs = front' ++ mark ++ back' → front.length ≤ front'.length

/-- A line is shown as it is if it has no mark, and else up to its first one. -/
def IsCut (mark line shown : List Char) : Prop :=
  (¬ mark <:+: line ∧ shown = line) ∨ ∃ back, IsFirst mark shown back line

variable {mark front back cs line shown : List Char} {sep c : Char}

theorem after?_eq_none_iff : after? mark cs = none ↔ ¬ mark <+: cs := by
  rw [Option.eq_none_iff_forall_ne_some]
  simp only [ne_eq, after?_eq_some_iff]
  exact ⟨fun h ⟨t, ht⟩ => h t ht.symm, fun h t ht => h ⟨t, ht.symm⟩⟩

theorem IsFirst.nil (mark back : List Char) : IsFirst mark [] back (mark ++ back) where
  split := rfl
  least _ _ _ := Nat.zero_le _

theorem IsFirst.cons (h : IsFirst mark front back cs) (hn : ¬ mark <+: c :: cs) :
    IsFirst mark (c :: front) back (c :: cs) where
  split := congrArg (c :: ·) h.split
  least front' back' he := by
    cases front' with
    | nil => exact absurd ⟨back', he.symm⟩ hn
    | cons d front' => exact Nat.succ_le_succ (h.least front' back' (List.cons.inj he).2)

theorem IsFirst.unmarked (h : IsFirst mark front back cs) (hne : mark ≠ []) :
    ¬ mark <:+: front := by
  rintro ⟨before, after, he⟩
  have earlier := h.least before (after ++ mark ++ back) (by rw [h.split, ← he]; simp)
  have hlen := congrArg List.length he
  have positive := List.length_pos_iff.2 hne
  simp only [List.length_append] at hlen
  omega

theorem IsCut.unmarked (h : IsCut mark line shown) (hne : mark ≠ []) : ¬ mark <:+: shown := by
  rcases h with ⟨hn, rfl⟩ | ⟨back, h⟩
  · exact hn
  · exact h.unmarked hne

theorem IsCut.nil (hne : mark ≠ []) : IsCut mark [] [] :=
  .inl ⟨fun h => hne (List.infix_nil.1 h), rfl⟩

theorem IsCut.cons (h : IsCut mark line shown) (hn : ¬ mark <+: c :: line) :
    IsCut mark (c :: line) (c :: shown) := by
  rcases h with ⟨unmarked, rfl⟩ | ⟨back, h⟩
  · exact .inl ⟨fun h => (List.infix_cons_iff.1 h).elim hn unmarked, rfl⟩
  · exact .inr ⟨back, h.cons hn⟩

theorem IsCut.of_begins (h : mark <+: line) : IsCut mark line [] := by
  obtain ⟨back, rfl⟩ := h
  exact .inr ⟨back, .nil mark back⟩

theorem pieces_cons (sep c : Char) (cs : List Char) : ∃ p ps, pieces sep cs = p :: ps ∧
    pieces sep (c :: cs) = if c = sep then [] :: p :: ps else (c :: p) :: ps := by
  cases hp : pieces sep cs with
  | nil => exact absurd hp pieces_ne_nil
  | cons p ps => exact ⟨p, ps, rfl, by rw [pieces, hp]⟩

theorem head?_pieces (sep : Char) (cs : List Char) :
    (pieces sep cs).head? = some (cs.takeWhile (· != sep)) := by
  induction cs with
  | nil => rfl
  | cons c cs ih =>
    obtain ⟨p, ps, hp, hcons⟩ := pieces_cons sep c cs
    rw [hp] at ih
    obtain rfl := Option.some.inj ih
    rw [hcons]
    by_cases hc : c = sep <;> simp [hc]

theorem prefix_takeWhile_iff (hmark : sep ∉ mark) :
    mark <+: cs.takeWhile (· != sep) ↔ mark <+: cs := by
  refine ⟨fun h => h.trans ( List.takeWhile_prefix _), ?_⟩
  rintro ⟨back, rfl⟩
  have kept : ∀ c ∈ mark, (c != sep) = true := fun c hc => bne_iff_ne.2 fun he => hmark (he ▸ hc)
  rw [List.takeWhile_append_of_pos kept]
  exact List.prefix_append mark _

theorem exists_mem_pieces_of_infix (hmark : sep ∉ mark) (h : mark <:+: cs) :
    ∃ p ∈ pieces sep cs, mark <:+: p := by
  induction cs with
  | nil => exact ⟨[], List.mem_singleton_self _, h⟩
  | cons c cs ih =>
    rcases List.infix_cons_iff.1 h with h | h
    · refine ⟨_, List.mem_of_mem_head? (head?_pieces sep (c :: cs)), ?_⟩
      exact ((prefix_takeWhile_iff hmark).2 h).isInfix
    · obtain ⟨q, hq, within⟩ := ih h
      obtain ⟨p, ps, hp, hcons⟩ := pieces_cons sep c cs
      rw [hp] at hq
      rw [hcons]
      split
      · exact ⟨q, List.mem_cons_of_mem [] hq, within⟩
      · rcases List.mem_cons.1 hq with rfl | hq
        · exact ⟨c :: q, List.mem_cons_self, within.trans (List.suffix_cons c q).isInfix⟩
        · exact ⟨q, List.mem_cons_of_mem _ hq, within⟩

end Imageboard.Text
