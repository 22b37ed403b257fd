import Imageboard.Board.Table
import Mathlib.Data.List.Sort

namespace Imageboard.Table

open Keyed (key)

variable {α : Type} [Keyed α] {t : Table α} {a c : α} {k : List String}

theorem eq_of_key (ha : a ∈ t.rows) (hc : c ∈ t.rows) (h : key a = key c) : a = c := by
  obtain ⟨rows, hs⟩ := t
  simp only at ha hc
  induction rows with
  | nil => cases ha
  | cons b bs ih =>
    obtain ⟨hb, hs⟩ := List.pairwise_cons.1 hs
    rcases List.mem_cons.1 ha with rfl | ha' <;> rcases List.mem_cons.1 hc with rfl | hc'
    · rfl
    · exact absurd (h ▸ hb c hc') (List.lt_irrefl _)
    · exact absurd (h ▸ hb a ha') (List.lt_irrefl _)
    · exact ih hs ha' hc'

theorem nodup_rows (t : Table α) : t.rows.Nodup := by
  refine List.Pairwise.imp ?_ t.sorted
  rintro a _ hlt rfl
  exact List.lt_irrefl _ hlt

theorem eq_of_mem_iff {u : Table α} (h : ∀ a, a ∈ t.rows ↔ a ∈ u.rows) : t = u := by
  have irrefl : Std.Irrefl fun a b : α => key a < key b := ⟨fun a => List.lt_irrefl (key a)⟩
  have antisymm : Std.Antisymm fun a b : α => key a < key b :=
    ⟨fun a b hab hba => absurd (List.lt_trans hab hba) (List.lt_irrefl _)⟩
  exact Table.ext (List.Pairwise.eq_of_mem_iff t.sorted u.sorted h)

theorem get?_eq_some_iff : t.get? k = some a ↔ a ∈ t.rows ∧ key a = k := by
  constructor
  · intro h
    have hk := List.find?_some h
    exact ⟨List.mem_of_find?_eq_some h, by simpa using hk⟩
  · rintro ⟨ha, rfl⟩
    cases h : t.get? (key a) with
    | none => simpa using List.find?_eq_none.1 h a ha
    | some c =>
      have hk := List.find?_some h
      rw [eq_of_key (List.mem_of_find?_eq_some h) ha (by simpa using hk)]

theorem get?_eq_none_iff : t.get? k = none ↔ ∀ a ∈ t.rows, key a ≠ k := by
  simp [get?, List.find?_eq_none]

theorem contains_iff : t.contains k = true ↔ ∃ a ∈ t.rows, key a = k := by
  simp [contains]

@[simp] theorem mem_filter {p : α → Bool} : a ∈ (t.filter p).rows ↔ a ∈ t.rows ∧ p a = true := by
  simp [filter]

theorem rows_update (t : Table α) (p : α → Bool) (f : α → α) (keeps : ∀ a, key (f a) = key a) :
    (t.update p f keeps).1.rows = t.rows.map fun a => if p a then f a else a :=
  rfl

theorem mem_update {p : α → Bool} {f : α → α} {keeps : ∀ a, key (f a) = key a} :
    a ∈ (t.update p f keeps).1.rows ↔ ∃ r ∈ t.rows, (if p r then f r else r) = a := by
  simp [update]

theorem mem_update_self_iff {p : α → Bool} {f : α → α} {keeps : ∀ a, key (f a) = key a}
    (ha : a ∈ t.rows) : a ∈ (t.update p f keeps).1.rows ↔ (p a = true → f a = a) := by
  rw [mem_update]
  constructor
  · rintro ⟨r, hr, he⟩ hp
    have hk : key r = key a := by
      rw [← he]
      split
      · exact (keeps r).symm
      · rfl
    obtain rfl := eq_of_key hr ha hk
    rwa [if_pos hp] at he
  · intro h
    refine ⟨a, ha, ?_⟩
    split
    · exact h ‹_›
    · rfl

/-- Two changes of one kind are one of all the rows that either meets, if a second change of a row
makes no difference. -/
theorem update_update {p q : α → Bool} {f : α → α} {keeps : ∀ a, key (f a) = key a}
    (h : ∀ a, f (f a) = f a) :
    ((t.update p f keeps).1.update q f keeps).1 = (t.update (fun a => p a || q a) f keeps).1 := by
  refine Table.ext ?_
  simp only [update, List.map_map]
  refine List.map_congr_left fun a _ => ?_
  simp only [Function.comp_apply]
  by_cases hp : p a = true
  · simp [hp, h]
  · simp [hp]

theorem mem_place_iff {rows : List α} (hs : InKeyOrder rows) :
    c ∈ place a rows ↔ c = a ∨ (c ∈ rows ∧ key c ≠ key a) := by
  induction rows with
  | nil => simp [place]
  | cons b bs ih =>
    obtain ⟨hb, hs⟩ := List.pairwise_cons.1 hs
    unfold place
    split
    next hlt =>
      -- all rows lie behind the new one
      have hne : ∀ d ∈ b :: bs, key d ≠ key a := by
        intro d hd he
        rcases List.mem_cons.1 hd with rfl | hd
        · exact List.lt_irrefl _ (he ▸ hlt)
        · exact List.lt_irrefl _ (he ▸ List.lt_trans hlt (hb d hd))
      simp only [List.mem_cons (a := c) (b := a)]
      exact or_congr_right ⟨fun hc => ⟨hc, hne c hc⟩, fun hc => hc.1⟩
    next hlt =>
      split
      next heq =>
        have hne : ∀ d ∈ bs, key d ≠ key a := fun d hd he =>
          List.lt_irrefl _ (he ▸ heq ▸ hb d hd)
        simp only [List.mem_cons]
        constructor
        · rintro (rfl | hc)
          · exact .inl rfl
          · exact .inr ⟨.inr hc, hne c hc⟩
        · rintro (rfl | ⟨rfl | hc, hk⟩)
          · exact .inl rfl
          · exact absurd heq.symm hk
          · exact .inr hc
      next hne =>
        simp only [List.mem_cons, ih hs]
        constructor
        · rintro (rfl | rfl | ⟨hc, hk⟩)
          · exact .inr ⟨.inl rfl, fun h => hne h.symm⟩
          · exact .inl rfl
          · exact .inr ⟨.inr hc, hk⟩
        · rintro (rfl | ⟨rfl | hc, hk⟩)
          · exact .inr (.inl rfl)
          · exact .inl rfl
          · exact .inr (.inr ⟨hc, hk⟩)

theorem mem_put : c ∈ (t.put a).rows ↔ c = a ∨ (c ∈ t.rows ∧ key c ≠ key a) :=
  mem_place_iff t.sorted

theorem get?_put : (t.put a).get? k = if key a = k then some a else t.get? k := by
  ext c
  rw [get?_eq_some_iff, mem_put]
  split
  next he =>
    rw [Option.some.injEq]
    constructor
    · rintro ⟨rfl | ⟨-, hne⟩, hc⟩
      · rfl
      · exact absurd (hc.trans he.symm) hne
    · rintro rfl
      exact ⟨.inl rfl, he⟩
  next hne =>
    rw [get?_eq_some_iff]
    constructor
    · rintro ⟨rfl | ⟨hmem, -⟩, hc⟩
      · exact absurd hc hne
      · exact ⟨hmem, hc⟩
    · intro ⟨hmem, hc⟩
      exact ⟨.inr ⟨hmem, fun he => hne (he.symm.trans hc)⟩, hc⟩

theorem put_of_mem (h : a ∈ t.rows) : t.put a = t := by
  refine eq_of_mem_iff fun c => ?_
  rw [mem_put]
  constructor
  · rintro (rfl | ⟨hc, -⟩)
    · exact h
    · exact hc
  · intro hc
    by_cases hk : key c = key a
    · exact .inl (eq_of_key hc h hk)
    · exact .inr ⟨hc, hk⟩

theorem mem_insertNew :
    c ∈ (t.insertNew a).1.rows ↔ c ∈ t.rows ∨ ((∀ d ∈ t.rows, key d ≠ key a) ∧ c = a) := by
  unfold insertNew
  by_cases h : t.contains (key a) = true
  · obtain ⟨d, hd, hk⟩ := contains_iff.1 h
    rw [if_pos h]
    exact ⟨.inl, fun hc => hc.elim id fun hc => absurd hk (hc.1 d hd)⟩
  · rw [if_neg h]
    have hne : ∀ d ∈ t.rows, key d ≠ key a := fun d hd hk => h (contains_iff.2 ⟨d, hd, hk⟩)
    rw [mem_put]
    constructor
    · rintro (rfl | ⟨hc, -⟩)
      · exact .inr ⟨hne, rfl⟩
      · exact .inl hc
    · rintro (hc | ⟨-, rfl⟩)
      · exact .inr ⟨hc, hne c hc⟩
      · exact .inl rfl

theorem insert?_eq_some_iff {u : Table α} :
    t.insert? a = some u ↔ (∀ d ∈ t.rows, key d ≠ key a) ∧ t.put a = u := by
  unfold insert?
  split
  next hc =>
    obtain ⟨d, hd, hk⟩ := contains_iff.1 hc
    exact ⟨fun h => by simp at h, fun h => absurd hk (h.1 d hd)⟩
  next hc =>
    have hne : ∀ d ∈ t.rows, key d ≠ key a := fun d hd hk => hc (contains_iff.2 ⟨d, hd, hk⟩)
    exact ⟨fun h => ⟨hne, Option.some.inj h⟩, fun h => congrArg some h.2⟩

section Injective

variable (inj : Function.Injective (key : α → List String))
include inj

theorem contains_key_iff : t.contains (key a) = true ↔ a ∈ t.rows := by
  rw [contains_iff]
  exact ⟨fun ⟨d, hd, hk⟩ => inj hk ▸ hd, fun ha => ⟨a, ha, rfl⟩⟩

theorem mem_insertNew_iff : c ∈ (t.insertNew a).1.rows ↔ c ∈ t.rows ∨ c = a := by
  rw [mem_insertNew]
  constructor
  · exact Or.imp_right And.right
  · rintro (hc | rfl)
    · exact .inl hc
    · by_cases hc : c ∈ t.rows
      · exact .inl hc
      · exact .inr ⟨fun d hd hk => hc (inj hk ▸ hd), rfl⟩

theorem insertNew_added_iff : (t.insertNew a).2 = true ↔ a ∉ t.rows := by
  rw [← contains_key_iff inj]
  unfold insertNew
  split
  next h => exact iff_of_false Bool.false_ne_true fun hn => hn h
  next h => exact iff_of_true rfl h

end Injective

end Imageboard.Table
