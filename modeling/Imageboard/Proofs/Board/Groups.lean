import Imageboard.Board.Replies
import Mathlib.Data.List.Nodup

namespace Imageboard.Groups

variable {α : Type} {groups : Groups α} {pairs : List (String × α)} {key k : String} {a : α}
  {as : List α}

theorem lookup_cons (k' : String) (as : List α) (groups : Groups α) (k : String) :
    List.lookup k ((k', as) :: groups) = if k = k' then some as else groups.lookup k := by
  rw [List.lookup_cons]
  by_cases hk : k = k'
  · rw [if_pos hk, beq_iff_eq.2 hk]
  · rw [if_neg hk, beq_false_of_ne hk]

theorem lookup_push (groups : Groups α) (key : String) (a : α) (k : String) :
    (push key a groups).lookup k =
      if k = key then some (groups.under key ++ [a]) else groups.lookup k := by
  unfold under
  induction groups with
  | nil => exact lookup_cons ..
  | cons g groups ih =>
    obtain ⟨k', as⟩ := g
    unfold push
    rw [lookup_cons k' as groups k, lookup_cons k' as groups key]
    split
    next heq =>
      rw [if_pos heq.symm, Option.getD_some, lookup_cons, heq]
      split <;> rfl
    next hne =>
      rw [if_neg (Ne.symm hne), lookup_cons, ih]
      by_cases hk : k = k'
      · rw [if_pos hk, if_pos hk, if_neg (hk ▸ hne)]
      · rw [if_neg hk, if_neg hk]

theorem under_push (groups : Groups α) (key : String) (a : α) (k : String) :
    (push key a groups).under k = if key = k then groups.under k ++ [a] else groups.under k := by
  rw [under, lookup_push]
  by_cases hk : k = key
  · rw [if_pos hk, if_pos hk.symm, hk, Option.getD_some]
  · rw [if_neg hk, if_neg (Ne.symm hk), under]

/-- Under a key stands what was said to stand there, in the order in which it was said. -/
theorem under_ofPairs (pairs : List (String × α)) (k : String) :
    (ofPairs pairs).under k = (pairs.filter (·.1 == k)).map (·.2) := by
  suffices h : ∀ groups : Groups α,
      under (pairs.foldl (fun groups p => push p.1 p.2 groups) groups) k =
      groups.under k ++ (pairs.filter (·.1 == k)).map (·.2) from h []
  induction pairs with
  | nil => simp
  | cons p pairs ih =>
    intro groups
    rw [List.foldl_cons, ih, under_push]
    by_cases hk : p.1 = k <;> simp [hk]

structure Filed (groups : Groups α) : Prop where
  nodup : (groups.map Prod.fst).Nodup
  filled : ∀ g ∈ groups, g.2 ≠ []

theorem mem_push {g : String × List α} (h : g ∈ push key a groups) :
    g.1 = key ∧ g.2 ≠ [] ∨ g ∈ groups := by
  induction groups with
  | nil =>
    obtain rfl := List.mem_singleton.1 h
    exact .inl ⟨rfl, List.cons_ne_nil _ _⟩
  | cons d groups ih =>
    unfold push at h
    split at h
    next heq =>
      rcases List.mem_cons.1 h with rfl | h
      · exact .inl ⟨heq, List.append_ne_nil_of_right_ne_nil _ (List.cons_ne_nil _ _)⟩
      · exact .inr (List.mem_cons_of_mem _ h)
    next =>
      rcases List.mem_cons.1 h with rfl | h
      · exact .inr List.mem_cons_self
      · exact (ih h).imp_right (List.mem_cons_of_mem _)

theorem Filed.push (h : Filed groups) (key : String) (a : α) : Filed (push key a groups) where
  nodup := by
    have keys := h.nodup
    induction groups with
    | nil => exact List.nodup_singleton key
    | cons d groups ih =>
      rw [List.map_cons, List.nodup_cons] at keys
      unfold Groups.push
      split
      next => exact List.nodup_cons.2 keys
      next hne =>
        refine List.nodup_cons.2 ⟨fun hd => ?_, ih ⟨keys.2, fun g hg =>
          h.filled g (List.mem_cons_of_mem _ hg)⟩ keys.2⟩
        obtain ⟨g, hg, he⟩ := List.mem_map.1 hd
        rcases mem_push hg with ⟨hkey, -⟩ | hg
        · exact hne (he.symm.trans hkey)
        · exact keys.1 (he ▸ List.mem_map_of_mem hg)
  filled g hg := (mem_push hg).elim (fun new => new.2) (h.filled g)

theorem filed_ofPairs (pairs : List (String × α)) : Filed (ofPairs pairs) :=
  List.foldlRecOn (motive := Filed) pairs _ ⟨List.nodup_nil, nofun⟩ fun _ h p _ => h.push p.1 p.2

theorem Filed.lookup_eq_some_iff (h : Filed groups) :
    groups.lookup k = some as ↔ (k, as) ∈ groups := by
  induction groups with
  | nil => exact iff_of_false nofun List.not_mem_nil
  | cons d groups ih =>
    obtain ⟨k', as'⟩ := d
    obtain ⟨first, rest⟩ := List.nodup_cons.1 h.nodup
    have tail : Filed groups := ⟨rest, fun g hg => h.filled g (List.mem_cons_of_mem _ hg)⟩
    rw [lookup_cons, List.mem_cons, Prod.mk.injEq]
    split
    next hk =>
      subst hk
      have absent : (k, as) ∉ groups := fun hmem =>
        first (List.mem_map.2 ⟨_, hmem, rfl⟩)
      rw [Option.some.injEq, or_iff_left absent, and_iff_right rfl]
      exact eq_comm
    next hk => rw [ih tail, or_iff_right fun he => hk he.1]

theorem Filed.lookup_eq (h : Filed groups) (k : String) :
    groups.lookup k = if groups.under k = [] then none else some (groups.under k) := by
  unfold under
  cases found : groups.lookup k with
  | none => rfl
  | some as =>
    have filled : as ≠ [] := h.filled (k, as) (h.lookup_eq_some_iff.1 found)
    rw [Option.getD_some, if_neg filled]

end Imageboard.Groups
