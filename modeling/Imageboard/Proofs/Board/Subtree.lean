import Imageboard.Lifecycle.Cascade
import Imageboard.Proofs.Board.Edges
import Mathlib.Data.Set.Insert

namespace Imageboard.Board

variable {b : Board} {root id c p : String} {ahead queue : List String}

/-- The ids that one comes to from an id by going from parents to children, the id among them. -/
def below (b : Board) (root : String) : Set String :=
  {id | Relation.ReflTransGen (fun p c => b.Answers c p) root id}

theorem mem_walk_of_mem_queue (hq : c ∈ queue) (ha : c ∈ ahead) : c ∈ b.walk ahead queue := by
  fun_induction walk b ahead queue with
  | case1 ahead => cases hq
  | case2 ahead id queue hid ahead' ih =>
    by_cases hc : c = id
    · exact hc ▸ List.mem_cons_self
    · have hq' : c ∈ queue := (List.mem_cons.1 hq).resolve_left hc
      exact List.mem_cons_of_mem _ (ih (List.mem_append_left _ hq') (mem_without.2 ⟨ha, hc⟩))
  | case3 ahead id queue hid ih =>
    rcases List.mem_cons.1 hq with rfl | hq
    · exact absurd ha hid
    · exact ih hq ha

/-- What is ahead and answers something met is met as well. -/
theorem walk_closed (hp : p ∈ b.walk ahead queue) (he : b.Answers c p) (ha : c ∈ ahead) :
    c ∈ b.walk ahead queue := by
  fun_induction walk b ahead queue with
  | case1 ahead => cases hp
  | case2 ahead id queue hid ahead' ih =>
    by_cases hc : c = id
    · exact hc ▸ List.mem_cons_self
    have ha' : c ∈ ahead' := mem_without.2 ⟨ha, hc⟩
    refine List.mem_cons_of_mem _ ?_
    rcases List.mem_cons.1 hp with rfl | hp
    · -- the children of the id at hand join the queue
      refine mem_walk_of_mem_queue (List.mem_append_right _ ?_) ha'
      exact List.mem_filter.2 ⟨mem_childIds.2 he, List.contains_iff_mem.2 ha'⟩
    · exact ih hp ha'
  | case3 ahead id queue hid ih => exact ih hp ha

theorem walk_subset {ids : Set String} (hids : ∀ p c, p ∈ ids → b.Answers c p → c ∈ ids)
    (hq : ∀ q ∈ queue, q ∈ ids) (hc : c ∈ b.walk ahead queue) : c ∈ ids := by
  fun_induction walk b ahead queue with
  | case1 ahead => cases hc
  | case2 ahead id queue hid ahead' ih =>
    have hid' : id ∈ ids := hq id List.mem_cons_self
    rcases List.mem_cons.1 hc with rfl | hc
    · exact hid'
    · refine ih (fun q hq' => ?_) hc
      rcases List.mem_append.1 hq' with hq' | hq'
      · exact hq q (List.mem_cons_of_mem _ hq')
      · exact hids id q hid' (mem_childIds.1 (List.mem_filter.1 hq').1)
  | case3 ahead id queue hid ih => exact ih (fun q hq' => hq q (List.mem_cons_of_mem _ hq')) hc

theorem mem_subtree_iff : id ∈ b.subtree root ↔ id ∈ b.below root := by
  unfold subtree
  constructor
  · refine walk_subset (fun p c hp he => Relation.ReflTransGen.tail hp he) fun q hq => ?_
    rw [List.mem_singleton.1 hq]
    exact Relation.ReflTransGen.refl
  · intro h
    induction h with
    | refl => exact mem_walk_of_mem_queue List.mem_cons_self List.mem_cons_self
    | tail _ he ih => exact walk_closed ih he (List.mem_cons_of_mem _ (List.mem_map_of_mem he))

end Imageboard.Board
