import Imageboard.Proofs.Board.Subtree
import Imageboard.Proofs.Board.Tiers

namespace Imageboard

namespace Table

variable {t : Table Row} {ids ids' : Set String} {m : String} {r : Row}

def mediaIds (t : Table Row) (ids : Set String) : Set String :=
  {m | m ≠ "" ∧ ∃ r ∈ t.rows, r.id ∈ ids ∧ m ∈ r.media}

/-- The ids that a removal of some ids reaches in a table: these, and those of their media. -/
def reach (t : Table Row) (ids : Set String) : Set String :=
  ids ∪ t.mediaIds ids

theorem mem_reach : m ∈ t.reach ids ↔ m ∈ ids ∨ m ∈ t.mediaIds ids :=
  Iff.rfl

@[simp] theorem mediaIds_empty : t.mediaIds ∅ = ∅ := by
  simp [mediaIds]

theorem mediaIds_union : t.mediaIds (ids ∪ ids') = t.mediaIds ids ∪ t.mediaIds ids' := by
  ext m
  simp only [mediaIds, Set.mem_ofPred_eq, Set.mem_union]
  constructor
  · rintro ⟨hm, r, hr, hid | hid, hl⟩
    · exact .inl ⟨hm, r, hr, hid, hl⟩
    · exact .inr ⟨hm, r, hr, hid, hl⟩
  · rintro (⟨hm, r, hr, hid, hl⟩ | ⟨hm, r, hr, hid, hl⟩)
    · exact ⟨hm, r, hr, .inl hid, hl⟩
    · exact ⟨hm, r, hr, .inr hid, hl⟩

@[simp] theorem reach_empty : t.reach ∅ = ∅ := by
  simp [reach]

theorem mem_reach_union : m ∈ t.reach (ids ∪ ids') ↔ m ∈ t.reach ids ∨ m ∈ t.reach ids' := by
  simp only [reach, mediaIds_union, Set.mem_union]
  exact or_or_or_comm

theorem isMediaOf_iff (t : Table Row) (id : String) (h : r.id ≠ "") :
    Board.isMediaOf t id r = true ↔ r.id ∈ t.mediaIds {id} := by
  unfold Board.isMediaOf
  cases hg : t.get? [id] with
  | none =>
    refine iff_of_false nofun ?_
    rintro ⟨-, owner, ho, rfl, -⟩
    exact get?_eq_none_iff.1 hg owner ho rfl
  | some owner =>
    obtain ⟨ho, hk⟩ := get?_eq_some_iff.1 hg
    have hid : owner.id = id := List.head_eq_of_cons_eq hk
    dsimp only
    rw [List.contains_iff_mem]
    constructor
    · exact fun hl => ⟨h, owner, ho, hid, hl⟩
    · rintro ⟨-, other, hother, rfl, hl⟩
      exact eq_of_key (t := t) ho hother hk ▸ hl

end Table

theorem setOf_mem_single {id : String} : {x | x ∈ [id]} = ({id} : Set String) := by
  ext x
  exact List.mem_singleton

namespace Board

theorem setOf_mem_subtree {b : Board} {id : String} :
    {x | x ∈ (b.subtree id).reverse} = b.below id := by
  ext x
  exact List.mem_reverse.trans mem_subtree_iff

theorem mem_edges_erase {b : Board} {id : String} {e : Edge} :
    e ∈ (b.erase id).1.edges.rows ↔ e ∈ b.edges.rows ∧ e.child ≠ id := by
  have step : e ∈ (b.erase id).1.edges.rows ↔
      e ∈ (b.edges.filter fun e => !(e.child == id)).rows := Iff.rfl
  simp [step]

def AllNamed (b : Board) : Prop :=
  ∀ t, ∀ r ∈ (b.tier t).rows, r.id ≠ ""

end Board

namespace Site

/-- What each object of a cascade keeps true of the objects done so far, of the board and of the
count of rows holds of the whole cascade. -/
theorem cascade_induct {s : Site} {f : Board → String → Board × Nat} {ids : List String} {n : Node}
    {R : Set String → Board → Nat → Prop} (start : R ∅ n.board 0)
    (step : ∀ done id b k, done ⊆ {id | id ∈ ids} → id ∈ ids → R done b k →
      R (done ∪ {id}) (f b id).1 (k + (f b id).2)) :
    R {id | id ∈ ids} (s.cascade f ids n).1.board (s.cascade f ids n).2.rows := by
  suffices h : ∀ before todo (c : Cascade), ids = before ++ todo →
      R {id | id ∈ before} c.board c.rows → R {id | id ∈ ids}
        (todo.foldl (s.cascadeStep f) c).board (todo.foldl (s.cascadeStep f) c).rows by
    refine h [] ids { board := n.board } rfl ?_
    simpa using start
  intro before todo
  induction todo generalizing before with
  | nil =>
    intro c he hR
    simpa [he] using hR
  | cons id todo ih =>
    intro c he hR
    refine ih (before ++ [id]) (s.cascadeStep f c id) (by simp [he]) ?_
    have hdone : {x | x ∈ before ++ [id]} = {x | x ∈ before} ∪ {id} := by
      ext x
      exact List.mem_append.trans (or_congr_right List.mem_singleton)
    rw [hdone]
    refine step _ id c.board c.rows (fun x hx => ?_) ?_ hR
    · exact he ▸ List.mem_append_left _ hx
    · exact he ▸ List.mem_append_right _ List.mem_cons_self

end Site
end Imageboard
