import Imageboard.Lifecycle.Linking
import Imageboard.Proofs.Board.Table
import Mathlib.Logic.Relation

namespace Imageboard.Board

variable {b : Board} {id c p q : String} {ids ahead : List String} {e : Edge}

/-- One object answers another by an edge from the child `c` to the parent `p`. -/
def Answers (b : Board) (c p : String) : Prop :=
  ⟨c, p⟩ ∈ b.edges.rows

instance : Decidable (b.Answers c p) :=
  inferInstanceAs (Decidable (_ ∈ b.edges.rows))

/-- An edge to a parent, which the edge of a root is not. -/
def Ascends (b : Board) (c p : String) : Prop :=
  b.Answers c p ∧ p ≠ ""

def Acyclic (b : Board) : Prop :=
  ∀ id, ¬ Relation.TransGen b.Ascends id id

/-- The child of an edge is on no edge of a board yet, and is not its own parent. -/
def IsFresh (b : Board) (e : Edge) : Prop :=
  e.parent ≠ e.child ∧ ∀ d ∈ b.edges.rows, d.child ≠ e.child ∧ d.parent ≠ e.child

instance (e : Edge) : Decidable (b.IsFresh e) :=
  inferInstanceAs (Decidable (_ ∧ _))

theorem mem_childIds : c ∈ b.childIds p ↔ b.Answers c p := by
  unfold childIds Answers
  simp only [List.mem_map, List.mem_filter, beq_iff_eq]
  constructor
  · rintro ⟨⟨c', p'⟩, ⟨he, rfl⟩, rfl⟩
    exact he
  · intro he
    exact ⟨⟨c, p⟩, ⟨he, rfl⟩, rfl⟩

theorem edge_key_injective : Function.Injective (Keyed.key : Edge → List String) := by
  rintro ⟨c, p⟩ ⟨c', p'⟩ h
  obtain ⟨rfl, h⟩ := List.cons.inj h
  obtain ⟨rfl, -⟩ := List.cons.inj h
  rfl

theorem isChild_iff : b.isChild p c = true ↔ b.Answers c p :=
  Table.contains_key_iff (t := b.edges) (a := ⟨c, p⟩) edge_key_injective

theorem filter_edges (b : Board) (c p : String) :
    (b.edges.rows.filter fun e => e.child == c && e.parent == p) =
      if b.isChild p c then [⟨c, p⟩] else [] := by
  have same : (b.edges.rows.filter fun e => e.child == c && e.parent == p) =
      b.edges.rows.filter (· == ⟨c, p⟩) := by
    refine List.filter_congr fun e _ => ?_
    rw [Bool.eq_iff_iff, Bool.and_eq_true, beq_iff_eq, beq_iff_eq, beq_iff_eq, Edge.mk.injEq]
  rw [same, List.filter_beq]
  by_cases h : b.Answers c p
  · rw [List.count_eq_one_of_mem b.edges.nodup_rows h, if_pos (isChild_iff.2 h)]
    rfl
  · rw [List.count_eq_zero_of_not_mem h, if_neg (mt isChild_iff.1 h)]
    rfl

theorem mem_without : c ∈ without ids id ↔ c ∈ ids ∧ c ≠ id := by
  simp [without]

theorem mem_recordEdge : e ∈ (b.recordEdge c p).1.edges.rows ↔ e ∈ b.edges.rows ∨ e = ⟨c, p⟩ :=
  Table.mem_insertNew_iff (a := ⟨c, p⟩) edge_key_injective

theorem edges_link {o : Object} {published : Instant} :
    (b.link o published).1.edges = (b.recordEdge o.id (o.replyParent?.getD "")).1.edges := by
  unfold link
  split
  next h =>
    rw [h]
    rfl
  next parent h =>
    rw [h]
    dsimp only
    split <;> split <;> rfl

theorem rootOf_congr {c : Board} (h : c.edges = b.edges) : c.rootOf id = b.rootOf id := by
  have parent (id : String) : c.parentOf id = b.parentOf id := by
    unfold parentOf
    rw [h]
  have climb (ahead : List String) (id : String) : c.climb ahead id = b.climb ahead id := by
    fun_induction climb b ahead id with
    | case1 ahead id hnone => rw [Board.climb, parent, hnone]
    | case2 ahead id q hq hmem ih => rw [Board.climb, parent, hq]; simp only [if_pos hmem, ih]
    | case3 ahead id q hq hmem => rw [Board.climb, parent, hq]; simp only [if_neg hmem]
  unfold rootOf parents
  rw [h, climb]

theorem ascends_of_parentOf (h : b.parentOf id = some p) : b.Ascends id p := by
  unfold parentOf at h
  obtain ⟨⟨c, p'⟩, he, rfl⟩ := Option.map_eq_some_iff.1 h
  have hc := List.find?_some he
  simp only [Bool.and_eq_true, beq_iff_eq, bne_iff_ne] at hc
  exact ⟨hc.1 ▸ List.mem_of_find?_eq_some he, hc.2⟩

theorem not_ascends_of_parentOf (h : b.parentOf id = none) : ¬ b.Ascends id p := by
  rintro ⟨he, hp⟩
  have hnone := List.find?_eq_none.1 (Option.map_eq_none_iff.1 h) _ he
  simp [hp] at hnone

theorem mem_parents_of_answers (h : b.Answers c p) : p ∈ b.parents :=
  List.mem_map_of_mem h

theorem rootOf_mem (b : Board) (id : String) : b.rootOf id = id ∨ b.rootOf id ∈ b.parents := by
  unfold rootOf
  generalize without b.parents id = ahead
  fun_induction climb b ahead id with
  | case1 => exact .inl rfl
  | case2 ahead id q hq hmem ih =>
    refine .inr (ih.elim (fun h => ?_) fun h => h)
    rw [h]
    exact mem_parents_of_answers (ascends_of_parentOf hq).1
  | case3 => exact .inl rfl

/-- The way up does not stop at a parent that was met before: that one would be on a cycle. -/
theorem not_ascends_climb (hb : b.Acyclic)
    (h : ∀ q ∈ b.parents, q ∉ ahead → Relation.ReflTransGen b.Ascends q id) :
    ¬ b.Ascends (b.climb ahead id) p := by
  fun_induction climb b ahead id with
  | case1 ahead id hnone => exact not_ascends_of_parentOf hnone
  | case2 ahead id q hq hmem ih =>
    refine ih fun x hx hnot => ?_
    by_cases he : x = q
    · exact he ▸ .refl
    · exact (h x hx fun hahead => hnot (mem_without.2 ⟨hahead, he⟩)).tail (ascends_of_parentOf hq)
  | case3 ahead id q hq hmem =>
    have up := ascends_of_parentOf hq
    exact absurd (.head' up (h q (mem_parents_of_answers up.1) hmem)) (hb id)

theorem not_ascends_rootOf (hb : b.Acyclic) : ¬ b.Ascends (b.rootOf id) p := by
  refine not_ascends_climb hb fun q hq hnot => ?_
  have he : q = id := Classical.byContradiction fun hne => hnot (mem_without.2 ⟨hq, hne⟩)
  exact he ▸ .refl

/-- Edges stay without a cycle where some go and one with a fresh child comes. -/
theorem Acyclic.grow {b' : Board} {new : Option Edge} (hb : b.Acyclic)
    (h : ∀ e ∈ b'.edges.rows, e ∈ b.edges.rows ∨ new = some e) (hnew : ∀ e ∈ new, b.IsFresh e) :
    b'.Acyclic := by
  have fresh {x y : String} {e : Edge} (he : new = some e) (hxy : b'.Ascends x y) :
    y ≠ e.child := by
    rcases h ⟨x, y⟩ hxy.1 with hold | hxy
    · exact ((hnew e he).2 _ hold).2
    · cases Option.some.inj (hxy.symm.trans he)
      exact (hnew _ he).1
  -- nothing leads to the new child, so the way from any other id is made of the edges before
  have up {x y : String} (hxy : Relation.TransGen b'.Ascends x y) (hx : ∀ e ∈ new, x ≠ e.child) :
      Relation.TransGen b.Ascends x y ∧ ∀ e ∈ new, y ≠ e.child := by
    have old {x y : String} (hxy : b'.Ascends x y) (hx : ∀ e ∈ new, x ≠ e.child) : b.Ascends x y :=
      ⟨(h ⟨x, y⟩ hxy.1).resolve_right fun he => hx _ he rfl, hxy.2⟩
    induction hxy with
    | single hxy => exact ⟨.single (old hxy hx), fun e he => fresh he hxy⟩
    | tail _ hyz ih => exact ⟨ih.1.tail (old hyz ih.2), fun e he => fresh he hyz⟩
  intro id hcycle
  obtain ⟨last, -, hlast⟩ := Relation.TransGen.tail'_iff.1 hcycle
  exact hb id (up hcycle fun e he => fresh he hlast).1

end Imageboard.Board
