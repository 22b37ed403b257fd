import Imageboard.Proofs.Lifecycle.Cascade

namespace Imageboard

namespace Table

variable {α : Type} [Keyed α] {t : Table α}

theorem remove_add_length (p : α → Bool) :
    (t.remove p).2 + (t.remove p).1.rows.length = t.rows.length := by
  have h := List.length_eq_countP_add_countP p (l := t.rows)
  have hf : (t.remove p).1.rows.length = t.rows.countP fun a => !p a :=
    List.countP_eq_length_filter.symm
  rw [hf]
  simp_all [remove, count]

end Table

namespace Board

variable {b b' b'' : Board} {ids ids' : Set String} {id m : String} {k k' : Nat}

def size (b : Board) : Nat :=
  b.authored.rows.length + b.replicas.rows.length

/-- What an erasure of some ids takes out: the rows that it reaches in each tier, the edges from the
ids to their parents, the flags of the ids and the complaints about them. It tells how many rows it
took out. -/
structure Erased (b b' : Board) (ids : Set String) (rows : Nat) : Prop where
  tiers : ∀ t r, r ∈ (b'.tier t).rows ↔ r ∈ (b.tier t).rows ∧ r.id ∉ (b.tier t).reach ids
  edges : ∀ e, e ∈ b'.edges.rows ↔ e ∈ b.edges.rows ∧ e.child ∉ ids
  flags : ∀ f m, m ∈ (b'.flagged f).rows ↔ m ∈ (b.flagged f).rows ∧ m.target ∉ ids
  reports : ∀ r, r ∈ b'.reports.rows ↔ r ∈ b.reports.rows ∧ r.id ∉ ids
  rest : b' = { b with
    authored := b'.authored
    replicas := b'.replicas
    edges := b'.edges
    sticky := b'.sticky
    locked := b'.locked
    reports := b'.reports }
  rows : rows + b'.size = b.size

/-- None of some ids is the attachment or the preview of a row of another of them. -/
def Apart (b : Board) (ids : Set String) : Prop :=
  ∀ t, ∀ r ∈ (b.tier t).rows, r.id ∈ ids → ∀ m ∈ r.media, m ∈ ids → m = "" ∨ m = r.id

theorem Apart.mono (h : b.Apart ids') (hs : ids ⊆ ids') : b.Apart ids :=
  fun t r hr hid m hm hids => h t r hr (hs hid) m hm (hs hids)

namespace Erased

theorem refl (b : Board) : b.Erased b ∅ 0 where
  tiers t r := by simp
  edges e := by simp
  flags f m := by simp
  reports r := by simp
  rest := rfl
  rows := Nat.zero_add _

/-- An erasure leaves the links of ids apart from its own, so beyond its reach the reach of these is
as before. -/
theorem mem_reach_iff (h : b.Erased b' ids k) (hb : b.Apart (ids ∪ ids')) (t : Tier)
    (hm : m ∉ (b.tier t).reach ids) : m ∈ (b'.tier t).reach ids' ↔ m ∈ (b.tier t).reach ids' := by
  refine or_congr_right ⟨?_, ?_⟩
  · rintro ⟨hne, owner, ho, hid, hl⟩
    exact ⟨hne, owner, ((h.tiers t owner).1 ho).1, hid, hl⟩
  · rintro ⟨hne, owner, ho, hid, hl⟩
    refine ⟨hne, owner, (h.tiers t owner).2 ⟨ho, ?_⟩, hid, hl⟩
    -- an owner that went would be media of an id that went, or have taken `m` along
    rintro (hown | ⟨hne', other, hother, hown, hlink⟩)
    · exact hm (.inr ⟨hne, owner, ho, hown, hl⟩)
    · rcases hb t other hother (.inl hown) owner.id hlink (.inr hid) with he | he
      · exact hne' he
      · exact hm (.inr ⟨hne, owner, ho, he ▸ hown, hl⟩)

theorem trans (h : b.Erased b' ids k) (h' : b'.Erased b'' ids' k') (hb : b.Apart (ids ∪ ids')) :
    b.Erased b'' (ids ∪ ids') (k + k') where
  tiers t r := by
    rw [h'.tiers, h.tiers, Table.mem_reach_union, not_or, and_assoc]
    refine and_congr_right fun _ => and_congr_right fun hr => ?_
    rw [h.mem_reach_iff hb t hr]
  edges e := by rw [h'.edges, h.edges, Set.mem_union, not_or, and_assoc]
  flags f m := by rw [h'.flags, h.flags, Set.mem_union, not_or, and_assoc]
  reports r := by rw [h'.reports, h.reports, Set.mem_union, not_or, and_assoc]
  rest := by rw [h'.rest, h.rest]
  rows := by
    have first := h.rows
    have second := h'.rows
    omega

theorem allNamed (h : b.Erased b' ids k) (hb : b.AllNamed) : b'.AllNamed :=
  fun t r hr => hb t r ((h.tiers t r).1 hr).1

end Erased

theorem eachTier_add_size {f : Table Row → Table Row × Nat}
    (h : ∀ t, (f t).2 + (f t).1.rows.length = t.rows.length) :
    (b.eachTier f).2 + (b.eachTier f).1.size = b.size := by
  have authored := h b.authored
  have replicas := h b.replicas
  simp only [eachTier, size]
  omega

theorem erase_add_size (b : Board) (id : String) :
    (b.erase id).2 + (b.erase id).1.size = b.size := by
  let c := ((b.removeReports id).1.removeMedia id).1
  have media : ((b.removeReports id).1.removeMedia id).2 + c.size = (b.removeReports id).1.size :=
    eachTier_add_size fun t => t.remove_add_length _
  have own : (c.removeRow id).2 + (c.removeRow id).1.size = c.size :=
    eachTier_add_size fun t => t.remove_add_length _
  have counted : (b.erase id).2 =
      ((b.removeReports id).1.removeMedia id).2 + (c.removeRow id).2 := rfl
  have left : (b.erase id).1.size = (c.removeRow id).1.size := rfl
  have before : (b.removeReports id).1.size = b.size := rfl
  omega

theorem Erased.erase (hb : b.AllNamed) (id : String) :
    b.Erased (b.erase id).1 {id} (b.erase id).2 where
  tiers t r := by
    rw [tier_erase, Table.mem_filter, Table.remove, Table.mem_filter, Table.mem_reach, and_assoc]
    refine and_congr_right fun hr => ?_
    rw [← Table.isMediaOf_iff _ id (hb t r hr), Set.mem_singleton_iff]
    cases isMediaOf (b.tier t) id r <;> simp
  edges _ := mem_edges_erase
  flags f m := by
    have hm : m ∈ ((b.erase id).1.flagged f).rows ↔
        m ∈ ((b.flagged f).filter fun m => m.target != id).rows := by
      cases f <;> rfl
    simp [hm]
  reports r := by
    have hr : r ∈ (b.erase id).1.reports.rows ↔
        r ∈ (b.reports.filter fun r => !(r.id == id)).rows := Iff.rfl
    simp [hr]
  rest := rfl
  rows := erase_add_size b id

end Board

namespace Site

theorem cascade_erased {s : Site} {n : Node} {ids : List String} (h : n.board.AllNamed)
    (ha : n.board.Apart {id | id ∈ ids}) :
    n.board.Erased (s.cascade Board.erase ids n).1.board {id | id ∈ ids}
      (s.cascade Board.erase ids n).2.rows := by
  refine cascade_induct (R := fun done b k => n.board.Erased b done k) (Board.Erased.refl _) ?_
  intro done id b k hdone hid hb
  refine hb.trans (.erase (hb.allNamed h) id) (ha.mono (Set.union_subset hdone ?_))
  exact Set.singleton_subset_iff.2 hid

theorem cascade_add_size (s : Site) (ids : List String) (n : Node) :
    (s.cascade Board.erase ids n).2.rows + (s.cascade Board.erase ids n).1.board.size =
      n.board.size := by
  refine cascade_induct (R := fun _ b k => k + b.size = n.board.size) (Nat.zero_add _) ?_
  intro done id b k _ _ hb
  have := b.erase_add_size id
  omega

/-- A single object is erased by itself, and a thread with every id below its root, whatever the
edges are, if none of these ids is media of another. In any case the rows that go are counted. -/
theorem deleteThread_erased (s : Site) (id : String) (n : Node) (h : n.board.AllNamed) :
    n.board.Erased (s.delete id n).1.board {id} (s.delete id n).2.rows ∧
      (n.board.Apart (n.board.below id) →
        n.board.Erased (s.deleteThread id n).1.board (n.board.below id)
          (s.deleteThread id n).2.rows) ∧
      (s.deleteThread id n).2.rows + (s.deleteThread id n).1.board.size = n.board.size := by
  refine ⟨?_, ?_, cascade_add_size s _ n⟩
  · have apart : n.board.Apart {id} := by
      intro t r _ hr m _ hm
      exact .inr (hm.trans hr.symm)
    rw [← setOf_mem_single] at apart ⊢
    exact cascade_erased h apart
  · intro apart
    rw [← Board.setOf_mem_subtree] at apart ⊢
    exact cascade_erased h apart

theorem deleteThread_erased_of_shared_media :
    let s : Site := { config := {}, boardFile := "", filesRoot := "" }
    let post (id : String) : Row := { id, type := "Note", published := 1, attachment := "m" }
    let picture : Row := { id := "m", type := "Attachment", published := 1, href := "x" }
    let board : Board :=
      { authored := .ofList [post "p", post "q", picture]
        edges := .ofList [⟨"p", ""⟩, ⟨"q", "p"⟩]
        sticky := .ofList [⟨"p", "u"⟩] }
    let n : Node := { board }
    board.AllNamed ∧ board.Apart (board.below "p") ∧
      board.Erased (s.delete "p" n).1.board {"p"} (s.delete "p" n).2.rows ∧
      board.Erased (s.deleteThread "p" n).1.board (board.below "p")
        (s.deleteThread "p" n).2.rows := by
  intro s post picture board n
  have h : board.AllNamed := by
    intro t
    cases t <;> decide
  have apart : board.Apart (board.below "p") := by
    have edges : board.edges.rows = [⟨"p", ""⟩, ⟨"q", "p"⟩] := by decide
    have below : ∀ x ∈ board.below "p", x = "p" ∨ x = "q" := by
      intro x hx
      induction hx with
      | refl => exact .inl rfl
      | @tail p c _ he ih =>
        have edge : c = "p" ∧ p = "" ∨ c = "q" ∧ p = "p" := by
          simpa [Board.Answers, edges] using he
        exact edge.imp And.left And.left
    have links : ∀ t, ∀ r ∈ (board.tier t).rows, "p" ∉ r.media ∧ "q" ∉ r.media := by
      intro t
      cases t <;> decide
    intro t r hr _ m hm hbelow
    rcases below m hbelow with rfl | rfl
    · exact absurd hm (links t r hr).1
    · exact absurd hm (links t r hr).2
  obtain ⟨single, thread, -⟩ := deleteThread_erased s "p" n h
  exact ⟨h, apart, single, thread apart⟩

end Site
end Imageboard
