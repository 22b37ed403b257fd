import Imageboard.Proofs.Board.Edges
import Imageboard.Proofs.Lifecycle.Cascade
import Imageboard.Proofs.Lifecycle.Creation
import Mathlib.Data.List.Induction

namespace Imageboard

namespace Write

def Redraws : Write → Prop
  | edge .. | erase .. => True
  | _ => False

theorem edges_apply {w : Write} {b : Board} (h : ¬ w.Redraws) : (w.apply b).edges = b.edges := by
  cases w with
  | author e now =>
    simp only [apply]
    split
    next b' hb =>
      rw [(Board.insertAuthored_eq_ok_iff.1 hb).2]
    next => rfl
  | edge | erase => exact absurd trivial h
  | flag f actor id =>
    simp only [apply, Board.switchFlag]
    split
    · split <;> cases f <;> rfl
    · rfl
  | follow resident actor follows => cases follows <;> rfl
  | _ => rfl

end Write

theorem Board.Reaches.edges_eq {P : Write → Prop} {b b' : Board} (h : b.Reaches P b')
    (hP : ∀ w, P w → ¬ w.Redraws) : b'.edges = b.edges :=
  h.related (R := fun b b' => b'.edges = b.edges) (fun _ => rfl) (fun _ _ _ h h' => h'.trans h)
    fun w _ hw => Write.edges_apply (hP w hw)

theorem create_edges {s : Site} {now : Instant} {draft o : Object} {b b' : Board}
    {draws draws' : List IdSuffix} (h : Yields (s.create now draft b) draws (o, b') draws') :
    b'.edges = (b.recordEdge o.id (draft.replyParent?.getD "")).1.edges := by
  obtain ⟨posted, c, hpost, -, written, -, rfl, rfl⟩ := Site.create_written h
  have edges : c.edges = b.edges := by rw [written.rest]
  rw [Board.edges_link, Object.id_archivedIf, hpost.replyParent?_eq]
  exact congrArg (fun t : Table Edge => (t.insertNew ⟨posted.id, _⟩).1) edges

theorem erase_edges (s : Site) (ids : List String) (n : Node) (e : Edge) :
    e ∈ (s.cascade Board.erase ids n).1.board.edges.rows ↔
      e ∈ n.board.edges.rows ∧ e.child ∉ ids := by
  refine Site.cascade_induct
    (R := fun done b _ => e ∈ b.edges.rows ↔ e ∈ n.board.edges.rows ∧ e.child ∉ done) ?_ ?_
  · simp
  · intro done id b _ _ _ ih
    rw [Board.mem_edges_erase, ih, Set.mem_union, not_or, and_assoc, Set.mem_singleton_iff]

namespace Operation

/-- Operations on the posts of this board itself, which take nothing from other nodes. -/
def isLocal : Operation → Bool
  | replicate .. | receive .. | inbox .. | publish .. | deleteAll .. => false
  | _ => true

/-- The edge of the post that an operation makes, to what its draft answers or to no parent. -/
def newEdge? (s : Site) (n : Node) : Operation → Option Edge
  | create now draws draft =>
    match ((s.create now draft n.board).run.run draws).1 with
    | .ok (o, _) => some ⟨o.id, draft.replyParent?.getD ""⟩
    | .error _ => none
  | _ => none

def TakesOut (b : Board) (id : String) : Operation → Prop
  | delete target => id = target
  | deleteThread root => id ∈ b.below root
  | _ => False

/-- The posts that a run has made and not taken out since, each with its edge. -/
inductive Posted (s : Site) (n : Node) : List Operation → Edge → Prop
  | made {ops : List Operation} {op : Operation} {e : Edge}
      (h : op.newEdge? s (run s ops n) = some e) :
    Posted s n (ops ++ [op]) e
  | kept {ops : List Operation} {op : Operation} {e : Edge} (h : Posted s n ops e)
    (hout : ¬ op.TakesOut (run s ops n).board e.child) : Posted s n (ops ++ [op]) e

/-- Each post of a run gets a fresh id: one that is on no edge by then, nor what the post itself
answers, as any id that occurs nowhere so far. -/
def FreshIds (s : Site) : List Operation → Node → Prop
  | [], _ => True
  | op :: ops, n => (∀ e ∈ op.newEdge? s n, n.board.IsFresh e) ∧ FreshIds s ops (op.perform s n)

instance (s : Site) : ∀ ops n, Decidable (FreshIds s ops n)
  | [], _ => .isTrue trivial
  | op :: ops, n =>
    have := instDecidableFreshIds s ops (op.perform s n)
    inferInstanceAs (Decidable (_ ∧ _))

theorem not_posted_nil {s : Site} {n : Node} {e : Edge} : ¬ Posted s n [] e := by
  generalize hops : ([] : List Operation) = ops
  rintro (h | h) <;> simp at hops

theorem posted_concat {s : Site} {n : Node} {ops : List Operation} {op : Operation} {e : Edge} :
    Posted s n (ops ++ [op]) e ↔ (Posted s n ops e ∧ ¬ op.TakesOut (run s ops n).board e.child) ∨
      op.newEdge? s (run s ops n) = some e := by
  constructor
  · generalize hops : ops ++ [op] = ops'
    rintro (h | ⟨h, hout⟩)
    all_goals
      obtain ⟨rfl, hop⟩ := List.append_inj' hops rfl
      cases hop
    · exact .inr h
    · exact .inl ⟨h, hout⟩
  · rintro (⟨h, hout⟩ | h)
    · exact .kept h hout
    · exact .made h

theorem freshIds_concat {s : Site} {ops : List Operation} {op : Operation} {n : Node} :
    FreshIds s (ops ++ [op]) n ↔
      FreshIds s ops n ∧ ∀ e ∈ op.newEdge? s (run s ops n), (run s ops n).board.IsFresh e := by
  induction ops generalizing n with
  | nil => simp [FreshIds, run]
  | cons first ops ih =>
    have hrun : run s (first :: ops) n = run s ops (first.perform s n) := rfl
    rw [List.cons_append, FreshIds, FreshIds, ih, hrun, and_assoc]

theorem mem_edges_create (s : Site) (now : Instant) (draws : List IdSuffix) (draft : Object)
    (n : Node)
    (e : Edge) : e ∈ ((create now draws draft).perform s n).board.edges.rows ↔
      e ∈ n.board.edges.rows ∨ (create now draws draft).newEdge? s n = some e := by
  rcases hrun : (s.create now draft n.board).run.run draws with ⟨f | ⟨o, b⟩, draws'⟩
  · have failed : (create now draws draft).perform s n = n := by
      simp only [perform, hrun, Node.commit]
    have none : (create now draws draft).newEdge? s n = none := by simp only [newEdge?, hrun]
    rw [failed, none]
    simp
  · have done : ((create now draws draft).perform s n).board = b := by
      simp only [perform, hrun, Node.commit]
    have made : (create now draws draft).newEdge? s n =
      some ⟨o.id, draft.replyParent?.getD ""⟩ := by
      simp only [newEdge?, hrun]
    rw [done, made, create_edges hrun, Board.mem_recordEdge, Option.some.injEq, eq_comm]

/-- One operation takes some edges out, and adds the one of the post that it makes. -/
theorem mem_edges_perform {s : Site} {op : Operation} {n : Node} (h : op.isLocal = true)
    (e : Edge) :
    e ∈ (op.perform s n).board.edges.rows ↔
      (e ∈ n.board.edges.rows ∧ ¬ op.TakesOut n.board e.child) ∨ op.newEdge? s n = some e := by
  have others (hout : ∀ id, ¬ op.TakesOut n.board id) (hnew : op.newEdge? s n = none)
      (hallows : ∀ w, op.Allows s w → ¬ w.Redraws) :
      e ∈ (op.perform s n).board.edges.rows ↔
        (e ∈ n.board.edges.rows ∧ ¬ op.TakesOut n.board e.child) ∨ op.newEdge? s n = some e := by
    rw [(perform_reaches s op n).edges_eq hallows, hnew]
    simp [hout]
  have buries (now : Instant) (w : Write) (hw : w.Buries s now) : ¬ w.Redraws := by
    cases w with
    | bury => exact not_false
    | _ => exact hw.elim
  cases op with
  | create now draws draft =>
    rw [mem_edges_create]
    simp [TakesOut]
  | delete id =>
    refine (erase_edges s [id] n e).trans ?_
    simp [TakesOut, newEdge?]
  | deleteThread root =>
    refine (erase_edges s (n.board.subtree root).reverse n e).trans ?_
    rw [List.mem_reverse, Board.mem_subtree_iff]
    simp [TakesOut, newEdge?]
  | tombstone now | tombstoneThread now => exact others (fun _ => not_false) rfl (buries now)
  | setThreadType id type =>
    refine others (fun _ => not_false) rfl ?_
    rintro _ ⟨-, _, rfl⟩
    exact not_false
  | update =>
    refine others (fun _ => not_false) rfl ?_
    rintro _ ⟨_, rfl⟩
    exact not_false
  | mark | markSensitive | updatePreview | report =>
    refine others (fun _ => not_false) rfl ?_
    rintro _ rfl
    exact not_false
  | replicate | receive | inbox | publish | deleteAll => cases h

end Operation

/-- The edges of a board are those of some posts, one for each, and make no cycle. -/
structure Board.Forest (b : Board) (posts : Edge → Prop) : Prop where
  edges : ∀ e, e ∈ b.edges.rows ↔ posts e
  unique : ∀ e d, posts e → posts d → e.child = d.child → e = d
  acyclic : b.Acyclic

namespace Operation

theorem perform_forest {s : Site} {op : Operation} {n : Node} {posts : Edge → Prop}
    (hlocal : op.isLocal = true) (hfresh : ∀ e ∈ op.newEdge? s n, n.board.IsFresh e)
    (h : n.board.Forest posts) : (op.perform s n).board.Forest fun e =>
      (posts e ∧ ¬ op.TakesOut n.board e.child) ∨ op.newEdge? s n = some e where
  edges e := by rw [mem_edges_perform hlocal, h.edges]
  unique e d he hd hchild := by
    have apart {x y : Edge} (hx : posts x) (hy : op.newEdge? s n = some y) : x.child ≠ y.child :=
      ((hfresh y hy).2 x ((h.edges x).2 hx)).1
    rcases he with ⟨he, -⟩ | he <;> rcases hd with ⟨hd, -⟩ | hd
    · exact h.unique e d he hd hchild
    · exact absurd hchild (apart he hd)
    · exact absurd hchild.symm (apart hd he)
    · exact Option.some.inj (he.symm.trans hd)
  acyclic := h.acyclic.grow
    (fun e he => ((mem_edges_perform hlocal e).1 he).imp_left And.left) hfresh

/-- What posts made here answer makes trees: from a board without edges, a run that replicates
nothing leaves one edge for each post that it made and has not taken out, and each way up from
parent to parent ends at an object that answers nothing. -/
theorem run_forest (s : Site) (ops : List Operation) (n : Node) (hn : n.board.edges = {})
    (hlocal : ∀ op ∈ ops, op.isLocal = true) (hfresh : FreshIds s ops n) :
    (run s ops n).board.Forest (Posted s n ops) ∧
      ∀ id p, ¬ (run s ops n).board.Ascends ((run s ops n).board.rootOf id) p := by
  suffices h : (run s ops n).board.Forest (Posted s n ops) from
    ⟨h, fun id p => Board.not_ascends_rootOf h.acyclic⟩
  induction ops using List.reverseRecOn with
  | nil =>
    have none (e : Edge) : e ∉ n.board.edges.rows := hn ▸ List.not_mem_nil
    refine ⟨fun e => iff_of_false (none e) not_posted_nil,
      fun e _ he => absurd he not_posted_nil, ?_⟩
    intro id h
    obtain ⟨_, -, hlast⟩ := Relation.TransGen.tail'_iff.1 h
    exact none _ hlast.1
  | append_singleton ops op ih =>
    obtain ⟨hbefore, hnew⟩ := freshIds_concat.1 hfresh
    have before := ih (fun x hx => hlocal x (List.mem_append_left _ hx)) hbefore
    have last : op.isLocal = true := hlocal op (List.mem_append_right _ List.mem_cons_self)
    have posts : Posted s n (ops ++ [op]) = fun e =>
        (Posted s n ops e ∧ ¬ op.TakesOut (run s ops n).board e.child) ∨
          op.newEdge? s (run s ops n) = some e := funext fun _ => propext posted_concat
    rw [run_concat, posts]
    exact perform_forest last hnew before

theorem run_forest_of_deleted_root :
    let s : Site := { config := {}, boardFile := "", filesRoot := "" }
    let reply : Object := { actor := "u", inReplyTo := [.reference " u/aaaaaaaa "] }
    let root : IdSuffix := ⟨"aaaaaaaa", rfl, rfl⟩
    let ops := [create .epoch [root] { actor := "u" },
      create .epoch [root, ⟨"bbbbbbbb", rfl, rfl⟩] reply, delete "u/aaaaaaaa"]
    let after := (run s ops {}).board
    (∀ op ∈ ops, op.isLocal = true) ∧ FreshIds s ops {} ∧
      (after.edges.rows = [⟨"u/bbbbbbbb", "u/aaaaaaaa"⟩] ∧
        after.rootOf "u/bbbbbbbb" = "u/aaaaaaaa") ∧
      after.Forest (Posted s {} ops) ∧ ∀ id p, ¬ after.Ascends (after.rootOf id) p := by
  intro s reply root ops after
  have hlocal : ∀ op ∈ ops, op.isLocal = true := by simp [ops, isLocal]
  have hfresh : FreshIds s ops {} := by decide +kernel
  exact ⟨hlocal, hfresh, by decide +kernel, run_forest s ops {} rfl hlocal hfresh⟩

end Operation
end Imageboard
