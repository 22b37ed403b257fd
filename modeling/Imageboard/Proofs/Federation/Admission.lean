import Imageboard.Proofs.Lifecycle.Replication
import Imageboard.Proofs.Operation
import Imageboard.Proofs.Text.Cuts

namespace Imageboard

theorem Outward.yields_doing {α : Type} {task : Task} {x : Outward α} {log log' : Log} {a : α} :
    Yields (x.doing task) log a log' ↔ Yields x log a log' := by
  have run : (x.doing task).run.run log =
      ((x.run.run log).1.doing task, (x.run.run log).2) := rfl
  rw [Yields, Yields, run, Prod.ext_iff, Prod.ext_iff, doing_eq_ok]

namespace SocialGraph

/-- The graph lists a resident among the followers of an actor, when it is asked after all that went
out before. -/
def Follows (g : SocialGraph) (b : Board) (log : Log) (resident actor : String) : Prop :=
  ∃ followers log', Yields (g.followers b actor) log followers log' ∧ resident ∈ followers

/-- What the graph admits is by someone the resident follows, or a reply without a root edge. -/
theorem admits_cases {g : SocialGraph} {b : Board} {o : Object} {resident : String} {log log' : Log}
    (h : Yields (g.admits b o resident) log true log') :
    g.Follows b log resident o.actor ∨ (o.replyParent? ≠ none ∧ b.rootEdges o.id = 0) := by
  obtain ⟨followers, asked, hf, h⟩ := yields_bind.1 h
  rw [Outward.yields_doing] at hf
  split at h
  next follows => exact .inl ⟨followers, asked, hf, List.contains_iff_mem.1 follows⟩
  next =>
    split at h
    next => exact absurd (yields_pure.1 h).1 Bool.false_ne_true
    next reply =>
      exact .inr (by simpa using reply)

end SocialGraph

namespace Visit

variable {blocks : String → Bool} {u v : Visit}

/-- An object names what it answers, but the first that it names has a blank id. -/
def NamesBlank (v : Visit) : Prop :=
  v.object.inReplyTo ≠ [] ∧ v.object.replyParent? = none

theorem replyParent?_getD_eq_empty {o : Object} :
    o.replyParent?.getD "" = "" ↔ o.replyParent? = none := by
  cases h : o.replyParent? with
  | none => simp
  | some parent => simpa using Object.replyParent?_ne h

theorem parent_root_eq_empty {o : Object} : parent { object := o } = "" ↔
    o.replyParent? = none := by
  rw [← replyParent?_linked, linked_root, replyParent?_getD_eq_empty]

theorem holder_of_mem_nested (h : v ∈ u.nested) : v.holder = some u.object.id := by
  obtain ⟨r, -, rfl⟩ := List.mem_map.1 h
  rfl

/-- An object that came in another answers that one, unless it names something else, if only blanks.
-/
theorem parent_nested_eq_empty (hu : u.Passes blocks) (h : v ∈ u.nested) :
    v.parent = "" ↔ v.NamesBlank := by
  unfold parent NamesBlank
  rw [holder_of_mem_nested h, ← List.isEmpty_eq_false_iff]
  have named : Text.trim u.object.id ≠ "" := by
    rw [Ne, Text.trim_eq_empty_iff, hu.named]
    exact Bool.false_ne_true
  cases v.object.inReplyTo.isEmpty with
  | true => simpa using named
  | false => simpa using replyParent?_getD_eq_empty

end Visit

namespace Board

variable {b b' : Board} {now : Instant} {vs added : List Visit} {t : Tier} {r : Row}

/-- A replica that one board has and another had not, with the edge of the root of a thread. -/
structure GainsRoot (b b' : Board) (r : Row) : Prop where
  replica : r ∈ b'.replicas.rows
  edge : ⟨r.id, ""⟩ ∈ b'.edges.rows
  newReplica : ¬ b.Mirrors r.id
  newEdge : ⟨r.id, ""⟩ ∉ b.edges.rows

/-- The roots that a board gains are those of the objects that were added and answer nothing. -/
theorem Turns.gainsRoot_iff (h : Turns now b vs added b') :
    b.GainsRoot b' r ↔ r ∈ b'.replicas.rows ∧ ⟨r.id, ""⟩ ∉ b.edges.rows ∧
      ∃ v ∈ added, v.object.id = r.id ∧ v.object.actor = r.actor ∧ v.parent = "" := by
  constructor
  · rintro ⟨replica, edge, -, newEdge⟩
    rcases h.mem_edges.1 edge with old | ⟨v, hv, he⟩
    · exact absurd old newEdge
    have child : r.id = v.object.id := congrArg Edge.child he
    have root : "" = v.parent := congrArg Edge.parent he
    obtain ⟨-, row, hrow, hid, hactor⟩ := h.added_rows hv
    -- there is one replica of each id
    have key : Keyed.key r = Keyed.key row := congrArg (fun id => [id]) (child.trans hid.symm)
    obtain rfl : r = row := Table.eq_of_key replica hrow key
    exact ⟨replica, newEdge, v, hv, child.symm, hactor.symm, root.symm⟩
  · rintro ⟨replica, newEdge, v, hv, hid, -, root⟩
    have edge : (⟨r.id, ""⟩ : Edge) = v.edge := by rw [Visit.edge, hid, root]
    exact ⟨replica, h.mem_edges.2 (.inr ⟨v, hv, edge⟩), hid ▸ (h.added_rows hv).1, newEdge⟩

end Board

namespace Site

/-- The object of an activity that is let in for a resident: the one that a Create brings, if it is
the sender's own and the graph admits it. -/
def admitted? (around : Surroundings) (b : Board) (log : Log) (resident : String) (a : Activity) :
    Option Object :=
  match a.verb?, a.object? with
  | some .create, some o =>
    let o := sentObject a.actorId o
    if o.actor = a.actorId then
      match ((around.graph.admits b o resident).run.run log).1 with
      | .ok true => some o
      | _ => none
    else none
  | _, _ => none

def arrivals (s : Site) (around : Surroundings) (b : Board) (log : Log) (resident : String)
    (a : Activity) : List Visit :=
  match admitted? around b log resident a with
  | some o => Visit.all s.blocks o
  | none => []

variable {around : Surroundings} {b : Board} {log : Log} {resident : String} {a : Activity}
  {o : Object}

theorem admitted?_eq_some (h : admitted? around b log resident a = some o) :
    a.verb? = some .create ∧ (∃ sent, a.object? = some sent ∧ o = sentObject a.actorId sent) ∧
      o.actor = a.actorId ∧ ∃ log', Yields (around.graph.admits b o resident) log true log' := by
  unfold admitted? at h
  split at h
  next sent hv ho =>
    dsimp only at h
    split at h
    next own =>
      split at h
      next admitted =>
        cases h
        exact ⟨hv, ⟨sent, ho, rfl⟩, own, _, Prod.ext admitted rfl⟩
      next => cases h
    next => cases h
  next => cases h

end Site

namespace Operation

variable {s : Site} {around : Surroundings} {now : Instant} {log : Log} {resident : String}
  {a : Activity} {n : Node}

theorem perform_receive_create (hv : a.verb? = some .create) :
    (receive around now log resident a).perform s n =
      match Site.admitted? around n.board log resident a with
      | some o => { n with board := (s.replicate now o n.board).1 }
      | none => n := by
  have creates : s.apply around now resident a = s.applyCreate around now resident a.actorId a := by
    unfold Site.apply
    rw [hv]
  change ((s.apply around now resident a).run.run (n, log)).2.1 = _
  unfold Site.admitted?
  rw [creates, hv]
  unfold Site.applyCreate
  cases a.object? with
  | none => rfl
  | some o =>
    dsimp only
    generalize Site.sentObject a.actorId o = o
    by_cases own : o.actor = a.actorId
    · rw [if_pos own, if_neg (Classical.not_not.2 own)]
      -- the board is looked at first, which changes nothing
      change ((Serving.outward (around.graph.admits n.board o resident) >>= _).run.run
        (n, log)).2.1 = _
      rw [Serving.run_outward_bind]
      rcases (around.graph.admits n.board o resident).run.run log with ⟨f | _ | _, log'⟩ <;> rfl
    · rw [if_neg own, if_pos own]
      rfl

/-- The roots of threads that a Create brings. One may be the object that it is about, if that names
no parent, and then the resident follows its author. All others came in another object and name a
parent with a blank id, and whether anyone follows their authors was not asked. -/
theorem receive_roots (s : Site) (n : Node) (around : Surroundings) (now : Instant) (log : Log)
    (resident : String) (a : Activity) (hv : a.verb? = some .create) :
    let n' := (receive around now log resident a).perform s n
    ∃ added, Board.Turns now n.board (s.arrivals around n.board log resident a) added n'.board ∧
      (∀ r, n.board.GainsRoot n'.board r ↔
        r ∈ n'.board.replicas.rows ∧ ⟨r.id, ""⟩ ∉ n.board.edges.rows ∧
          ∃ v ∈ added, v.object.id = r.id ∧ v.object.actor = r.actor ∧ v.parent = "") ∧
      ∀ v ∈ added, v.parent = "" ↔
        (v.holder = none ∧ v.object.replyParent? = none ∧
          around.graph.Follows n.board log resident v.object.actor) ∨
        (v.holder.isSome = true ∧ v.NamesBlank) := by
  intro n'
  have after : n' = _ := perform_receive_create hv
  unfold Site.arrivals
  cases admitted : Site.admitted? around n.board log resident a with
  | none =>
    rw [admitted] at after
    have same : Board.Turns now n.board [] [] n'.board := after ▸ .done n.board
    exact ⟨[], same, fun r => same.gainsRoot_iff, nofun⟩
  | some o =>
    rw [admitted] at after
    obtain ⟨added, turns⟩ := s.replicate_turns now o n.board
    have turns : Board.Turns now n.board (Visit.all s.blocks o) added n'.board := after ▸ turns
    refine ⟨added, turns, fun r => turns.gainsRoot_iff, fun v hv => ?_⟩
    obtain ⟨-, rfl | ⟨u, hu, nested⟩⟩ := Visit.mem_all (turns.added_subset v hv)
    · rw [Visit.parent_root_eq_empty]
      constructor
      · intro root
        obtain ⟨-, -, -, log', admits⟩ := Site.admitted?_eq_some admitted
        rcases SocialGraph.admits_cases admits with follows | ⟨reply, -⟩
        · exact .inl ⟨rfl, root, follows⟩
        · exact absurd root reply
      · rintro (⟨-, root, -⟩ | ⟨nested, -⟩)
        · exact root
        · cases nested
    · rw [Visit.parent_nested_eq_empty hu nested, Visit.holder_of_mem_nested nested]
      simp

theorem receive_roots_of_followed_author :
    let s : Site := { config := {}, boardFile := "", filesRoot := "" }
    let around : Surroundings :=
      { web := fun _ _ => .dropped
        graph := ⟨fun _ _ _ => return ["http://b/u"]⟩
        sender := fun _ _ _ => return {} }
    let a : Activity :=
      { type := "Create"
        actor := some (.bare "http://v")
        object := some (.object { id := "http://v/p", inReplyTo := [.reference " "] }) }
    let n : Node := {}
    let n' := (receive around .epoch [] "http://b/u" a).perform s n
    a.verb? = some .create ∧
      ∃ added, Board.Turns .epoch n.board (s.arrivals around n.board [] "http://b/u" a) added
          n'.board ∧
        (∀ r, n.board.GainsRoot n'.board r ↔
          r ∈ n'.board.replicas.rows ∧ ⟨r.id, ""⟩ ∉ n.board.edges.rows ∧
            ∃ v ∈ added, v.object.id = r.id ∧ v.object.actor = r.actor ∧ v.parent = "") ∧
        ∀ v ∈ added, v.parent = "" ↔
          (v.holder = none ∧ v.object.replyParent? = none ∧
            around.graph.Follows n.board [] "http://b/u" v.object.actor) ∨
          (v.holder.isSome = true ∧ v.NamesBlank) := by
  intro s around a n n'
  have hv : a.verb? = some .create := by decide
  exact ⟨hv, receive_roots s n around .epoch [] "http://b/u" a hv⟩

/-- Someone whom the resident does not follow starts a thread here. It comes in a reply, which is
let in because the resident follows a follower of its author, and names a blank as its parent. -/
theorem not_roots_followed_of_blank_parent :
    let s : Site := { config := {}, boardFile := "", filesRoot := "" }
    let around : Surroundings :=
      { web := fun _ _ => .dropped
        graph := ⟨fun _ _ _ => return ["http://f"]⟩
        sender := fun _ _ _ => return {} }
    let thread : Object :=
      { id := "http://v/q", actor := "http://v", inReplyTo := [.reference " "] }
    let reply : Object :=
      { id := "http://v/p"
        actor := "http://v"
        inReplyTo := [.reference "http://f/p"]
        replies := some { orderedItems := [thread] } }
    let a : Activity :=
      { type := "Create", actor := some (.bare "http://v"), object := some (.object reply) }
    let n : Node := {}
    let n' := (receive around .epoch [] "http://b/u" a).perform s n
    ¬ ∀ r, n.board.GainsRoot n'.board r → around.graph.Follows n.board [] "http://b/u" r.actor := by
  intro s around thread reply a n n' h
  let r : Row :=
    { id := "http://v/q", type := "Note", actor := "http://v", published := 0, updated := some 0 }
  have replica : r ∈ n'.board.replicas.rows := by decide +kernel
  have edge : ⟨r.id, ""⟩ ∈ n'.board.edges.rows := by decide +kernel
  have gained : n.board.GainsRoot n'.board r :=
    ⟨replica, edge, fun ⟨_, hr, _⟩ => List.not_mem_nil hr, List.not_mem_nil⟩
  obtain ⟨followers, log', asked, follows⟩ := h r gained
  obtain ⟨rfl, -⟩ := yields_pure.1 asked
  simp at follows

end Operation
end Imageboard
