import Imageboard.Federation.Outbox
import Imageboard.Proofs.Effects

namespace Imageboard.Site

variable {s : Site} {around : Surroundings} {now : Instant} {n n' : Node} {draws : Draws}
  {log : Log}

theorem publish_eq_ok {draft : Object} {p : Published}
    (h : ((s.publish around now draft n draws).run log).1.1 = .ok (p, n')) :
    ∃ actor suffixes, n.actor draft.actor = .ok (some actor) ∧
      Yields (s.create now draft n.board) draws.suffixes (p.post, n'.board) suffixes ∧
      n'.files = n.files := by
  unfold publish at h
  split at h
  · cases h
  · cases h
  next actor hactor =>
    rcases hc : (s.create now draft n.board).run.run draws.suffixes with
      ⟨_ | ⟨post, board⟩, suffixes⟩
    · rw [hc] at h
      cases h
    · rw [hc] at h
      cases h
      exact ⟨actor, suffixes, hactor, hc, rfl⟩

theorem deleteAll_eq_ok {id : String} {report : CascadeReport}
    (h : ((s.deleteAll around id n draws).run log).1.1 = .ok (report, n')) :
    (∃ e, n.board.get id = some e) ∧ s.delete id n = (n', report) := by
  unfold deleteAll at h
  split at h
  · cases h
  next e he =>
    refine ⟨⟨e, he⟩, ?_⟩
    -- with or without a broadcast the same removal comes last
    rcases ha : n.actor e.actor with f | _ | actor <;> rw [ha] at h <;> cases h <;> rfl

def posted (s : Site) (now : Instant) (draft : Object) (n : Node) (suffixes : List IdSuffix) :
    Except Fault (Object × Node) := do
  match ← n.actor draft.actor with
  | none => .error (.refused (.notProvisioned draft.actor))
  | some _ =>
    let (post, board) ← ((s.create now draft n.board).run.run suffixes).1
    return (post, { n with board })

/-- Posting is settled before anyone is told. -/
theorem publish_settled (s : Site) (around : Surroundings) (now : Instant) (draft : Object)
    (n : Node)
    (draws : Draws) (log : Log) :
    (((s.publish around now draft n draws).run log).1.1.map fun x => (x.1.post, x.2)) =
      s.posted now draft n draws.suffixes := by
  unfold publish posted
  rcases n.actor draft.actor with f | _ | actor
  · rfl
  · rfl
  · dsimp only [Except.bind]
    rcases (s.create now draft n.board).run.run draws.suffixes with
      ⟨_ | ⟨post, board⟩, suffixes⟩ <;>
      rfl

theorem deleteAll_settled (s : Site) (around : Surroundings) (id : String) (n : Node)
    (draws : Draws) (log : Log) :
    ((s.deleteAll around id n draws).run log).1.1 =
      if (n.board.get id).isSome then .ok (s.delete id n).swap
      else .error (.refused (.nothingToDelete id)) := by
  unfold deleteAll
  cases n.board.get id with
  | none => rfl
  | some e =>
    dsimp only
    rcases n.actor e.actor with f | _ | actor <;> rfl

end Imageboard.Site
