import Imageboard.Federation.Inbox
import Imageboard.Proofs.Federation.Serving

namespace Imageboard

def Board.setFollower (b : Board) (resident follower : String) (follows : Bool) : Board × Bool :=
  if follows then b.addContact .follower resident follower
  else b.removeContact .follower resident follower

namespace Site

variable {s : Site} {around : Surroundings} {now : Instant} {time : Time} {resident : String}
  {a : Activity} {r : RequestHead} {body : Bytes} {n n' : Node} {cache : KeyCache} {log : Log}
  {outcome : Outcome} {f : Fault}

/-- The ways in which an activity ends, with what they leave of a node. -/
inductive Applied (s : Site) (now : Instant) (resident : String) (a : Activity) (n : Node) :
    Except Fault Outcome → Node → Prop where
  | failed (f : Fault) : Applied s now resident a n (.error f) n
  | ignored : Applied s now resident a n (.ok .ignored) n
  | notAdmitted : Applied s now resident a n (.ok .notAdmitted) n
  | replicated (o : Object) (hv : a.verb? = some .create) (ho : a.object? = some o)
      (hs : (sentObject a.actorId o).actor = a.actorId) :
      Applied s now resident a n
        (.ok (.replicated (s.replicate now (sentObject a.actorId o) n.board).2))
        { n with board := (s.replicate now (sentObject a.actorId o) n.board).1 }
  | updated (o : Object) (hv : a.verb? = some .update) (ho : a.object? = some o)
      (hown : ownsReplica n.board o.id a.actorId = true) :
      Applied s now resident a n
        (.ok (.updated (n.board.touch o.id (o.updated.getD now)).2))
        { n with board := (n.board.touch o.id (o.updated.getD now)).1 }
  | tombstoned (target : ObjectRef) (hv : a.verb? = some .delete) (ho : a.object = some target)
      (hown : ownsReplica n.board target.target a.actorId = true) :
      Applied s now resident a n (.ok (.tombstoned (s.tombstone now target.target n).2))
        (s.tombstone now target.target n).1
  | followed (hv : a.verb? = some .follow) (hh : n.board.hosts resident = true) :
      Applied s now resident a n
        (.ok (.followed (n.board.addContact .follower resident a.actorId).2))
        { n with board := (n.board.addContact .follower resident a.actorId).1 }
  | unfollowed (hv : a.verb? = some .undo) (hh : n.board.hosts resident = true) :
      Applied s now resident a n
        (.ok (.unfollowed (n.board.removeContact .follower resident a.actorId).2))
        { n with board := (n.board.removeContact .follower resident a.actorId).1 }

section Steps

open Serving

theorem ends_setFollower {follower : String} {follows : Bool}
    {Q : Except Fault Bool → Node → Prop} :
    Ends (setFollower resident follower follows) n Q ↔
      if Text.isBlankText follower then Q (.error (.refused .followWithoutActor)) n
      else if n.board.hosts resident then
        Q (.ok (n.board.setFollower resident follower follows).2)
          { n with board := (n.board.setFollower resident follower follows).1 }
      else Q (.error (.refused (.notHosted resident))) n := by
  unfold setFollower
  split
  · exact ends_throw
  · rw [ends_board_bind]
    by_cases h : n.board.hosts resident = true
    · rw [if_neg (by simp [h]), if_pos h]
      cases follows with
      | true =>
        rw [if_pos rfl]
        exact ends_changeBoard
      | false =>
        rw [if_neg Bool.false_ne_true]
        exact ends_changeBoard
    · rw [if_pos (by simp [h]), if_neg h, ends_throw]

theorem applyCreate_ends (hv : a.verb? = some .create) :
    Ends (s.applyCreate around now resident a.actorId a) n (Applied s now resident a n) := by
  unfold applyCreate
  split
  next => exact ends_throw.2 (.failed _)
  next o ho =>
    dsimp only
    split
    next => exact ends_pure.2 .ignored
    next hs =>
      rw [ends_board_bind]
      refine Ends.bind (Q := fun _ n' => n' = n) (ends_outward fun _ => rfl) ?_ ?_
      · rintro admitted _ rfl
        split
        · exact .map (ends_changeBoard.2 (.replicated o hv ho (Classical.not_not.1 hs)))
        · exact ends_pure.2 .notAdmitted
      · rintro f _ rfl
        exact .failed f

/-- All that an activity can do. -/
theorem apply_ends : Ends (s.apply around now resident a) n (Applied s now resident a n) := by
  have ignored : Ends (pure .ignored) n (Applied s now resident a n) := ends_pure.2 .ignored
  unfold apply
  dsimp only
  split
  next hv => exact applyCreate_ends hv
  next hv =>
    split
    · exact ignored
    next o ho =>
      rw [ends_board_bind]
      split
      next hown => exact .map (ends_changeBoard.2 (.updated o hv ho hown))
      next => exact ignored
  next hv =>
    split
    · exact ignored
    next target ho =>
      rw [ends_board_bind]
      split
      next hown => exact .map (ends_change.2 (.tombstoned target hv ho hown))
      next => exact ignored
  next hv =>
    split
    · refine .map (ends_setFollower.2 ?_)
      split
      · exact .failed _
      · split
        next hosted => exact .followed hv hosted
        next => exact .failed _
    · exact ignored
  next hv =>
    split
    · refine .map (ends_setFollower.2 ?_)
      split
      · exact .failed _
      · split
        next hosted => exact .unfollowed hv hosted
        next => exact .failed _
    · exact ignored
  all_goals exact ignored

end Steps

theorem Applied.eq_of_error (h : Applied s now resident a n (.error f) n') : n' = n := by
  cases h
  rfl

theorem readActivity_eq_ok {signer : String} :
    readActivity signer body = .ok a ↔
      (Json.ofBytes? body).bind (Activity.decode? maxDepth) = some a ∧ a.actorId = signer := by
  unfold readActivity
  simp only [except_bind_eq_ok, doing_eq_ok, orBreak_eq_ok]
  constructor
  · rintro ⟨c, hc, h⟩
    split at h
    next he =>
      cases h
      exact ⟨hc, he⟩
    next => cases h
  · rintro ⟨ha, rfl⟩
    exact ⟨a, ha, by rw [if_pos rfl]; rfl⟩

theorem serve_run (s : Site) (around : Surroundings) (time : Time) (resident : String)
    (r : RequestHead) (body : Bytes) (cache : KeyCache) (n : Node) (log : Log) :
    (s.serve around time resident r body cache).run (n, log) =
      let checked := (s.authenticate around.web time n r body cache).run log
      match checked.1.1.bind (readActivity · body) with
      | .error f => ((.error f, checked.1.2), n, checked.2)
      | .ok a =>
        let applied := (s.apply around time.now resident a).run.run (n, checked.2)
        ((applied.1, checked.1.2), applied.2) := by
  unfold serve
  rw [run_bind, show (get : StateM (Node × Log) _).run (n, log) = ((n, log), n, log) from rfl]
  dsimp only
  generalize (s.authenticate around.web time n r body cache).run log = checked
  obtain ⟨⟨signer, c⟩, log'⟩ := checked
  dsimp only
  cases signer.bind (readActivity · body) <;> rfl

/-- A request does nothing and fails, or it is authentic and its activity, by the actor who signed,
ends in one of its ways. -/
theorem serve_cases (s : Site) (around : Surroundings) (time : Time) (resident : String)
    (r : RequestHead) (body : Bytes) (cache : KeyCache) (n : Node) (log : Log) :
    let served := (s.serve around time resident r body cache).run (n, log)
    (∃ f, served.1.1 = .error f ∧ served.2.1 = n) ∨
      ∃ a : Activity,
        ((s.authenticate around.web time n r body cache).run log).1.1 = .ok a.actorId ∧
        (Json.ofBytes? body).bind (Activity.decode? maxDepth) = some a ∧
        Applied s time.now resident a n served.1.1 served.2.1 := by
  have run := serve_run s around time resident r body cache n log
  intro served
  rcases hc : (s.authenticate around.web time n r body cache).run log with ⟨⟨f | signer, c⟩, log'⟩
  · refine .inl ⟨f, ?_, ?_⟩ <;> simp only [served, run, hc, Except.bind]
  cases ha : readActivity signer body with
  | error f => refine .inl ⟨f, ?_, ?_⟩ <;> simp only [served, run, hc, Except.bind, ha]
  | ok a =>
    obtain ⟨hd, rfl⟩ := readActivity_eq_ok.1 ha
    refine .inr ⟨a, rfl, hd, ?_⟩
    simp only [served, run, hc, Except.bind, ha]
    exact apply_ends log'

theorem serve_accept {signer : String}
    (hauth : ((s.authenticate around.web time n r body cache).run log).1.1 = .ok signer)
    (hread : readActivity signer body = .ok a) (hv : a.verb? = some .accept) :
    let served := (s.serve around time resident r body cache).run (n, log)
    served.1.1 = .ok .ignored ∧ served.2.1 = n := by
  simp only [serve_run, hauth, Except.bind, hread, apply, hv]
  exact ⟨rfl, rfl⟩

end Site
end Imageboard
