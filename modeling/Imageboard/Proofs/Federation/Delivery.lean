import Imageboard.Proofs.Operation

namespace Imageboard

theorem Node.after_map {α β : Type} (n : Node) (f : α → β) (x : Except Fault (α × Node)) :
    n.after (x.map fun y => (f y.1, y.2)) = n.after x := by
  cases x <;> rfl

namespace Operation

theorem perform_publish (s : Site) (around : Surroundings) (now : Instant) (log : Log)
    (draws : Draws) (draft : Object) (n : Node) :
    (publish around now log draws draft).perform s n =
      n.after (s.posted now draft n draws.suffixes) := by
  rw [← s.publish_settled around now draft n draws log, n.after_map Published.post]
  rfl

theorem perform_deleteAll (s : Site) (around : Surroundings) (log : Log) (draws : Draws)
    (id : String) (n : Node) :
    (deleteAll around log draws id).perform s n =
      if (n.board.get id).isSome then (s.delete id n).1 else n := by
  rw [perform, s.deleteAll_settled around id n draws log]
  split <;> rfl

/-- What is posted and what is taken out, and what a node holds after it, is the same in all
surroundings, whatever went out before and whatever ids are drawn for the activities. -/
theorem delivery_decides_nothing (s : Site) (now : Instant) (draft : Object) (id : String)
    (n : Node) (suffixes : List IdSuffix) (around around' : Surroundings) (log log' : Log)
    (drawn drawn' : List Bytes) :
    let published (around : Surroundings) (log : Log) (drawn : List Bytes) :=
      ((s.publish around now draft n ⟨suffixes, drawn⟩).run log).1.1
    let deleted := ((s.deleteAll around id n ⟨suffixes, drawn⟩).run log).1.1
    (published around log drawn).map (·.1.post) = (published around' log' drawn').map (·.1.post) ∧
      (publish around now log ⟨suffixes, drawn⟩ draft).perform s n =
        (publish around' now log' ⟨suffixes, drawn'⟩ draft).perform s n ∧
      deleted.map (·.1) =
        (if (n.board.get id).isSome then .ok (s.delete id n).2
        else .error (.refused (.nothingToDelete id))) ∧
      (deleteAll around log ⟨suffixes, drawn⟩ id).perform s n =
        if (n.board.get id).isSome then (s.delete id n).1 else n := by
  intro published deleted
  have post (around : Surroundings) (log : Log) (drawn : List Bytes) :
      (published around log drawn).map (·.1.post) =
        (s.posted now draft n suffixes).map Prod.fst := by
    rw [← s.publish_settled around now draft n ⟨suffixes, drawn⟩ log]
    change (published around log drawn).map _ = ((published around log drawn).map _).map _
    cases published around log drawn <;> rfl
  have removed : deleted.map (·.1) = if (n.board.get id).isSome then .ok (s.delete id n).2
      else .error (.refused (.nothingToDelete id)) := by
    dsimp only [deleted]
    rw [s.deleteAll_settled around id n ⟨suffixes, drawn⟩ log]
    split <;> rfl
  refine ⟨(post ..).trans (post ..).symm, ?_, removed, perform_deleteAll ..⟩
  exact (perform_publish ..).trans
    (perform_publish s around' now log' ⟨suffixes, drawn'⟩ draft n).symm

end Operation
end Imageboard
