import Imageboard.Keys.Registry
import Imageboard.Proofs.Board.Table
import Imageboard.Proofs.Effects

namespace Imageboard

theorem fileStep_eq_ok {α : Type} {task : Task} {x : Except FileFault α} {a : α} :
    fileStep task x = .ok a ↔ x = .ok a := by
  cases x with
  | ok b => exact ⟨fun h => congrArg _ (Except.ok.inj h), fun h => congrArg _ (Except.ok.inj h)⟩
  | error f => exact ⟨nofun, nofun⟩

namespace Node

variable {n : Node} {keyId : String} {key : PublicKey}

theorem publicKey_eq_none (h : n.publicKey keyId = .ok none) :
    ∀ k ∈ n.board.keys.rows, k.id ≠ keyId := by
  unfold publicKey at h
  split at h
  next hk =>
    intro k hm he
    exact Table.get?_eq_none_iff.1 hk k hm (congrArg ([·]) he)
  next =>
    obtain ⟨_, _, h⟩ := except_bind_eq_ok.1 h
    cases h

theorem publicKey_eq_some (h : n.publicKey keyId = .ok (some key)) :
    ∃ file, ⟨keyId, key.owner, file⟩ ∈ n.board.keys.rows ∧ n.files.read file = .ok key.pem := by
  unfold publicKey at h
  split at h
  next => cases h
  next k hk =>
    obtain ⟨hm, he⟩ := Table.get?_eq_some_iff.1 hk
    obtain ⟨pem, hp, h⟩ := except_bind_eq_ok.1 h
    cases h
    obtain rfl : k.id = keyId := List.head_eq_of_cons_eq he
    exact ⟨k.file, hm, fileStep_eq_ok.1 hp⟩

end Node
end Imageboard
