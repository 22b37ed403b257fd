import Imageboard.Crypto.Rsa
import Imageboard.Proofs.Text.Bytes

namespace Imageboard

theorem Sha256.length_digest (message : Bytes) : (Sha256.digest message).length = 32 := by
  simp [Sha256.digest, Digest.bigBytes]

namespace Rsa

theorem digest_eq_of_padded?_eq {size n : Nat} {m m' : Bytes} (h : padded? size m = some n)
    (h' : padded? size m' = some n) : Sha256.digest m = Sha256.digest m' := by
  have hl : (Sha256.digest m).length = (Sha256.digest m').length := by
    rw [Sha256.length_digest, Sha256.length_digest]
  unfold padded? at h h'
  dsimp only at h h'
  split at h
  next =>
    split at h'
    next =>
      have hn := (Option.some.inj h).trans (Option.some.inj h').symm
      simp only [List.length_append, hl] at hn
      have hb := Text.toNumber_inj (by simp [hl]) hn
      exact List.append_cancel_left (List.append_cancel_left hb)
    next => cases h'
  next => cases h

/-- A signature under a key is one for at most one digest. -/
theorem digest_eq_of_verify {k : PublicKey} {m m' signature : Bytes}
    (h : verify k m signature = true) (h' : verify k m' signature = true) :
    Sha256.digest m = Sha256.digest m' := by
  simp only [verify, Bool.and_eq_true, beq_iff_eq] at h h'
  exact digest_eq_of_padded?_eq h.2 h'.2

end Rsa
end Imageboard
