import Imageboard.Crypto.RsaKeyFile
import Imageboard.Proofs.Crypto.Rsa
import Mathlib.FieldTheory.Finite.Basic

namespace Imageboard.Rsa

variable {k : PrivateKey} {message signature : Bytes} {size n p q e d : Nat}

theorem powMod_eq (m b e : Nat) : powMod m b e = b ^ e % m := by
  induction e using Nat.strongRecOn generalizing b with
  | ind e ih =>
    unfold powMod
    by_cases he : e = 0
    · rw [if_pos he, he, Nat.pow_zero]
    · rw [if_neg he, ih (e / 2) (by omega)]
      have square : (b * b % m) ^ (e / 2) % m = b ^ (2 * (e / 2)) % m := by
        rw [← Nat.pow_mod, ← Nat.pow_two, ← Nat.pow_mul]
      dsimp only
      rw [square]
      split
      next hodd =>
        have hsplit : e = 2 * (e / 2) + 1 := by omega
        conv => rhs; rw [hsplit]
        rw [Nat.mul_mod_mod, Nat.pow_succ, Nat.mul_comm]
      next heven =>
        have hsplit : 2 * (e / 2) = e := by omega
        rw [hsplit]

theorem lt_of_padded? (h : padded? size message = some n) : n < 256 ^ (size - 1) := by
  unfold padded? at h
  dsimp only at h
  split at h
  next hsize =>
    generalize digestMark ++ Sha256.digest message = tail at h hsize
    obtain rfl := Option.some.inj h
    have front (bs : Bytes) : Text.toNumber (0 :: bs) = Text.toNumber bs := by
      simp [Text.toNumber]
    rw [List.cons_append, List.cons_append, List.cons_append, front]
    refine (Text.toNumber_lt _).trans_le (Nat.pow_le_pow_right (by omega) ?_)
    simp only [List.length_append, List.length_cons, List.length_replicate, List.length_nil]
    omega
  next => cases h

theorem signature_ne_nil (h : sign? k message = some signature) : signature ≠ [] := by
  obtain ⟨m, hm, rfl⟩ := Option.map_eq_some_iff.1 h
  unfold padded? at hm
  dsimp only at hm
  split at hm
  next hsize =>
    intro hnil
    have hlen := congrArg List.length hnil
    rw [Text.length_ofNumber, List.length_nil] at hlen
    omega
  next => cases hm

theorem sign?_succeeds (message : Bytes) (h : 62 ≤ k.public.size) :
    ∃ signature, sign? k message = some signature := by
  have fits : (digestMark ++ Sha256.digest message).length + 11 ≤ k.public.size := by
    rw [List.length_append, Sha256.length_digest]
    exact h
  unfold sign? padded?
  dsimp only
  rw [if_pos fits]
  exact ⟨_, rfl⟩

/-- A power that leads once round and one further changes nothing modulo a prime. -/
theorem pow_modEq_self (hp : p.Prime) (hd : (e - 1) % (p - 1) = 0) (he : 1 ≤ e) (m : Nat) :
    m ^ e ≡ m [MOD p] := by
  have := Fact.mk hp
  obtain ⟨j, hj⟩ := Nat.dvd_of_mod_eq_zero hd
  have hsplit : e = (p - 1) * j + 1 := by omega
  apply (ZMod.natCast_eq_natCast_iff _ _ _).1
  rw [Nat.cast_pow, hsplit]
  by_cases hm : (m : ZMod p) = 0
  · rw [hm, zero_pow (Nat.succ_ne_zero _)]
  · rw [pow_succ, pow_mul, ZMod.pow_card_sub_one_eq_one hm, one_pow, one_mul]

theorem pow_mod_mul_self (hp : p.Prime) (hq : q.Prime) (hne : p ≠ q)
    (hep : (e - 1) % (p - 1) = 0) (heq : (e - 1) % (q - 1) = 0) (he : 1 ≤ e) {m : Nat}
    (hm : m < p * q) : m ^ e % (p * q) = m := by
  have coprime : Nat.Coprime p q := (Nat.coprime_primes hp hq).2 hne
  have both : m ^ e ≡ m [MOD p * q] :=
    (Nat.modEq_and_modEq_iff_modEq_mul coprime).1
      ⟨pow_modEq_self hp hep he m, pow_modEq_self hq heq he m⟩
  exact Eq.trans (both : m ^ e % (p * q) = m % (p * q)) (Nat.mod_eq_of_lt hm)

/-- A private key made of two different primes. -/
structure PrivateKey.Genuine (k : PrivateKey) : Prop where
  sound : k.isSound = true
  prime_p : k.p.Prime
  prime_q : k.q.Prime
  distinct : k.p ≠ k.q

theorem PrivateKey.Genuine.public_private (h : k.Genuine) {m : Nat} (hm : m < k.modulus) :
    powMod k.modulus (powMod k.modulus m k.secret) k.exponent = m := by
  have sound := h.sound
  simp only [PrivateKey.isSound, Bool.and_eq_true, beq_iff_eq, decide_eq_true_eq] at sound
  obtain ⟨⟨⟨⟨⟨⟨hpublic, hp⟩, hq⟩, hmul⟩, hsecret⟩, hep⟩, heq⟩ := sound
  simp only [PublicKey.isSound, Bool.and_eq_true, beq_iff_eq, decide_eq_true_eq] at hpublic
  have hexponent : 2 ≤ k.exponent := hpublic.1.2
  have hone : 1 ≤ k.exponent * k.secret := Nat.mul_pos (by omega) hsecret
  rw [powMod_eq, powMod_eq, ← Nat.pow_mod, ← Nat.pow_mul, Nat.mul_comm k.secret, ← hmul]
  exact pow_mod_mul_self h.prime_p h.prime_q h.distinct hep heq hone (hmul ▸ hm)

theorem verify_sign (hk : k.Genuine) (h : sign? k message = some signature) :
    verify k.public message signature = true := by
  obtain ⟨m, hm, rfl⟩ := Option.map_eq_some_iff.1 h
  have positive : k.modulus ≠ 0 := by
    intro hzero
    have sound := hk.sound
    simp [PrivateKey.isSound, PublicKey.isSound, PrivateKey.public, hzero] at sound
  obtain ⟨-, low, high⟩ := Text.byteLength_bounds positive
  have below : m < k.modulus := (lt_of_padded? hm).trans_le low
  have reduced : powMod k.modulus m k.secret < k.modulus := by
    rw [powMod_eq]
    exact Nat.mod_lt _ (Nat.pos_of_ne_zero positive)
  have number : Text.toNumber (Text.ofNumber k.public.size (powMod k.modulus m k.secret)) =
      powMod k.modulus m k.secret := Text.toNumber_ofNumber_of_lt (reduced.trans high)
  simp only [verify, number, Text.length_ofNumber, beq_self_eq_true, Bool.true_and,
    Bool.and_eq_true, decide_eq_true_eq, beq_iff_eq]
  refine ⟨reduced, ?_⟩
  rw [hm]
  exact congrArg some (hk.public_private below).symm

end Imageboard.Rsa
