import Imageboard.Crypto.RsaKeyPair
import Imageboard.Proofs.Crypto.Der
import Imageboard.Proofs.Crypto.Pem

namespace Imageboard.Rsa

open Der Text

variable {bs : Bytes} {text : String} {n : Nat}

theorem lt_of_bits_le {bound : Nat} (h : bits n ≤ bound) : n < 2 ^ bound := by
  unfold bits at h
  split at h
  next hn => exact hn ▸ Nat.two_pow_pos bound
  next hn => exact (Nat.log2_lt hn).1 h

theorem integerWidth_le (h : n < 2 ^ maxBits) : integerWidth n ≤ 513 := by
  have hlog : n.log2 < maxBits := by
    by_cases hn : n = 0
    · rw [hn]
      decide
    · exact (Nat.log2_lt hn).2 h
  have hmax : maxBits = 4096 := rfl
  unfold integerWidth
  split <;> omega

section Sequence

variable {ns : List Nat} (h : ∀ n ∈ ns, n < 2 ^ maxBits) (hlen : ns.length ≤ 9)
include h hlen

theorem length_numbers_le : (ns.map integer).flatten.length ≤ 4653 :=
  (length_flatten_integer_le (by decide) fun n hn => integerWidth_le (h n hn)).trans
    (Nat.mul_le_mul_right _ hlen)

theorem length_sequence_le : (Der.sequence (ns.map integer)).length ≤ 4657 := by
  have numbers := length_numbers_le h hlen
  exact (length_wrap_le sequenceTag (numbers.trans_lt (by decide))).trans
    (Nat.add_le_add_right numbers 4)

theorem integers?_sequence :
    (only? sequenceTag (Der.sequence (ns.map integer))).bind (integers? ns.length) =
      some (ns, []) := by
  have read : integers? ns.length ((ns.map integer).flatten ++ []) = some (ns, []) :=
    integers?_integer fun n hn => (integerWidth_le (h n hn)).trans (show 513 ≤ longest by decide)
  rw [List.append_nil] at read
  rw [Der.sequence, only?_wrap ((length_numbers_le h hlen).trans (by decide)), Option.bind_some,
    read]

end Sequence

namespace PublicKey

variable {k : PublicKey}

theorem numbers_lt (h : k.isSound = true) : ∀ n ∈ [k.modulus, k.exponent], n < 2 ^ maxBits := by
  simp only [isSound, Bool.and_eq_true, decide_eq_true_eq] at h
  obtain ⟨⟨⟨⟨⟨hbits, hexponent⟩, -⟩, -⟩, -⟩, -⟩ := h
  have hmodulus := lt_of_bits_le hbits
  simpa using And.intro hmodulus (hexponent.trans hmodulus)

theorem ofBytes?_toBytes (h : k.isSound = true) : ofBytes? k.toBytes = some k := by
  obtain ⟨content, hcontent, read⟩ :=
    Option.bind_eq_some_iff.1 (integers?_sequence (numbers_lt h) (show 2 ≤ 9 by decide))
  have hcontent : only? sequenceTag k.toBytes = some content := hcontent
  have read : integers? 2 content = some ([k.modulus, k.exponent], []) := read
  unfold ofBytes?
  simp only [hcontent, read, bind, Option.bind]
  exact if_pos h

theorem ofEnvelope?_wrap (h : k.isSound = true) :
    ofEnvelope? (Der.sequence [algorithm, wrap bitsTag (0 :: k.toBytes)]) = some k := by
  have key : (0 :: k.toBytes).length ≤ 4658 :=
    Nat.succ_le_succ (length_sequence_le (numbers_lt h) (show 2 ≤ 9 by decide))
  have wrapped := length_wrap_le bitsTag (key.trans_lt (by decide))
  have content : [algorithm, wrap bitsTag (0 :: k.toBytes)].flatten =
      algorithm ++ wrap bitsTag (0 :: k.toBytes) := by
    simp
  have outer : only? sequenceTag (Der.sequence [algorithm, wrap bitsTag (0 :: k.toBytes)]) =
      some (algorithm ++ wrap bitsTag (0 :: k.toBytes)) := by
    rw [Der.sequence, content, only?_wrap]
    rw [List.length_append, show algorithm.length = 15 by decide]
    exact (show _ ≤ 4677 by omega).trans (by decide)
  have inner : afterAlgorithm? (algorithm ++ wrap bitsTag (0 :: k.toBytes)) =
      some (wrap bitsTag (0 :: k.toBytes)) := by
    simp [afterAlgorithm?]
  unfold ofEnvelope?
  simp only [outer, inner, only?_wrap (key.trans (show 4658 ≤ longest by decide)), bind,
    Option.bind]
  exact ofBytes?_toBytes h

theorem ofPem?_toPem (h : k.isSound = true) : ofPem? k.toPem = some k := by
  have filled : Der.sequence [algorithm, wrap bitsTag (0 :: k.toBytes)] ≠ [] := List.cons_ne_nil _ _
  unfold ofPem? toPem
  rw [Pem.decode?_encode filled, Option.bind_some, ofEnvelope?_wrap h]
  rfl

end PublicKey

namespace PrivateKey

variable {k : PrivateKey}

theorem isSound_of_ofBytes? (h : ofBytes? bs = some k) : k.isSound = true := by
  unfold ofBytes? at h
  obtain ⟨content, -, h⟩ := Option.bind_eq_some_iff.1 h
  obtain ⟨parts, -, h⟩ := Option.bind_eq_some_iff.1 h
  split at h
  next =>
    dsimp only at h
    split at h
    next hs =>
      obtain rfl := Option.some.inj h
      exact hs
    next => cases h
  next => cases h

/-- Whatever is read as a private key is a sound one. -/
theorem isSound_of_ofPem? (h : ofPem? text = some k) : k.isSound = true := by
  unfold ofPem? at h
  rw [Option.orElse_eq_or, Option.or_eq_some_iff] at h
  rcases h with h | ⟨-, h⟩
  · obtain ⟨bs, -, h⟩ := Option.bind_eq_some_iff.1 h
    exact isSound_of_ofBytes? h
  · obtain ⟨bs, -, h⟩ := Option.bind_eq_some_iff.1 h
    unfold ofEnvelope? at h
    obtain ⟨_, -, h⟩ := Option.bind_eq_some_iff.1 h
    obtain ⟨_, -, h⟩ := Option.bind_eq_some_iff.1 h
    obtain ⟨_, -, h⟩ := Option.bind_eq_some_iff.1 h
    obtain ⟨_, -, h⟩ := Option.bind_eq_some_iff.1 h
    obtain ⟨_, -, h⟩ := Option.bind_eq_some_iff.1 h
    split at h
    next => exact isSound_of_ofBytes? h
    next => cases h

def numbers (k : PrivateKey) : List Nat :=
  [0, k.modulus, k.exponent, k.secret, k.p, k.q, k.secret % (k.p - 1), k.secret % (k.q - 1),
    inverse k.q k.p]

theorem inverse_lt (a : Nat) {m : Nat} (hm : 0 < m) : inverse a m < m := by
  unfold inverse
  generalize inverse.go _ _ _ _ _ = x
  have := Int.emod_lt_of_pos x (show (0 : Int) < m by omega)
  omega

theorem factors_le (h : k.isSound = true) :
    2 ≤ k.p ∧ 2 ≤ k.q ∧ k.p * k.q = k.modulus ∧ k.p ≤ k.modulus ∧ k.q ≤ k.modulus := by
  simp only [isSound, Bool.and_eq_true, decide_eq_true_eq, beq_iff_eq] at h
  obtain ⟨⟨⟨⟨⟨⟨-, hp⟩, hq⟩, hmul⟩, -⟩, -⟩, -⟩ := h
  exact ⟨hp, hq, hmul, hmul ▸ Nat.le_mul_of_pos_right k.p (by omega),
    hmul ▸ Nat.le_mul_of_pos_left k.q (by omega)⟩

theorem isSound_public (h : k.isSound = true) : k.public.isSound = true := by
  simp only [isSound, Bool.and_eq_true] at h
  exact h.1.1.1.1.1.1

theorem modulus_lt (h : k.isSound = true) : k.modulus < 2 ^ maxBits :=
  PublicKey.numbers_lt (isSound_public h) k.modulus List.mem_cons_self

theorem numbers_lt (h : k.isSound = true) (hs : k.secret < 2 ^ maxBits) :
    ∀ n ∈ k.numbers, n < 2 ^ maxBits := by
  obtain ⟨hp, -, -, hp', hq'⟩ := factors_le h
  have hmodulus := modulus_lt h
  have hexponent : k.exponent < 2 ^ maxBits :=
    PublicKey.numbers_lt (isSound_public h) k.exponent (List.mem_cons_of_mem _ List.mem_cons_self)
  have helper := inverse_lt k.q (show 0 < k.p by omega)
  have rest (m : Nat) : k.secret % m ≤ k.secret := Nat.mod_le _ _
  simp only [numbers, List.forall_mem_cons, List.not_mem_nil, false_implies, implies_true, and_true]
  exact ⟨Nat.two_pow_pos _, hmodulus, hexponent, hs, hp'.trans_lt hmodulus, hq'.trans_lt hmodulus,
    (rest _).trans_lt hs, (rest _).trans_lt hs, helper.trans (hp'.trans_lt hmodulus)⟩

theorem ofBytes?_toBytes (h : k.isSound = true) (hs : k.secret < 2 ^ maxBits) :
    ofBytes? k.toBytes = some k := by
  obtain ⟨content, hcontent, read⟩ :=
    Option.bind_eq_some_iff.1 (integers?_sequence (numbers_lt h hs) (show 9 ≤ 9 by decide))
  have hcontent : only? sequenceTag k.toBytes = some content := hcontent
  have read : integers? 9 content = some (k.numbers, []) := read
  unfold ofBytes?
  simp only [hcontent, read, bind, Option.bind]
  exact if_pos h

/-- A sound private key reads back from its file. -/
theorem ofPem?_toPem (h : k.isSound = true) (hs : k.secret < 2 ^ maxBits) :
    ofPem? k.toPem = some k := by
  have filled : k.toBytes ≠ [] := List.cons_ne_nil _ _
  unfold ofPem? toPem
  rw [Pem.decode?_encode filled, Option.bind_some, ofBytes?_toBytes h hs]
  rfl

/-- A key that is made is sound, and its secret fits a file. -/
theorem of_generate? {size first second : Nat} (h : generate? size first second = some k) :
    k.isSound = true ∧ k.secret < 2 ^ maxBits := by
  unfold generate? at h
  split at h
  next => cases h
  next =>
    obtain ⟨p, -, h⟩ := Option.bind_eq_some_iff.1 h
    obtain ⟨q, -, h⟩ := Option.bind_eq_some_iff.1 h
    dsimp only at h
    split at h
    next hk =>
      obtain rfl := Option.some.inj h
      obtain ⟨hp, hq, hmul, -, -⟩ := factors_le hk.2
      refine ⟨hk.2, ?_⟩
      have hpos : 0 < (p - 1) * (q - 1) := Nat.mul_pos (Nat.sub_pos_of_lt hp) (Nat.sub_pos_of_lt hq)
      have hle : (p - 1) * (q - 1) ≤ p * q := Nat.mul_le_mul (Nat.sub_le p 1) (Nat.sub_le q 1)
      exact (inverse_lt commonExponent hpos).trans (hle.trans_lt (hmul ▸ modulus_lt hk.2))
    next => cases h

end PrivateKey
end Imageboard.Rsa
