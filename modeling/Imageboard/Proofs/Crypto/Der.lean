import Imageboard.Crypto.Der
import Imageboard.Proofs.Text.Bytes

namespace Imageboard.Text

theorem ofNumber_succ (width n : Nat) :
    ofNumber (width + 1) n = UInt8.ofNat (n / 256 ^ width) :: ofNumber width n := by
  induction width generalizing n with
  | zero => simp [ofNumber]
  | succ width ih =>
    rw [ofNumber, ih, List.cons_append, Nat.div_div_eq_div_mul, ← Nat.pow_succ']
    rfl

end Imageboard.Text

namespace Imageboard.Der

open Text

variable {n : Nat} {ns : List Nat} {tag : UInt8} {content rest : Bytes}

/-- The longest content that a value can have, in bytes. -/
def longest : Nat := 256 ^ 4 - 1

theorem length?_lengthBytes (h : n ≤ longest) :
    length? (lengthBytes n ++ rest) = some (n, rest) := by
  unfold lengthBytes
  split
  next hshort =>
    have hn : (UInt8.ofNat n).toNat = n := by
      rw [UInt8.toNat_ofNat']
      omega
    simp [length?, hn, hshort]
  next hlong =>
    obtain ⟨hpos, hlow, hhigh⟩ := byteLength_bounds (n := n) (by omega)
    have hwidth : byteLength n ≤ 4 := by
      by_contra hmore
      have := Nat.pow_le_pow_right (show 0 < 256 by decide) (show 4 ≤ byteLength n - 1 by omega)
      unfold longest at h
      omega
    have hfirst : (UInt8.ofNat (128 + byteLength n)).toNat = 128 + byteLength n := by
      rw [UInt8.toNat_ofNat']
      omega
    have hlen := length_ofNumber (byteLength n) n
    have hvalue := toNumber_ofNumber_of_lt hhigh
    dsimp only
    rw [List.cons_append, length?]
    simp only [hfirst, Nat.add_sub_cancel_left, List.take_left' hlen, List.drop_left' hlen, hvalue]
    rw [if_neg (by omega), if_pos]
    rw [List.length_append, hlen]
    exact ⟨hpos, hwidth, by omega, by omega, trivial⟩

theorem unwrap?_wrap (h : content.length ≤ longest) :
    unwrap? tag (wrap tag content ++ rest) = some (content, rest) := by
  rw [wrap, List.cons_append, List.cons_append, List.append_assoc, unwrap?, if_pos rfl,
    length?_lengthBytes h]
  simp

theorem only?_wrap (h : content.length ≤ longest) :
    only? tag (wrap tag content) = some content := by
  have hwrap : unwrap? tag (wrap tag content ++ []) = some (content, []) := unwrap?_wrap h
  rw [List.append_nil] at hwrap
  rw [only?, hwrap]

theorem length_wrap_le (tag : UInt8) (h : content.length < 2 ^ 16) :
    (wrap tag content).length ≤ content.length + 4 := by
  unfold wrap lengthBytes
  split
  next => simp
  next hlong =>
    have hlog : content.length.log2 < 16 := (Nat.log2_lt (by omega)).2 h
    have hwidth : byteLength content.length ≤ 2 := by
      rw [byteLength, if_neg (by omega)]
      omega
    simp only [List.length_append, List.length_cons, length_ofNumber]
    omega

/-- How many bytes a number takes up, with the one that keeps its sign bit clear. -/
def integerWidth (n : Nat) : Nat :=
  n.log2 / 8 + 1 + if n.log2 % 8 = 7 then 1 else 0

theorem ofNumber_integerWidth (n : Nat) :
    (∃ b, ofNumber (integerWidth n) n = [b] ∧ b < 128 ∧ b.toNat = n) ∨
      ∃ b c bs, ofNumber (integerWidth n) n = b :: c :: bs ∧ b < 128 ∧ (b ≠ 0 ∨ 128 ≤ c) := by
  have byte {k : Nat} (h : k < 256) : (UInt8.ofNat k).toNat = k := by
    rw [UInt8.toNat_ofNat', Nat.mod_eq_of_lt h]
  have high : n < 2 ^ (n.log2 % 8 + 1) * 256 ^ (n.log2 / 8) := by
    have := Nat.lt_log2_self (n := n)
    rwa [show n.log2 + 1 = n.log2 % 8 + 1 + 8 * (n.log2 / 8) by omega, Nat.pow_add,
      Nat.pow_mul] at this
  have low (h : n ≠ 0) : 2 ^ (n.log2 % 8) * 256 ^ (n.log2 / 8) ≤ n := by
    have := Nat.log2_self_le h
    rwa [show n.log2 = n.log2 % 8 + 8 * (n.log2 / 8) by omega, Nat.pow_add, Nat.pow_mul] at this
  have hpos : 0 < 256 ^ (n.log2 / 8) := Nat.pow_pos (by decide)
  unfold integerWidth
  generalize hk : n.log2 / 8 = k at *
  split
  next hfull =>
    rw [hfull] at high low
    have hn : n ≠ 0 := by
      rintro rfl
      cases hfull
    have first : n / 256 ^ (k + 1) = 0 := by
      rw [Nat.div_eq_zero_iff, Nat.pow_succ']
      exact .inr high
    have second : 128 ≤ n / 256 ^ k ∧ n / 256 ^ k < 256 :=
      ⟨(Nat.le_div_iff_mul_le hpos).2 (low hn), (Nat.div_lt_iff_lt_mul hpos).2 high⟩
    refine .inr ⟨_, _, _, by rw [ofNumber_succ, ofNumber_succ], ?_, .inr ?_⟩
    · rw [first]
      decide
    · rw [UInt8.le_iff_toNat_le, byte second.2]
      exact second.1
  next hfree =>
    have small : 2 ^ (n.log2 % 8 + 1) ≤ 128 :=
      Nat.pow_le_pow_right (show 0 < 2 by decide) (show n.log2 % 8 + 1 ≤ 7 by omega)
    have first : n / 256 ^ k < 128 :=
      (Nat.div_lt_iff_lt_mul hpos).2 (high.trans_le (Nat.mul_le_mul_right _ small))
    have hfirst := byte (first.trans (by decide))
    cases k with
    | zero =>
      rw [Nat.pow_zero, Nat.div_one] at first hfirst
      refine .inl ⟨UInt8.ofNat n, by simp [ofNumber], ?_, hfirst⟩
      rw [UInt8.lt_iff_toNat_lt, hfirst]
      exact first
    | succ k =>
      refine .inr ⟨_, _, _, by rw [Nat.add_zero, ofNumber_succ, ofNumber_succ], ?_, .inl ?_⟩
      · rw [UInt8.lt_iff_toNat_lt, hfirst]
        exact first
      · intro hzero
        have hn : n ≠ 0 := by
          rintro rfl
          cases hk
        have positive : 0 < n / 256 ^ (k + 1) :=
          Nat.div_pos ((Nat.le_mul_of_pos_left _ (Nat.two_pow_pos _)).trans (low hn)) hpos
        rw [hzero] at hfirst
        exact absurd hfirst.symm positive.ne'

theorem integer?_integer (h : integerWidth n ≤ longest) :
    integer? (integer n ++ rest) = some (n, rest) := by
  have fits : n < 256 ^ integerWidth n := by
    by_cases hn : n = 0
    · exact hn ▸ Nat.pow_pos (by decide)
    · refine (byteLength_bounds hn).2.2.trans_le (Nat.pow_le_pow_right (by decide) ?_)
      rw [byteLength, if_neg hn]
      exact Nat.le_add_right _ _
  have value := toNumber_ofNumber_of_lt fits
  have hcontent : integer n = wrap integerTag (ofNumber (integerWidth n) n) := rfl
  rw [hcontent, integer?, unwrap?_wrap (by rwa [length_ofNumber])]
  rcases ofNumber_integerWidth n with ⟨b, hb, hsign, hn⟩ | ⟨b, c, bs, hb, hsign, hshort⟩
  · rw [hb]
    simp only [bind, Option.bind, hsign, if_true, hn]
  · rw [hb] at value ⊢
    simp only [bind, Option.bind, hsign, hshort, and_self, if_true, value]

theorem length_flatten_integer_le {width : Nat} (hwidth : width < 2 ^ 16)
    (h : ∀ n ∈ ns, integerWidth n ≤ width) :
    (ns.map integer).flatten.length ≤ ns.length * (width + 4) := by
  induction ns with
  | nil => exact Nat.zero_le _
  | cons n ns ih =>
    have others := ih fun m hm => h m (List.mem_cons_of_mem n hm)
    have hn : (ofNumber (integerWidth n) n).length ≤ width :=
      (length_ofNumber _ _).trans_le (h n List.mem_cons_self)
    have first : (integer n).length ≤ (ofNumber (integerWidth n) n).length + 4 :=
      length_wrap_le integerTag (hn.trans_lt hwidth)
    rw [List.map_cons, List.flatten_cons, List.length_append, List.length_cons, Nat.succ_mul]
    omega

theorem integers?_integer (h : ∀ n ∈ ns, integerWidth n ≤ longest) :
    integers? ns.length ((ns.map integer).flatten ++ rest) = some (ns, rest) := by
  induction ns with
  | nil => rfl
  | cons n ns ih =>
    have first : integer? (integer n ++ ((ns.map integer).flatten ++ rest)) =
        some (n, (ns.map integer).flatten ++ rest) := integer?_integer (h n List.mem_cons_self)
    rw [List.map_cons, List.flatten_cons, List.append_assoc, List.length_cons, integers?, first]
    have others := ih fun m hm => h m (List.mem_cons_of_mem n hm)
    simp only [bind, Option.bind, others, pure]

end Imageboard.Der
