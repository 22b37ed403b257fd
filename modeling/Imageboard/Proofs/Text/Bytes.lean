import Imageboard.Text.Bytes
import Mathlib.Data.List.Induction
import Mathlib.Tactic.Ring
import Mathlib.Tactic.Linarith

namespace Imageboard.Text

theorem byteArray_loop_eq (bs : ByteArray) (i : Nat) (taken : List UInt8) :
    ByteArray.toList.loop bs i taken = taken.reverse ++ bs.data.toList.drop i := by
  fun_induction ByteArray.toList.loop bs i taken with
  | case1 i taken h ih =>
    have hi : i < bs.data.toList.length := by simpa using h
    have hb : bs.get! i = bs.data.toList[i] := (getElem!_pos bs.data i h).trans (by simp)
    rw [ih, List.drop_eq_getElem_cons hi, hb, List.reverse_cons, List.append_assoc]
    rfl
  | case2 i taken h =>
    have hi : bs.data.toList.length ≤ i := by simpa using h
    rw [List.drop_eq_nil_of_le hi, List.append_nil]

theorem utf8_inj {s t : String} : utf8 s = utf8 t ↔ s = t := by
  have bytes (s : String) : utf8 s = s.toByteArray.data.toList := by
    simp [utf8, ByteArray.toList, byteArray_loop_eq]
  refine ⟨fun h => ?_, congrArg utf8⟩
  rw [bytes, bytes] at h
  exact String.toByteArray_inj.1 (ByteArray.ext (Array.toList_inj.1 h))

theorem toNumber_inj {bs cs : Bytes} (hl : bs.length = cs.length) (h : toNumber bs = toNumber cs) :
    bs = cs := by
  -- whatever number stands before them
  have general (bs : Bytes) : ∀ (cs : Bytes) (n m : Nat), bs.length = cs.length →
      bs.foldl (fun n b => 256 * n + b.toNat) n = cs.foldl (fun n b => 256 * n + b.toNat) m →
      n = m ∧ bs = cs := by
    induction bs with
    | nil =>
      intro cs n m hl h
      obtain rfl := List.eq_nil_of_length_eq_zero hl.symm
      exact ⟨h, rfl⟩
    | cons b bs ih =>
      intro cs n m hl h
      cases cs with
      | nil => cases hl
      | cons c cs =>
        obtain ⟨hn, rfl⟩ := ih cs (256 * n + b.toNat) (256 * m + c.toNat) (Nat.succ.inj hl) h
        have hb : b.toNat < 256 := b.toNat_lt
        have hc : c.toNat < 256 := c.toNat_lt
        have hbc : b = c := UInt8.toNat_inj.1 (by omega)
        exact ⟨by omega, by rw [hbc]⟩
  exact (general bs cs 0 0 hl h).2

variable {bs cs : Bytes} {width n : Nat}

theorem toNumber_append (bs cs : Bytes) :
    toNumber (bs ++ cs) = toNumber bs * 256 ^ cs.length + toNumber cs := by
  induction cs using List.reverseRecOn with
  | nil => simp [toNumber]
  | append_singleton cs c ih =>
    have last (bs : Bytes) : toNumber (bs ++ [c]) = 256 * toNumber bs + c.toNat := by
      simp [toNumber]
    rw [← List.append_assoc, last, last, ih, List.length_append, List.length_singleton,
      Nat.pow_succ]
    ring

theorem toNumber_lt (bs : Bytes) : toNumber bs < 256 ^ bs.length := by
  induction bs with
  | nil => exact Nat.zero_lt_one
  | cons b bs ih =>
    have hb : b.toNat < 256 := b.toNat_lt
    have hcons : toNumber (b :: bs) = b.toNat * 256 ^ bs.length + toNumber bs := by
      have single : toNumber [b] = b.toNat := by simp [toNumber]
      rw [← List.singleton_append, toNumber_append, single]
    rw [hcons, List.length_cons, Nat.pow_succ]
    nlinarith

@[simp] theorem length_ofNumber (width n : Nat) : (ofNumber width n).length = width := by
  induction width generalizing n with
  | zero => rfl
  | succ width ih => simp [ofNumber, ih]

theorem toNumber_ofNumber (width n : Nat) : toNumber (ofNumber width n) = n % 256 ^ width := by
  induction width generalizing n with
  | zero => rw [Nat.pow_zero, Nat.mod_one]; rfl
  | succ width ih =>
    have single : toNumber [UInt8.ofNat n] = n % 256 := by simp [toNumber]
    rw [ofNumber, toNumber_append, ih, single, List.length_singleton, Nat.pow_one, Nat.pow_succ',
      Nat.mod_mul]
    ring

theorem toNumber_ofNumber_of_lt (h : n < 256 ^ width) : toNumber (ofNumber width n) = n := by
  rw [toNumber_ofNumber, Nat.mod_eq_of_lt h]

theorem byteLength_bounds (h : n ≠ 0) :
    1 ≤ byteLength n ∧ 256 ^ (byteLength n - 1) ≤ n ∧ n < 256 ^ byteLength n := by
  have power (k : Nat) : 256 ^ k = 2 ^ (8 * k) := by
    rw [Nat.pow_mul]
  have low : 2 ^ n.log2 ≤ n := Nat.log2_self_le h
  have high : n < 2 ^ (n.log2 + 1) := Nat.lt_log2_self
  have ordered {i j : Nat} (hij : i ≤ j) : 2 ^ i ≤ 2 ^ j := Nat.pow_le_pow_right (by omega) hij
  rw [byteLength, if_neg h, Nat.add_sub_cancel, power, power]
  exact ⟨by omega, (ordered (by omega)).trans low, high.trans_le (ordered (by omega))⟩

section Decoding

variable {rest tail : Bytes} {size n count : Nat} {a : UInt8} {bad : Char}

theorem bounds_of_scalar? (h : scalar? (a :: rest) = some (size, n)) :
    1 ≤ size ∧ ∀ i < size - 1, ∃ b, rest[i]? = some b ∧ 0x80 ≤ b := by
  unfold scalar? at h
  dsimp -zeta only at h
  extract_lets tail first at h
  have follows {i v : Nat} (h : tail i = some v) : ∃ b, rest[i]? = some b ∧ 0x80 ≤ b := by
    cases hb : rest[i]? with
    | none => simp [tail, hb] at h
    | some b =>
      by_cases hc : 0x80 ≤ b ∧ b < 0xC0
      · exact ⟨b, rfl, hc.1⟩
      · simp [tail, hb, hc] at h
  clear_value tail first
  dsimp only at h
  split at h
  · cases h
    exact ⟨le_rfl, by omega⟩
  split at h
  · obtain ⟨v, hv, h⟩ := Option.bind_eq_some_iff.1 h
    cases h
    refine ⟨by decide, fun i hi => ?_⟩
    obtain rfl : i = 0 := by omega
    exact follows hv
  split at h
  · obtain ⟨v, hv, h⟩ := Option.bind_eq_some_iff.1 h
    obtain ⟨w, hw, h⟩ := Option.bind_eq_some_iff.1 h
    split at h
    · cases h
      refine ⟨by decide, fun i hi => ?_⟩
      obtain rfl | rfl : i = 0 ∨ i = 1 := by omega
      · exact follows hv
      · exact follows hw
    · cases h
  split at h
  · obtain ⟨v, hv, h⟩ := Option.bind_eq_some_iff.1 h
    obtain ⟨w, hw, h⟩ := Option.bind_eq_some_iff.1 h
    obtain ⟨x, hx, h⟩ := Option.bind_eq_some_iff.1 h
    split at h
    · cases h
      refine ⟨by decide, fun i hi => ?_⟩
      obtain rfl | rfl | rfl : i = 0 ∨ i = 1 ∨ i = 2 := by omega
      · exact follows hv
      · exact follows hw
      · exact follows hx
    · cases h
  · cases h

theorem size_le_of_scalar? {front : Bytes} (ascii : ∀ b ∈ tail, b < 0x80)
    (h : scalar? (a :: (front ++ tail)) = some (size, n)) : 1 ≤ size ∧ size - 1 ≤ front.length := by
  obtain ⟨positive, high⟩ := bounds_of_scalar? h
  refine ⟨positive, Nat.le_of_not_lt fun long => ?_⟩
  obtain ⟨b, hb, hhigh⟩ := high front.length long
  rw [List.getElem?_append_right le_rfl, Nat.sub_self] at hb
  exact UInt8.not_lt.2 hhigh (ascii b (List.mem_of_getElem? hb))

theorem length_decodeWith (front : Bytes) (ascii : ∀ b ∈ tail, b < 0x80)
    (h : count ≤ tail.length) : (decodeWith [bad] count (front ++ tail)).length = count := by
  induction count generalizing front tail with
  | zero => simp [decodeWith]
  | succ count ih =>
    cases front with
    | nil =>
      cases tail with
      | nil => exact absurd h (by simp)
      | cons t tail =>
        have plain : scalar? (t :: tail) = some (1, t.toNat) := by
          have ht : t.toNat < 0x80 := ascii t List.mem_cons_self
          unfold scalar?
          exact if_pos ht
        have rest := ih [] (fun b hb => ascii b (List.mem_cons_of_mem t hb))
          (Nat.le_of_succ_le_succ h)
        rw [List.nil_append] at rest ⊢
        rw [decodeWith, plain]
        simpa using rest
    | cons a front =>
      rw [List.cons_append, decodeWith]
      cases hs : scalar? (a :: (front ++ tail)) with
      | none => simpa using ih front ascii (Nat.le_of_succ_le h)
      | some found =>
        obtain ⟨size, n⟩ := found
        obtain ⟨positive, short⟩ := size_le_of_scalar? ascii hs
        obtain ⟨size, rfl⟩ : ∃ k, size = k + 1 := ⟨size - 1, by omega⟩
        dsimp only
        rw [List.drop_succ_cons, List.drop_append_of_le_length (by omega)]
        simpa using ih (front.drop size) ascii (Nat.le_of_succ_le h)

end Decoding

end Imageboard.Text
