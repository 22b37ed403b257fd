import Imageboard.Crypto.Base64
import Imageboard.Proofs.Text.Cuts

namespace Imageboard.Base64

variable {n : Nat} {bs : Bytes} {c : Char} {a b d : Char} {rest : List Char}

theorem value?_digit (h : n < 64) : value? (digit n) = some n := by
  have all : ∀ n ∈ List.range 64, value? (digit n) = some n := by decide
  exact all n (List.mem_range.2 h)

theorem digit_ne_pad (h : n < 64) : digit n ≠ '=' := by
  intro he
  have hv := value?_digit h
  rw [he] at hv
  cases hv

theorem ofNat_eq {byte : UInt8} (h : n % 256 = byte.toNat) : UInt8.ofNat n = byte := by
  apply UInt8.toNat_inj.1
  rw [UInt8.toNat_ofNat', h]

theorem decodeList?_group (hd : d ≠ '=') : decodeList? (a :: b :: c :: d :: rest) = (do
    let n := (((← value? a) * 64 + (← value? b)) * 64 + (← value? c)) * 64 + (← value? d)
    let bs ← decodeList? rest
    return UInt8.ofNat (n / 65536) :: UInt8.ofNat (n / 256) :: UInt8.ofNat n :: bs) := by
  rw [decodeList?]
  · intro hc he
    exact absurd he hd
  · intro he
    exact absurd he hd

theorem decodeList?_encodeList (bs : Bytes) : decodeList? (encodeList bs) = some bs := by
  induction bs using encodeList.induct with
  | case1 => rfl
  | case2 a =>
    have ha := a.toNat_lt
    simp only [encodeList, decodeList?, value?_digit (show a.toNat * 16 / 64 < 64 by omega),
      value?_digit (show a.toNat * 16 % 64 < 64 by omega), bind, Option.bind]
    rw [if_pos (by omega), ofNat_eq (show _ % 256 = a.toNat by omega)]
  | case3 a b =>
    have ha := a.toNat_lt
    have hb := b.toNat_lt
    rw [encodeList]
    generalize hn : (a.toNat * 256 + b.toNat) * 4 = n
    have h₁ : n / 4096 < 64 := by omega
    have h₂ : n / 64 % 64 < 64 := by omega
    have h₃ : n % 64 < 64 := by omega
    rw [decodeList?]
    · simp only [value?_digit h₁, value?_digit h₂, value?_digit h₃, bind, Option.bind]
      rw [if_pos (by omega), ofNat_eq (show _ % 256 = a.toNat by omega),
        ofNat_eq (show _ % 256 = b.toNat by omega)]
    · exact digit_ne_pad h₃
  | case4 a b c rest ih =>
    have ha := a.toNat_lt
    have hb := b.toNat_lt
    have hc := c.toNat_lt
    rw [encodeList]
    generalize hn : (a.toNat * 256 + b.toNat) * 256 + c.toNat = n
    have h₁ : n / 262144 < 64 := by omega
    have h₂ : n / 4096 % 64 < 64 := by omega
    have h₃ : n / 64 % 64 < 64 := by omega
    have h₄ : n % 64 < 64 := by omega
    rw [decodeList?_group (digit_ne_pad h₄)]
    simp only [value?_digit h₁, value?_digit h₂, value?_digit h₃, value?_digit h₄, ih, bind,
      Option.bind, pure]
    rw [ofNat_eq (show _ % 256 = a.toNat by omega), ofNat_eq (show _ % 256 = b.toNat by omega),
      ofNat_eq (show _ % 256 = c.toNat by omega)]

theorem decode?_encode (bs : Bytes) : decode? (encode bs) = some bs := by
  rw [decode?, encode, String.toList_ofList, decodeList?_encodeList]

theorem encodeList_eq (bs : Bytes) : ∃ (ns : List Nat) (pad : Nat), (∀ n ∈ ns, n < 64) ∧ pad ≤ 2 ∧
    encodeList bs = ns.map digit ++ List.replicate pad '=' := by
  induction bs using encodeList.induct with
  | case1 => exact ⟨[], 0, nofun, by omega, rfl⟩
  | case2 a =>
    have ha := a.toNat_lt
    refine ⟨[a.toNat * 16 / 64, a.toNat * 16 % 64], 2, ?_, by omega, rfl⟩
    simp only [List.forall_mem_cons, List.not_mem_nil, false_implies, implies_true, and_true]
    omega
  | case3 a b =>
    have ha := a.toNat_lt
    have hb := b.toNat_lt
    let n := (a.toNat * 256 + b.toNat) * 4
    refine ⟨[n / 4096, n / 64 % 64, n % 64], 1, ?_, by omega, rfl⟩
    simp only [List.forall_mem_cons, List.not_mem_nil, false_implies, implies_true, and_true]
    omega
  | case4 a b c rest ih =>
    obtain ⟨ns, pad, hns, hpad, he⟩ := ih
    have ha := a.toNat_lt
    have hb := b.toNat_lt
    have hc := c.toNat_lt
    let n := (a.toNat * 256 + b.toNat) * 256 + c.toNat
    refine ⟨n / 262144 :: n / 4096 % 64 :: n / 64 % 64 :: n % 64 :: ns, pad, ?_, hpad, ?_⟩
    · simp only [List.forall_mem_cons]
      exact ⟨by omega, by omega, by omega, by omega, hns⟩
    · rw [encodeList, he]
      rfl

theorem length_encodeList_mod (bs : Bytes) : (encodeList bs).length % 4 = 0 := by
  induction bs using encodeList.induct with
  | case1 => rfl
  | case2 a => simp [encodeList]
  | case3 a b => simp [encodeList]
  | case4 a b c rest ih =>
    simp only [encodeList, List.length_cons]
    omega

theorem encodeList_ne_nil (h : bs ≠ []) : encodeList bs ≠ [] := by
  intro he
  have hd := decodeList?_encodeList bs
  rw [he] at hd
  exact h (Option.some.inj hd).symm

theorem forall_mem_encodeList {p : Char → Bool} (digits : ∀ n ∈ List.range 64, p (digit n) = true)
    (pad : p '=' = true) : ∀ c ∈ encodeList bs, p c = true := by
  obtain ⟨ns, k, hns, -, he⟩ := encodeList_eq bs
  intro c hc
  rw [he] at hc
  rcases List.mem_append.1 hc with hc | hc
  · obtain ⟨n, hn, rfl⟩ := List.mem_map.1 hc
    exact digits n (List.mem_range.2 (hns n hn))
  · rw [List.eq_of_mem_replicate hc]
    exact pad

theorem strip_encodeList (bs : Bytes) :
    Text.strip Text.isBlank (encodeList bs) = encodeList bs := by
  have bare : ∀ c ∈ encodeList bs, (!Text.isBlank c) = true :=
    forall_mem_encodeList (by decide) (by decide)
  refine Text.strip_eq_self (fun c hc => ?_) fun c hc => ?_
  · simpa using bare c (List.mem_of_mem_head? hc)
  · simpa using bare c (List.mem_of_mem_getLast? hc)

theorem pad_not_mem_take {k : Nat} (h : k + 2 ≤ (encodeList bs).length) :
    '=' ∉ (encodeList bs).take k := by
  obtain ⟨ns, pad, hns, hpad, he⟩ := encodeList_eq bs
  have hlen : k ≤ (ns.map digit).length := by
    rw [he, List.length_append, List.length_replicate] at h
    omega
  rw [he, List.take_append_of_le_length hlen]
  intro hm
  obtain ⟨n, hn, hd⟩ := List.mem_map.1 (List.mem_of_mem_take hm)
  exact digit_ne_pad (hns n hn) hd

end Imageboard.Base64
