import Imageboard.Proofs.Text.Numerals
import Imageboard.Proofs.Time.Calendar
import Imageboard.Time.Rfc3339

namespace Imageboard.Rfc3339

open Text Time

variable {n width nano : Nat} {c : Char} {rest : List Char} {year : Int}

theorem digits_padded (width n : Nat) (h : ∀ d ∈ rest.head?, isDigit d = false) :
    digits ((padded width n).toList ++ rest) = ((padded width n).toList, rest) :=
  digits_append (fun _ => isDigit_of_mem_padded) h

theorem number?_padded (h : n < 10 ^ width) (hw : 0 < width) :
    number? width ((padded width n).toList ++ rest) = some (n, rest) := by
  have hlen := length_padded h hw
  have filled : (padded width n).toList.isEmpty = false :=
    List.isEmpty_eq_false_iff.2 (padded_ne_nil width n)
  simp only [number?, dropWhile_isBlank_padded, takeWhile_padded, List.take_left' hlen, filled,
    ofDigits_padded, List.drop_left, Bool.false_eq_true, if_false]

theorem mark?_cons (h : isBlank c = false) : mark? c (c :: rest) = some rest := by
  simp [mark?, h]

theorem year?_yearText (h : ∀ d ∈ rest.head?, isDigit d = false) :
    year? ((yearText year).toList ++ rest) = some (year, rest) := by
  have filled (n : Nat) : (padded 4 n).toList.isEmpty = false :=
    List.isEmpty_eq_false_iff.2 (padded_ne_nil 4 n)
  unfold yearText
  split
  next hyear =>
    obtain ⟨d, ds, hd⟩ := List.exists_cons_of_ne_nil (padded_ne_nil 4 year.toNat)
    have short : year.toNat < 10 ^ 4 := by omega
    have read : number? 4 ((padded 4 year.toNat).toList ++ rest) = some (year.toNat, rest) :=
      number?_padded short (by decide)
    have first : d ∈ (padded 4 year.toNat).toList := by
      rw [hd]
      exact List.mem_cons_self
    have digit : isDigit d = true := isDigit_of_mem_padded first
    have unsigned : d ≠ '-' ∧ d ≠ '+' := by
      constructor <;> rintro rfl <;> cases digit
    unfold year?
    rw [dropWhile_isBlank_padded]
    rw [hd, List.cons_append] at read ⊢
    dsimp only
    split
    next he => exact absurd (List.cons.inj he).1 unsigned.1
    next he => exact absurd (List.cons.inj he).1 unsigned.2
    next =>
      rw [read, Option.map_some, Int.toNat_of_nonneg hyear.1]
  next hyear =>
    rw [String.toList_append, List.append_assoc]
    split
    next hneg =>
      have abs : -(year.natAbs : Int) = year := by omega
      generalize year.natAbs = n at abs ⊢
      simp [year?, isBlank_eq_false, digits_padded 4 _ h, filled, ofDigits_padded, abs]
    next hneg =>
      have abs : (year.natAbs : Int) = year := by omega
      generalize year.natAbs = n at abs ⊢
      simp [year?, isBlank_eq_false, digits_padded 4 _ h, filled, ofDigits_padded, abs]

theorem fraction?_fractionText (h : nano < 1000000000) (hc : isDigit c = false) (hdot : c ≠ '.') :
    fraction? ((fractionText nano).toList ++ c :: rest) = some (nano, c :: rest) := by
  have written (width k : Nat) (hk : k < 10 ^ width) (hw : 0 < width) (hle : width ≤ 9)
      (he : k * 10 ^ (9 - width) = nano) :
      fraction? (("." ++ padded width k).toList ++ c :: rest) = some (nano, c :: rest) := by
    have stop : ∀ d ∈ (c :: rest).head?, isDigit d = false := by
      intro d hd
      obtain rfl := Option.some.inj hd
      exact hc
    have hlen := length_padded hk hw
    have filled : (padded width k).toList.isEmpty = false :=
      List.isEmpty_eq_false_iff.2 (padded_ne_nil width k)
    have dot : ("." ++ padded width k).toList ++ c :: rest =
        '.' :: ((padded width k).toList ++ c :: rest) := by
      rw [String.toList_append, List.append_assoc]
      rfl
    have used : (padded width k).toList.take 9 = (padded width k).toList :=
      List.take_of_length_le (hlen.trans_le hle)
    rw [dot, fraction?]
    simp only [digits_padded width k stop, used, filled, ofDigits_padded, hlen, Nat.pow_eq, he]
    rfl
  unfold fractionText
  split
  next hzero =>
    rw [hzero]
    unfold fraction?
    split
    next he => exact absurd (List.cons.inj he).1 hdot
    next => rfl
  next =>
    split
    next => exact written 3 _ (by omega) (by decide) (by decide) (by omega)
    next =>
      split
      next => exact written 6 _ (by omega) (by decide) (by decide) (by omega)
      next => exact written 9 _ (by omega) (by decide) (by decide) (by omega)

theorem toList_render (t : Instant) : (render t).toList =
    (yearText (Date.ofDayNumber (t.second / 86400)).year).toList ++ ('-' ::
    ((padded 2 (Date.ofDayNumber (t.second / 86400)).month).toList ++ ('-' ::
    ((padded 2 (Date.ofDayNumber (t.second / 86400)).day).toList ++ ('T' ::
    ((padded 2 ((t.second % 86400).toNat / 3600)).toList ++ (':' ::
    ((padded 2 ((t.second % 86400).toNat / 60 % 60)).toList ++ (':' ::
    ((padded 2 ((t.second % 86400).toNat % 60 + if 1000000000 ≤ t.nano then 1 else 0)).toList ++
    ((fractionText (if 1000000000 ≤ t.nano then t.nano - 1000000000 else t.nano)).toList ++
      ['Z']))))))))))) := by
  simp only [render, String.toList_append, List.append_assoc]
  rfl

theorem second_of_leap (t : Instant) : ∃ extra nano : Nat,
    (if 1000000000 ≤ t.nano then 1 else 0) = extra ∧
    (if 1000000000 ≤ t.nano then t.nano - 1000000000 else t.nano) = nano ∧ nano < 1000000000 ∧
    (t.second % 86400).toNat % 60 + extra ≤ 60 ∧
    (if ((t.second % 86400).toNat % 60 + extra == 60) = true then 59
      else (t.second % 86400).toNat % 60 + extra) = (t.second % 86400).toNat % 60 ∧
    nano + (if ((t.second % 86400).toNat % 60 + extra == 60) = true then 1000000000 else 0) =
      t.nano := by
  have hnano := t.nano_lt
  refine ⟨_, _, rfl, rfl, ?_⟩
  by_cases hleap : 1000000000 ≤ t.nano
  · have last : (t.second % 86400).toNat % 60 = 59 := by
      have hsecond := t.leap hleap
      omega
    simp only [hleap, if_true, last]
    exact ⟨by omega, by decide, rfl, by simp; omega⟩
  · have inMinute : (t.second % 86400).toNat % 60 < 60 := Nat.mod_lt _ (by decide)
    have ordinary : ((t.second % 86400).toNat % 60 + 0 == 60) = false := by
      rw [beq_eq_false_iff_ne]
      omega
    simp only [hleap, if_false, ordinary]
    exact ⟨by omega, by omega, rfl, rfl⟩

theorem parse?_render (t : Instant) : parse? (render t) = some t := by
  have date := Date.of?_ofDayNumber (t.second / 86400)
  obtain ⟨-, -, hmonth, -, hday⟩ := Date.of?_eq_some date
  obtain ⟨extra, nano, hextra, hnano, hlt, hle, hsecond, htotal⟩ := second_of_leap t
  have year {rest : List Char} :
      year? ((yearText (Date.ofDayNumber (t.second / 86400)).year).toList ++ '-' :: rest) =
        some ((Date.ofDayNumber (t.second / 86400)).year, '-' :: rest) :=
    year?_yearText (by simp [isDigit])
  have two {k : Nat} (hk : k < 100) {rest : List Char} :
      number? 2 ((padded 2 k).toList ++ rest) = some (k, rest) :=
    number?_padded hk Nat.two_pos
  have dash {rest : List Char} : mark? '-' ('-' :: rest) = some rest := mark?_cons (by decide)
  have colon {rest : List Char} : mark? ':' (':' :: rest) = some rest := mark?_cons (by decide)
  have fraction : fraction? ((fractionText nano).toList ++ ['Z']) = some (nano, ['Z']) :=
    fraction?_fractionText hlt (by decide) (by decide)
  have offset : offset? (['Z'].dropWhile isBlank) = some (0, []) := by decide
  have hours : (t.second % 86400).toNat / 3600 < 24 := by omega
  have minutes : (t.second % 86400).toNat / 60 % 60 < 60 := by omega
  have here : Date.dayNumber (Date.ofDayNumber (t.second / 86400)) * 86400 +
      ((((t.second % 86400).toNat / 3600 * 60 + (t.second % 86400).toNat / 60 % 60) * 60 +
        (t.second % 86400).toNat % 60 : Nat) : Int) = t.second := by
    rw [Date.dayNumber_ofDayNumber]
    omega
  have whole : Instant.of? t.second t.nano = some t :=
    dif_pos ⟨t.nano_lt, t.leap, t.first_le, t.le_last⟩
  unfold parse?
  rw [toList_render, hextra, hnano]
  simp only [bind, Option.bind, year, dash, colon, fraction, offset, date,
    two (Nat.lt_of_le_of_lt hmonth (by decide)), two (Nat.lt_of_le_of_lt hday (by decide)),
    two (Nat.lt_trans hours (by decide)), two (Nat.lt_trans minutes (by decide)),
    two (Nat.lt_of_le_of_lt hle (by decide))]
  rw [hsecond, htotal, here, Int.sub_zero, whole]
  simp only [hours, minutes, hle, decide_true, List.all_nil, Bool.and_self, if_true]
  exact if_pos ⟨t.first_le, t.le_last⟩

end Imageboard.Rfc3339
