import Imageboard.Time.Civil

namespace Imageboard.Time

/-- A day of an era by its century, cycle, year of the cycle and day of the year. The year of a leap
day ends a cycle, and if that cycle ends a century it ends the era too. -/
structure EraDay (day c k m s : Int) : Prop where
  century : 0 ≤ c ∧ c ≤ 3
  cycle : 0 ≤ k ∧ k ≤ 24
  year : 0 ≤ m ∧ m ≤ 3
  inYear : 0 ≤ s ∧ s ≤ 365
  leap : s = 365 → m = 3 ∧ (k = 24 → c = 3)
  day_eq : day = 36524 * c + 1461 * k + 365 * m + s

theorem exists_eraDay (day : Int) (h₀ : 0 ≤ day) (h₁ : day < 146097) :
    ∃ c k m s, EraDay day c k m s := by
  let c := min (day / 36524) 3
  let k := (day - 36524 * c) / 1461
  let m := min ((day - 36524 * c - 1461 * k) / 365) 3
  refine ⟨c, k, m, day - 36524 * c - 1461 * k - 365 * m, ?_, ?_, ?_, ?_, ?_, ?_⟩ <;> omega

section

variable {day c k m s : Int} (h : EraDay day c k m s)
include h

theorem EraDay.yearOfEra :
    (day - day / 1460 + day / 36524 - day / 146096) / 365 = 100 * c + 4 * k + m := by
  obtain ⟨hc, hk, hm, hs, hl, rfl⟩ := h
  generalize hday : 36524 * c + 1461 * k + 365 * m + s = day
  have centuries : day / 36524 - day / 146096 = c := by
    by_cases hlast : day = 146096
    · have hd : day / 36524 = 4 ∧ day / 146096 = 1 := by omega
      omega
    · have hb : day < 36524 * c + 36524 := by omega
      have hd : day / 146096 = 0 := by omega
      omega
  -- how far the cycles run ahead of 1460 days each
  let ahead := (24 * c + k + 365 * m + s) / 1460
  have cycles : day / 1460 = 25 * c + k + ahead := by omega
  have late : ahead = 0 ∨ ahead = 1 ∧ m = 3 ∧ 200 ≤ s := by omega
  have days : day - day / 1460 + day / 36524 - day / 146096 =
      365 * (100 * c + 4 * k + m) + (s - ahead) := by omega
  rw [days]
  omega

theorem EraDay.dayOfYear {year : Int} (hyear : year = 100 * c + 4 * k + m) :
    day - (365 * year + year / 4 - year / 100) = s := by
  obtain ⟨hc, hk, hm, hs, hl, rfl⟩ := h
  omega

end

structure YearDay (s : Int) (month day : Nat) : Prop where
  month_pos : 1 ≤ month
  month_le : month ≤ 12
  day_pos : 1 ≤ day
  counted : (153 * (((month + 9) % 12 : Nat) : Int) + 2) / 5 + day - 1 = s
  fits : day ≤ monthLength 1 month ∨ month = 2 ∧ day = 29 ∧ s = 365

theorem yearDay {s : Int} (h₀ : 0 ≤ s) (h₁ : s ≤ 365) :
    YearDay s (((5 * s + 2) / 153 + 2) % 12 + 1).toNat
      (s - (153 * ((5 * s + 2) / 153) + 2) / 5 + 1).toNat := by
  have all : ∀ s ∈ List.range 366,
      let month := (((5 * (s : Int) + 2) / 153 + 2) % 12 + 1).toNat
      let day := ((s : Int) - (153 * ((5 * s + 2) / 153) + 2) / 5 + 1).toNat
      1 ≤ month ∧ month ≤ 12 ∧ 1 ≤ day ∧
        (153 * (((month + 9) % 12 : Nat) : Int) + 2) / 5 + day - 1 = s ∧
        (day ≤ monthLength 1 month ∨ month = 2 ∧ day = 29 ∧ (s : Int) = 365) := by
    decide +kernel
  obtain ⟨n, rfl⟩ := Int.eq_ofNat_of_zero_le h₀
  obtain ⟨h₁, h₂, h₃, h₄, h₅⟩ := all n (List.mem_range.2 (by omega))
  exact ⟨h₁, h₂, h₃, h₄, h₅⟩

theorem monthLength_le (year : Int) (month : Nat) :
    monthLength 1 month ≤ monthLength year month := by
  unfold monthLength
  split
  · rw [if_neg (by decide)]
    split <;> decide
  · exact Nat.le_refl _

theorem monthLength_le_31 (year : Int) (month : Nat) : monthLength year month ≤ 31 := by
  unfold monthLength
  split
  · split <;> decide
  · split <;> decide

namespace Date

theorem eq_ofDayNumber (n : Int) : ∃ c k m s, EraDay ((n + 719468) % 146097) c k m s ∧
    ∃ month day, YearDay s month day ∧ ofDayNumber n =
      ⟨100 * c + 4 * k + m + (n + 719468) / 146097 * 400 + (if month ≤ 2 then 1 else 0), month,
        day⟩ := by
  obtain ⟨c, k, m, s, h⟩ := exists_eraDay ((n + 719468) % 146097) (by omega) (by omega)
  refine ⟨c, k, m, s, h, _, _, yearDay h.inYear.1 h.inYear.2, ?_⟩
  unfold ofDayNumber
  dsimp only
  rw [h.yearOfEra, h.dayOfYear rfl]

theorem of?_ofDayNumber (n : Int) :
    Date.of? (ofDayNumber n).year (ofDayNumber n).month (ofDayNumber n).day =
      some (ofDayNumber n) := by
  obtain ⟨c, k, m, s, h, month, day, hy, he⟩ := eq_ofDayNumber n
  rw [he]
  dsimp only
  generalize hyear : 100 * c + 4 * k + m + (n + 719468) / 146097 * 400 +
    (if month ≤ 2 then 1 else 0) = year
  have hday : day ≤ monthLength year month := by
    rcases hy.fits with hfits | ⟨rfl, rfl, hs⟩
    · exact Nat.le_trans hfits (monthLength_le year month)
    · have hm := h.leap hs
      have hk := h.cycle
      rw [if_pos (by decide)] at hyear
      have leap : isLeapYear year = true := by
        simp only [isLeapYear, Bool.and_eq_true, Bool.or_eq_true, beq_iff_eq, bne_iff_ne]
        omega
      simp [monthLength, leap]
  unfold Date.of?
  rw [if_pos ⟨hy.month_pos, hy.month_le, hy.day_pos, hday⟩]

theorem dayNumber_ofDayNumber (n : Int) : (ofDayNumber n).dayNumber = n := by
  obtain ⟨c, k, m, s, h, month, day, hy, he⟩ := eq_ofDayNumber n
  rw [he]
  unfold dayNumber
  dsimp only
  generalize hyear : 100 * c + 4 * k + m + (n + 719468) / 146097 * 400 = year
  have fromMarch : (if month ≤ 2 then year + (if month ≤ 2 then 1 else 0) - 1
      else year + (if month ≤ 2 then 1 else 0)) = year := by
    split <;> omega
  rw [fromMarch, hy.counted]
  have hc := h.century
  have hk := h.cycle
  have hm := h.year
  have era : year / 400 = (n + 719468) / 146097 ∧ year % 400 = 100 * c + 4 * k + m := by omega
  have before : year % 400 * 365 + year % 400 / 4 - year % 400 / 100 =
      36524 * c + 1461 * k + 365 * m := by
    rw [era.2]
    omega
  have hday := h.day_eq
  clear fromMarch
  omega

theorem of?_eq_some {year : Int} {month day : Nat} {date : Date}
    (h : Date.of? year month day = some date) :
    date = ⟨year, month, day⟩ ∧ 1 ≤ month ∧ month ≤ 12 ∧ 1 ≤ day ∧ day ≤ 31 := by
  unfold Date.of? at h
  split at h
  next hvalid =>
    obtain ⟨hm, hm', hd, hd'⟩ := hvalid
    exact ⟨(Option.some.inj h).symm, hm, hm', hd, Nat.le_trans hd' (monthLength_le_31 year month)⟩
  next => cases h

def lastDayNumber : Int := 2932896

theorem year_bounds {n : Int} (h₀ : 0 ≤ n) (h₁ : n ≤ lastDayNumber) :
    1970 ≤ (ofDayNumber n).year ∧ (ofDayNumber n).year ≤ 9999 := by
  obtain ⟨c, k, m, s, h, month, day, hy, he⟩ := eq_ofDayNumber n
  rw [he]
  dsimp only
  have hlast : n ≤ 2932896 := h₁
  have hc := h.century
  have hk := h.cycle
  have hm := h.year
  have hs := h.inYear
  have hday := h.day_eq
  have hmonth := And.intro hy.month_pos hy.month_le
  have newYear : month ≤ 2 ↔ 306 ≤ s := by
    have hcount := hy.counted
    have hdays := hy.day_pos
    have hfits : day ≤ 31 := by
      rcases hy.fits with hfits | ⟨-, hd, -⟩
      · exact Nat.le_trans hfits (monthLength_le_31 1 month)
      · omega
    by_cases hjanuary : month ≤ 2
    · have hcounted : (month + 9) % 12 = month + 9 := by omega
      rw [hcounted] at hcount
      omega
    · have hcounted : (month + 9) % 12 = month - 3 := by omega
      rw [hcounted] at hcount
      omega
  generalize hera : (n + 719468) / 146097 = era at *
  have eras : 4 ≤ era ∧ era ≤ 24 := by omega
  constructor
  · by_cases hfirst : era = 4
    · have late : c = 3 ∧ 17 ≤ k := by omega
      split <;> omega
    · split <;> omega
  · by_cases hend : 100 * c + 4 * k + m = 399
    · have last : c = 3 ∧ k = 24 ∧ m = 3 := by omega
      split <;> omega
    · split <;> omega

end Date
end Imageboard.Time
