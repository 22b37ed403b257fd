import Imageboard.Proofs.Text.Cuts
import Imageboard.Proofs.Text.Numerals
import Imageboard.Proofs.Time.Calendar
import Imageboard.Time.HttpDate

namespace Imageboard.HttpDate

open Text Time

variable {names : List String} {name : String} {i n width : Nat} {second : Int} {rest : List Char}

def lastSecond : Int := 253402300799

theorem name?_append (hlen : ∀ m ∈ names, m.toList.length = 3) (hnodup : names.Nodup)
    (h : names[i]? = some name) : name? names (name.toList ++ rest) = some (i, rest) := by
  have general (j : Nat) : name?.go (name.toList ++ rest) j names = some (j + i, rest) := by
    induction names generalizing i j with
    | nil => cases h
    | cons m names ih =>
      obtain ⟨hm, hnodup⟩ := List.nodup_cons.1 hnodup
      unfold name?.go
      cases i with
      | zero =>
        obtain rfl := Option.some.inj h
        rw [after?_append]
        rfl
      | succ i =>
        have hname : name ∈ names := List.mem_of_getElem? h
        have other : after? m.toList (name.toList ++ rest) = none := by
          cases ha : after? m.toList (name.toList ++ rest) with
          | none => rfl
          | some rest' =>
            have hsame := (hlen name (List.mem_cons_of_mem m hname)).trans
              (hlen m List.mem_cons_self).symm
            obtain ⟨he, -⟩ := List.append_inj (after?_eq_some_iff.1 ha) hsame
            rw [String.toList_injective he] at hname
            exact absurd hname hm
        rw [other]
        dsimp only
        rw [ih (fun m hm => hlen m (List.mem_cons_of_mem _ hm)) hnodup h]
        congr 2
        omega
  rw [name?, general, Nat.zero_add]

theorem number?_padded (h : n < 10 ^ width) (hw : 0 < width) :
    number? width ((padded width n).toList ++ rest) = some (n, rest) := by
  have hlen := length_padded h hw
  have hdigits : (padded width n).toList.all isDigit = true :=
    List.all_eq_true.2 fun _ hc => isDigit_of_mem_padded hc
  simp only [number?, List.take_left' hlen, List.drop_left' hlen, ofDigits_padded]
  exact if_pos ⟨hlen, hdigits⟩

theorem timeOfDay?_padded (h : n < 86400) :
    timeOfDay? ((padded 2 (n / 3600)).toList ++ ([':'] ++ ((padded 2 (n / 60 % 60)).toList ++
      ([':'] ++ ((padded 2 (n % 60)).toList ++ rest))))) = some (n, rest) := by
  have two {k : Nat} (h : k < 60) {rest : List Char} :
      number? 2 ((padded 2 k).toList ++ rest) = some (k, rest) :=
    number?_padded (h.trans (by decide)) Nat.two_pos
  have hours : n / 3600 < 24 := by omega
  have minutes : n / 60 % 60 < 60 := by omega
  have seconds : n % 60 < 60 := by omega
  have total : (n / 3600 * 60 + n / 60 % 60) * 60 + n % 60 = n := by omega
  simp only [timeOfDay?, two (hours.trans (by decide)), two minutes, two seconds, after?_append,
    bind, Option.bind, hours, minutes, seconds, decide_true, Bool.and_self, if_true, total]

theorem toList_render (second : Int) : (render second).toList =
    (dayNames[weekday (second / 86400)]?.getD "").toList ++ ([',', ' '] ++
    ((padded 2 (Date.ofDayNumber (second / 86400)).day).toList ++ ([' '] ++
    ((monthNames[(Date.ofDayNumber (second / 86400)).month - 1]?.getD "").toList ++ ([' '] ++
    ((padded 4 (Date.ofDayNumber (second / 86400)).year.toNat).toList ++ ([' '] ++
    ((padded 2 ((second % 86400).toNat / 3600)).toList ++ ([':'] ++
    ((padded 2 ((second % 86400).toNat / 60 % 60)).toList ++ ([':'] ++
    ((padded 2 ((second % 86400).toNat % 60)).toList ++ " GMT".toList)))))))))))) := by
  simp only [render, String.toList_append, List.append_assoc]
  rfl

theorem weekday_lt (day : Int) : weekday day < 7 := by
  unfold weekday
  omega

theorem second?_ofDayNumber {day : Int} (h₀ : 0 ≤ day) (h₁ : day ≤ Date.lastDayNumber)
    (inDay : Nat) :
    second? (weekday day) (Date.ofDayNumber day).year.toNat (Date.ofDayNumber day).month
      (Date.ofDayNumber day).day inDay = some ((day * 86400).toNat + inDay) := by
  obtain ⟨first, -⟩ := Date.year_bounds h₀ h₁
  have hyear : ((Date.ofDayNumber day).year.toNat : Int) = (Date.ofDayNumber day).year := by omega
  have hfirst : 1970 ≤ (Date.ofDayNumber day).year.toNat := by omega
  unfold second?
  rw [hyear, Date.of?_ofDayNumber]
  simp only [bind, Option.bind, Date.dayNumber_ofDayNumber, hfirst, decide_true, beq_self_eq_true,
    Bool.and_self, if_true]

theorem fixed?_render (h₀ : 0 ≤ second) (h₁ : second ≤ lastSecond) :
    fixed? (render second).toList = some second.toNat := by
  have hlast : second ≤ 253402300799 := h₁
  have first : 0 ≤ second / 86400 := by omega
  have last : second / 86400 ≤ Date.lastDayNumber := show _ ≤ 2932896 by omega
  have total : (second / 86400 * 86400).toNat + (second % 86400).toNat = second.toNat := by omega
  have inDay : (second % 86400).toNat < 86400 := by omega
  have hsecond := second?_ofDayNumber first last (second % 86400).toNat
  rw [total] at hsecond
  have hyear := Date.year_bounds first last
  obtain ⟨-, hm, hm', hd, hd'⟩ := Date.of?_eq_some (Date.of?_ofDayNumber (second / 86400))
  have hweekday := weekday_lt (second / 86400)
  rw [toList_render]
  generalize Date.ofDayNumber (second / 86400) = date at *
  generalize weekday (second / 86400) = w at *
  obtain ⟨day, hday⟩ : ∃ day, dayNames[w]? = some day := ⟨_, List.getElem?_eq_getElem hweekday⟩
  obtain ⟨month, hmonth⟩ : ∃ month, monthNames[date.month - 1]? = some month :=
    ⟨_, List.getElem?_eq_getElem (show _ < 12 by omega)⟩
  simp only [fixed?, hday, hmonth, Option.getD_some, after?_append, bind, Option.bind,
    name?_append (by decide) (by decide) hday, name?_append (by decide) (by decide) hmonth,
    number?_padded (show date.day < 10 ^ 2 by omega) Nat.two_pos,
    number?_padded (show date.year.toNat < 10 ^ 4 by omega) (Nat.succ_pos 3),
    timeOfDay?_padded inDay, if_true, Nat.sub_add_cancel hm, hsecond]

theorem all_render {p : Char → Bool} (digit : ∀ c, isDigit c = true → p c = true)
    (days : ∀ m ∈ dayNames, m.toList.all p = true)
    (months : ∀ m ∈ monthNames, m.toList.all p = true)
    (signs : ", : GMT".toList.all p = true) : (render second).toList.all p = true := by
  have named {names : List String} (h : ∀ m ∈ names, m.toList.all p = true) (i : Nat) :
      (names[i]?.getD "").toList.all p = true := by
    cases hi : names[i]? with
    | none => rfl
    | some m => exact h m (List.mem_of_getElem? hi)
  have number (width n : Nat) : (padded width n).toList.all p = true :=
    List.all_eq_true.2 fun _ hc => digit _ (isDigit_of_mem_padded hc)
  have sign (cs : List Char) (h : cs ⊆ ", : GMT".toList) : cs.all p = true :=
    List.all_eq_true.2 fun _ hc => List.all_eq_true.1 signs _ (h hc)
  rw [toList_render]
  simp only [List.all_append, named days, named months, number, Bool.and_true,
    sign [',', ' '] (by decide), sign [' '] (by decide), sign [':'] (by decide),
    sign " GMT".toList (by decide)]

theorem strip_render (second : Int) :
    strip isBlank (render second).toList = (render second).toList := by
  obtain ⟨day, hday⟩ : ∃ day, dayNames[weekday (second / 86400)]? = some day :=
    ⟨_, List.getElem?_eq_getElem (weekday_lt _)⟩
  have letters : ∀ m ∈ dayNames, m.toList.head?.map isBlank = some false := by decide
  obtain ⟨c, hc, letter⟩ :=
    Option.map_eq_some_iff.1 (letters day (List.mem_of_getElem? hday))
  have hne : day.toList ≠ [] := fun he => by rw [he] at hc; cases hc
  rw [toList_render, hday, Option.getD_some]
  apply strip_eq_self
  · rw [List.head?_append_of_ne_nil _ hne, hc]
    rintro c ⟨⟩
    exact letter
  · simp only [← List.append_assoc]
    rw [List.getLast?_append_of_ne_nil _ (by decide)]
    rintro c ⟨⟩
    rfl

/-- The date of a second reads back as the second, up to the end of the year 9999. -/
theorem parse?_render (h₀ : 0 ≤ second) (h₁ : second ≤ lastSecond) :
    parse? (render second) = some second.toNat := by
  have ascii : ((render second).toList.all fun c => c.toNat < 128) = true := by
    refine all_render ?_ (by decide) (by decide) (by decide)
    intro c hc
    have high := (toNat_of_isDigit hc).2
    exact decide_eq_true (by omega)
  unfold parse?
  rw [if_pos ascii, strip_render, fixed?_render h₀ h₁]
  rfl

end Imageboard.HttpDate
