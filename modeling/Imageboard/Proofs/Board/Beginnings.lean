import Imageboard.Proofs.Board.Selection
import Imageboard.Proofs.Operation

namespace Imageboard

namespace Board

/-- An id begins like a text: up to a NUL in the text, character for character, but for the case of
letters. After a NUL in the text nothing may follow in the id, unless it is a NUL there too. -/
def Begins (start id : List Char) : Prop :=
  ∃ front back, id = front ++ back ∧
    front.map likeChar = (start.takeWhile (· ≠ '\x00')).map likeChar ∧
    ('\x00' ∈ start → ∀ c ∈ back.head?, c = '\x00')

theorem startsLike_iff {start id : List Char} : startsLike start id = true ↔ Begins start id := by
  fun_induction startsLike start id with
  | case1 id => exact ⟨fun _ => ⟨[], id, rfl, rfl, nofun⟩, fun _ => rfl⟩
  | case2 cs id =>
    rw [Option.all_eq_true]
    constructor
    · intro h
      exact ⟨[], id, rfl, by simp, fun _ c hc => beq_iff_eq.1 (h c hc)⟩
    · rintro ⟨front, back, rfl, hfront, hback⟩ c hc
      have hnil : front = [] := by simpa using hfront
      rw [hnil, List.nil_append] at hc
      exact beq_iff_eq.2 (hback List.mem_cons_self c hc)
  | case3 c cs hc =>
    refine iff_of_false Bool.false_ne_true ?_
    rintro ⟨front, back, hid, hfront, -⟩
    obtain ⟨rfl, -⟩ := List.append_eq_nil_iff.1 hid.symm
    simp [hc] at hfront
  | case4 c cs hc d ds ih =>
    have later : '\x00' ∈ c :: cs ↔ '\x00' ∈ cs := by
      simp [Ne.symm hc]
    have first : (c :: cs).takeWhile (· ≠ '\x00') = c :: cs.takeWhile (· ≠ '\x00') := by
      simp [hc]
    rw [Bool.and_eq_true, beq_iff_eq, ih]
    unfold Begins
    rw [later, first]
    constructor
    · rintro ⟨hcd, front, back, rfl, hfront, hback⟩
      exact ⟨d :: front, back, rfl, by rw [List.map_cons, List.map_cons, hfront, hcd], hback⟩
    · rintro ⟨front, back, hid, hfront, hback⟩
      cases front with
      | nil => cases hfront
      | cons f front =>
        obtain ⟨rfl, rfl⟩ := List.cons.inj hid
        rw [List.map_cons, List.map_cons, List.cons.injEq] at hfront
        exact ⟨hfront.1.symm, front, back, rfl, hfront.2, hback⟩

theorem begins_of_isPrefix {start id : List Char} (h : start <+: id) : Begins start id := by
  rw [← startsLike_iff]
  obtain ⟨back, rfl⟩ := h
  induction start with
  | nil => rfl
  | cons c cs ih =>
    unfold startsLike
    split
    next hc => simp [hc]
    next => simp [ih]

variable {b : Board} {t : Tier} {r : Row} {e : Entry} {p q : String → Prop} {x y z : Tier × Row}
  {start : String}

/-- A post is one of those whose ids have a property. A replica is not if there is an authored post
of its id. -/
structure IsAmong (b : Board) (p : String → Prop) (t : Tier) (r : Row) : Prop where
  stored : r ∈ (b.tier t).rows
  post : r.isPost = true
  chosen : p r.id
  alone : t = .replica → ∀ o ∈ b.authored.rows, o.isPost = true → o.id ≠ r.id

def AnswersFor (b : Board) (p : String → Prop) : Option Entry → Prop
  | none => ∀ t, ∀ r ∈ (b.tier t).rows, r.isPost = true → ¬ p r.id
  | some e => ∃ t r, b.IsAmong p t r ∧ e = r.entry t ∧
      ∀ t' r', b.IsAmong p t' r' → r'.activity ≤ r.activity

theorem IsAmong.mono (h : b.IsAmong p t r) (hpq : ∀ id, p id → q id) : b.IsAmong q t r :=
  { h with chosen := hpq _ h.chosen }

theorem mem_select_iff_isAmong {chosen : Row → Bool}
    (h : ∀ r, chosen r = true ↔ r.isPost = true ∧ p r.id) :
    x ∈ b.select chosen ↔ b.IsAmong p x.1 x.2 := by
  rw [mem_select, h]
  constructor
  · rintro ⟨hr, ⟨post, hp⟩, alone⟩
    exact ⟨hr, post, hp, fun ht o ho hpost hid => alone ht o ho ((h o).2 ⟨hpost, hid ▸ hp⟩) hid⟩
  · rintro ⟨hr, post, hp, alone⟩
    exact ⟨hr, ⟨post, hp⟩, fun ht o ho ho' => alone ht o ho ((h o).1 ho').1⟩

theorem exists_isAmong (hr : r ∈ (b.tier t).rows) (post : r.isPost = true) (hp : p r.id) :
    ∃ t' r', b.IsAmong p t' r' ∧ r'.id = r.id := by
  by_cases hidden : ∃ o ∈ b.authored.rows, o.isPost = true ∧ o.id = r.id
  · obtain ⟨o, ho, hpost, hid⟩ := hidden
    exact ⟨.authored, o, ⟨ho, hpost, hid ▸ hp, nofun⟩, hid⟩
  · exact ⟨t, r, ⟨hr, post, hp, fun _ o ho hpost hid => hidden ⟨o, ho, hpost, hid⟩⟩, rfl⟩

theorem isLater_iff : isLater x y = true ↔ y.2.activity < x.2.activity ∨
    (x.2.activity = y.2.activity ∧ y.2.id ≤ x.2.id) := by
  simp [isLater]

theorem isLater_trans (x y z : Tier × Row) (h : isLater x y = true) (h' : isLater y z = true) :
    isLater x z = true := by
  rw [isLater_iff] at *
  rcases h with h | ⟨h, hid⟩ <;> rcases h' with h' | ⟨h', hid'⟩
  · exact .inl (Int.lt_trans h' h)
  · exact .inl (h' ▸ h)
  · exact .inl (h ▸ h')
  · exact .inr ⟨h.trans h', String.le_trans hid' hid⟩

theorem isLater_total (x y : Tier × Row) : (isLater x y || isLater y x) = true := by
  rw [Bool.or_eq_true, isLater_iff, isLater_iff]
  rcases Int.lt_trichotomy x.2.activity y.2.activity with h | h | h
  · exact .inr (.inl h)
  · rcases String.le_total y.2.id x.2.id with hid | hid
    · exact .inl (.inr ⟨h, hid⟩)
    · exact .inr (.inr ⟨h.symm, hid⟩)
  · exact .inl (.inl h)

theorem activity_le_of_isLater (h : isLater x y = true) : y.2.activity ≤ x.2.activity := by
  rcases isLater_iff.1 h with h | ⟨h, -⟩
  · exact Int.le_of_lt h
  · exact Int.le_of_eq h.symm

theorem answersFor_of_sorted {xs : List (Tier × Row)}
    (hx : ∀ x, x ∈ xs ↔ b.IsAmong p x.1 x.2) :
    b.AnswersFor p ((xs.mergeSort isLater).head?.map fun (t, r) => r.entry t) := by
  have sorted := List.pairwise_mergeSort isLater_trans isLater_total xs
  have all (x : Tier × Row) : x ∈ xs.mergeSort isLater ↔ b.IsAmong p x.1 x.2 :=
    List.mem_mergeSort.trans (hx x)
  cases hs : xs.mergeSort isLater with
  | nil =>
    intro t r hr post hp
    obtain ⟨t', r', among, -⟩ := exists_isAmong hr post hp
    have hmem := (all (t', r')).2 among
    rw [hs] at hmem
    cases hmem
  | cons x rest =>
    rw [hs] at sorted all
    refine ⟨x.1, x.2, (all x).1 List.mem_cons_self, rfl, fun t' r' among => ?_⟩
    rcases List.mem_cons.1 ((all (t', r')).2 among) with rfl | hmem
    · exact Int.le_refl _
    · exact activity_le_of_isLater (List.rel_of_pairwise_cons sorted hmem)

/-- The look-up by a beginning answers for all ids that begin like it. -/
theorem getByStart_answersFor (b : Board) (start : String) :
    b.AnswersFor (fun id => Begins start.toList id.toList) (b.getByStart start) := by
  refine answersFor_of_sorted fun x => mem_select_iff_isAmong fun r => ?_
  rw [Bool.and_eq_true, startsLike_iff]

theorem AnswersFor.narrow_iff {answer : Option Entry} (h : b.AnswersFor q answer)
    (hpq : ∀ id, p id → q id) : b.AnswersFor p answer ↔ ∀ e, answer = some e → p e.id := by
  cases answer with
  | none =>
    refine iff_of_true (fun t r hr post hp => h t r hr post (hpq _ hp)) fun e he => ?_
    cases he
  | some e =>
    obtain ⟨t, r, among, rfl, latest⟩ := h
    constructor
    · rintro ⟨t', r', among', he, -⟩ e hfound
      cases hfound
      rw [he]
      exact among'.chosen
    · intro found
      exact ⟨t, r, { among with chosen := found _ rfl }, rfl,
        fun t' r' among' => latest t' r' (among'.mono hpq)⟩

/-- The look-up by a beginning finds the latest post whose id begins like it, if there is one. It
answers for the beginning character for character exactly if the id of what it finds begins with
it. -/
theorem getByStart_answers_iff (b : Board) (start : String) :
    b.AnswersFor (fun id => Begins start.toList id.toList) (b.getByStart start) ∧
      (b.AnswersFor (fun id => start.toList <+: id.toList) (b.getByStart start) ↔
        ∀ e, b.getByStart start = some e → start.toList <+: e.id.toList) :=
  ⟨b.getByStart_answersFor start,
    (b.getByStart_answersFor start).narrow_iff fun _ => begins_of_isPrefix⟩

end Board

namespace Operation

/-- A post is found by the beginning of another id. -/
theorem not_answersFor_of_other_case :
    let s : Site := { config := {}, boardFile := "", filesRoot := "" }
    let draft : Object := { actor := "u", content := "hello" }
    let n := run s [create .epoch [⟨"aBcdefgh", rfl, rfl⟩] draft] {}
    ¬ n.board.AnswersFor (fun id => "u/Ab".toList <+: id.toList) (n.board.getByStart "u/Ab") := by
  intro s draft n h
  have found : ((n.board.getByStart "u/Ab").map Entry.id) = some "u/aBcdefgh" := by decide +kernel
  obtain ⟨e, he, hid⟩ := Option.map_eq_some_iff.1 found
  rw [he] at h
  obtain ⟨t, r, among, rfl, -⟩ := h
  have chosen := among.chosen
  rw [show r.id = "u/aBcdefgh" from hid] at chosen
  exact absurd chosen (by decide)

end Operation
end Imageboard
