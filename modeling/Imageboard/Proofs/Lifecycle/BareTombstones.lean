import Imageboard.Proofs.Tombstones

namespace Imageboard

def Row.BearsMedia (r : Row) (placeholder : String) : Prop :=
  r.href ≠ "" ∧ r.href ≠ placeholder

def Table.BareTombstones (t : Table Row) (placeholder : String) : Prop :=
  ∀ r ∈ t.rows, r.isTombstone = true → ¬ r.BearsMedia placeholder

namespace Board

variable {b : Board} {t : Tier} {r : Row} {id x placeholder : String} {time : Int}
  {ids : List String}

/-- No tombstone of either tier bears media. -/
def BareTombstones (b : Board) (placeholder : String) : Prop :=
  ∀ t, (b.tier t).BareTombstones placeholder

/-- Burials of some ids come to a living row that bears media by its own id, and not before that as
media of one of them. -/
def LeavesMedia (b : Board) (placeholder : String) (ids : List String) : Prop :=
  ∃ t, ∃ r ∈ (b.tier t).rows, r.isTombstone = false ∧ r.BearsMedia placeholder ∧
    ∃ before after, ids = before ++ r.id :: after ∧
      ∀ x ∈ before ++ [r.id], isMediaOf (b.tier t) x r = false

def buryAll (b : Board) (placeholder : String) (time : Int) (ids : List String) : Board :=
  ids.foldl (fun b id => (b.bury placeholder time id).1) b

theorem isMediaOf_bury : isMediaOf ((b.bury placeholder time id).1.tier t) x r =
    isMediaOf (b.tier t) x r := by
  unfold isMediaOf Table.get?
  rw [rows_bury, List.find?_map]
  simp only [Function.comp_def, Keyed.key, Row.id_buried]
  cases (b.tier t).rows.find? fun q => [q.id] == [x] with
  | none => rfl
  | some owner => simp only [Option.map_some, Row.media_buried]

theorem not_leavesMedia_nil : ¬ b.LeavesMedia placeholder [] := by
  rintro ⟨t, r, -, -, -, before, after, he, -⟩
  simp at he

theorem leavesMedia_singleton_iff : b.LeavesMedia placeholder [id] ↔
    ∃ t, ∃ r ∈ (b.tier t).rows, r.isTombstone = false ∧ r.BearsMedia placeholder ∧
      r.id = id ∧ isMediaOf (b.tier t) id r = false := by
  refine exists_congr fun t => exists_congr fun r => ?_
  refine and_congr_right fun _ => and_congr_right fun _ => and_congr_right fun _ => ?_
  constructor
  · rintro ⟨before, after, he, spared⟩
    obtain ⟨rfl, he⟩ : before = [] ∧ [id] = r.id :: after := by
      cases before with
      | nil => exact ⟨rfl, he⟩
      | cons x before => simp at he
    obtain rfl : id = r.id := List.head_eq_of_cons_eq he
    exact ⟨rfl, spared r.id List.mem_cons_self⟩
  · rintro ⟨rfl, spared⟩
    exact ⟨[], [], rfl, List.forall_mem_singleton.2 spared⟩

theorem leavesMedia_cons_iff (time : Int) : b.LeavesMedia placeholder (id :: ids) ↔
    b.LeavesMedia placeholder [id] ∨
      (b.bury placeholder time id).1.LeavesMedia placeholder ids := by
  rw [leavesMedia_singleton_iff]
  constructor
  · rintro ⟨t, r, hr, alive, bears, before, after, he, spared⟩
    cases before with
    | nil =>
      obtain ⟨rfl, rfl⟩ := List.cons.inj he
      exact .inl ⟨t, r, hr, alive, bears, rfl, spared r.id List.mem_cons_self⟩
    | cons x before =>
      obtain ⟨rfl, rfl⟩ := List.cons.inj he
      have first : isMediaOf (b.tier t) id r = false := spared id List.mem_cons_self
      by_cases own : r.id = id
      · exact .inl ⟨t, r, hr, alive, bears, own, first⟩
      · have stays : r ∈ ((b.bury placeholder time id).1.tier t).rows :=
          (mem_bury_of_alive alive).2 ⟨hr, own, first⟩
        refine .inr ⟨t, r, stays, alive, bears, before, after, rfl, fun x hx => ?_⟩
        rw [isMediaOf_bury]
        exact spared x (List.mem_cons_of_mem id hx)
  · rintro (⟨t, r, hr, alive, bears, rfl, spared⟩ |
      ⟨t, r, stays, alive, bears, before, after, rfl, spared⟩)
    · exact ⟨t, r, hr, alive, bears, [], ids, rfl, List.forall_mem_singleton.2 spared⟩
    · obtain ⟨hr, -, first⟩ := (mem_bury_of_alive alive).1 stays
      refine ⟨t, r, hr, alive, bears, id :: before, after, rfl, ?_⟩
      refine List.forall_mem_cons.2 ⟨first, fun x hx => ?_⟩
      rw [← isMediaOf_bury]
      exact spared x hx

theorem bareTombstones_bury_iff (h : b.BareTombstones placeholder) (time : Int) (id : String) :
    (b.bury placeholder time id).1.BareTombstones placeholder ↔
      ¬ b.LeavesMedia placeholder [id] := by
  rw [leavesMedia_singleton_iff]
  constructor
  · rintro bare ⟨t, r, hr, alive, bears, own, spared⟩
    rcases r.buried_cases (isMediaOf (b.tier t) id r) id placeholder time with
      ⟨-, dead | ⟨-, other⟩⟩ | ⟨-, dead, ⟨media, -⟩ | ⟨-, -, same⟩⟩
    · rw [dead] at alive
      cases alive
    · exact other own
    · rw [spared] at media
      cases media
    · refine bare t _ (mem_bury.2 ⟨r, hr, rfl⟩) dead ?_
      rw [Row.BearsMedia, same]
      exact bears
  · intro none t r' hr' dead bears
    obtain ⟨r, hr, rfl⟩ := mem_bury.1 hr'
    rcases r.buried_cases (isMediaOf (b.tier t) id r) id placeholder time with
      ⟨same, -⟩ | ⟨alive, -, ⟨-, shown⟩ | ⟨spared, own, same⟩⟩
    · rw [same] at dead bears
      exact h t r hr dead bears
    · exact bears.2 shown
    · rw [Row.BearsMedia, same] at bears
      exact none ⟨t, r, hr, alive, bears, own, spared⟩

theorem KeepsTombstones.bareTombstones {b' : Board} (h : b.KeepsTombstones b')
    (h' : b'.BareTombstones placeholder) : b.BareTombstones placeholder := by
  intro t r hr dead bears
  obtain ⟨r', hr', remains⟩ := h t r hr dead
  refine h' t r' hr' remains.tombstone ?_
  rw [Row.BearsMedia, remains.href]
  exact bears

theorem keepsTombstones_buryAll (b : Board) (placeholder : String) (time : Int)
    (ids : List String) :
    b.KeepsTombstones (b.buryAll placeholder time ids) :=
  List.foldlRecOn (motive := b.KeepsTombstones) ids _ (.refl b)
    fun c h id _ => h.trans (.apply (.bury placeholder time id) c not_false)

/-- Burials of some ids leave all tombstones bare exactly if they leave no media behind. -/
theorem bareTombstones_buryAll_iff (h : b.BareTombstones placeholder) :
    (b.buryAll placeholder time ids).BareTombstones placeholder ↔
      ¬ b.LeavesMedia placeholder ids := by
  induction ids generalizing b with
  | nil => exact iff_of_true h not_leavesMedia_nil
  | cons id ids ih =>
    have first := bareTombstones_bury_iff h time id
    have step : b.buryAll placeholder time (id :: ids) =
        (b.bury placeholder time id).1.buryAll placeholder time ids := rfl
    rw [step, leavesMedia_cons_iff time, not_or]
    by_cases bare : (b.bury placeholder time id).1.BareTombstones placeholder
    · exact (ih bare).trans (and_iff_right (first.1 bare)).symm
    · -- what the first burial left bearing media is never made good
      refine iff_of_false (fun all => bare ?_) fun none => bare (first.2 none.1)
      exact (keepsTombstones_buryAll _ _ _ _).bareTombstones all

end Board

theorem Site.board_cascade_bury (s : Site) (placeholder : String) (time : Int) (ids : List String)
    (n : Node) : (s.cascade (fun b id => b.bury placeholder time id) ids n).1.board =
      n.board.buryAll placeholder time ids := by
  let f (b : Board) (id : String) : Board × Nat := b.bury placeholder time id
  have fold (c : Cascade) :
      (ids.foldl (s.cascadeStep f) c).board = c.board.buryAll placeholder time ids := by
    induction ids generalizing c with
    | nil => rfl
    | cons id ids ih => exact ih _
  exact fold { board := n.board }

end Imageboard
