import Imageboard.Proofs.Board.Edges

namespace Imageboard.Board

variable {b : Board} {id p r x top : String} {ahead : List String} {i j k m : Nat}

/-- The id that is so many steps up from an id, if the way up has so many. -/
def ancestor (b : Board) (id : String) : Nat → Option String
  | 0 => some id
  | k + 1 => (b.ancestor id k).bind b.parentOf

theorem ancestor_succ (b : Board) (id : String) (k : Nat) :
    b.ancestor id (k + 1) = (b.ancestor id k).bind b.parentOf :=
  rfl

theorem ancestor_succ_of (h : b.ancestor id k = some x) : b.ancestor id (k + 1) = b.parentOf x := by
  rw [ancestor_succ, h, Option.bind_some]

theorem ancestor_add (h : b.ancestor id j = some x) (k : Nat) :
    b.ancestor id (j + k) = b.ancestor x k := by
  induction k with
  | zero => exact h
  | succ k ih => rw [← Nat.add_assoc, ancestor_succ, ancestor_succ, ih]

theorem ancestor_of_parentOf (h : b.parentOf id = some p) (k : Nat) :
    b.ancestor id (k + 1) = b.ancestor p k := by
  have one : b.ancestor id 1 = some p := h
  rw [Nat.add_comm, ancestor_add one]

theorem ancestor_eq_none (h : b.ancestor id j = none) (hle : j ≤ k) : b.ancestor id k = none := by
  induction hle with
  | refl => exact h
  | step _ ih => rw [ancestor_succ, ih, Option.bind_none]

theorem le_of_ancestor (hx : b.ancestor id j = some x) (past : b.ancestor id (m + 1) = none) :
    j ≤ m := by
  refine Nat.le_of_not_lt fun h => ?_
  rw [ancestor_eq_none past h] at hx
  cases hx

theorem parentOf_eq_none_iff : b.parentOf id = none ↔ ∀ p, ¬ b.Ascends id p := by
  constructor
  · exact fun h p => not_ascends_of_parentOf h
  · intro h
    cases hp : b.parentOf id with
    | none => rfl
    | some p => exact absurd (ascends_of_parentOf hp) (h p)

theorem isTop_iff : b.isTop id = true ↔ ∀ p, ¬ b.Ascends id p := by
  rw [isTop, Option.isNone_iff_eq_none, parentOf_eq_none_iff]

def Distinct (b : Board) (id : String) (k : Nat) : Prop :=
  ∀ i j, i < j → j ≤ k → b.ancestor id i ≠ b.ancestor id j

/-- The way up comes to an object that answers nothing. -/
def EndsAt (b : Board) (id top : String) : Prop :=
  ∃ k, b.ancestor id k = some top ∧ ∀ p, ¬ b.Ascends top p

/-- A step of the way up is the first to an id that was met before. -/
def RepeatsAt (b : Board) (id : String) (k : Nat) : Prop :=
  (∃ p, b.ancestor id k = some p ∧ ∃ j < k, b.ancestor id j = some p) ∧
    ∀ i j, i < j → j < k → b.ancestor id i ≠ b.ancestor id j

/-- A climb among the ids `ahead` comes to `r` in `k` steps. Each of them is to another of these
ids, and from `r` none leads to one that is still ahead. -/
structure Climbs (b : Board) (ahead : List String) (id r : String) (k : Nat) : Prop where
  ancestor_eq : b.ancestor id k = some r
  length_le : k ≤ ahead.length
  ahead_of_le : ∀ i, i < k → ∃ x ∈ ahead, b.ancestor id (i + 1) = some x
  distinct : b.Distinct id k
  parent_met : ∀ p, b.parentOf r = some p → p ∈ ahead → ∃ i ≤ k, b.ancestor id i = some p

theorem Climbs.here (h : ∀ p, b.parentOf id = some p → p ∉ ahead) : b.Climbs ahead id id 0 where
  ancestor_eq := rfl
  length_le := Nat.zero_le _
  ahead_of_le i hi := absurd hi (Nat.not_lt_zero i)
  distinct i _ hij hj := absurd (Nat.lt_of_lt_of_le hij hj) (Nat.not_lt_zero i)
  parent_met p hp hmem := absurd hmem (h p hp)

theorem Climbs.step (h : b.Climbs (without ahead p) p r k) (hp : b.parentOf id = some p)
    (hmem : p ∈ ahead) (hid : id ∉ ahead) : b.Climbs ahead id r (k + 1) := by
  have up (i : Nat) : b.ancestor id (i + 1) = b.ancestor p i := ancestor_of_parentOf hp i
  have met : ∀ i, i < k + 1 → ∃ x ∈ ahead, b.ancestor id (i + 1) = some x := by
    intro i hi
    cases i with
    | zero => exact ⟨p, hmem, hp⟩
    | succ i =>
      obtain ⟨x, hx, he⟩ := h.ahead_of_le i (Nat.lt_of_succ_lt_succ hi)
      exact ⟨x, (mem_without.1 hx).1, (up _).trans he⟩
  refine ⟨(up k).trans h.ancestor_eq, ?_, met, ?_, ?_⟩
  · exact Nat.le_trans (Nat.succ_le_succ h.length_le) (length_without_lt hmem)
  · intro i j hij hj
    obtain ⟨j, rfl⟩ := Nat.exists_eq_succ_of_ne_zero (Nat.ne_zero_of_lt hij)
    cases i with
    | zero =>
      -- all ids after the first were ahead of it
      obtain ⟨x, hx, he⟩ := met j hj
      rw [he]
      intro heq
      exact hid (Option.some.inj heq ▸ hx)
    | succ i =>
      rw [up, up]
      exact h.distinct i j (Nat.lt_of_succ_lt_succ hij) (Nat.le_of_succ_le_succ hj)
  · intro q hq hmem'
    by_cases he : q = p
    · exact ⟨1, Nat.succ_le_succ (Nat.zero_le k), he ▸ hp⟩
    · obtain ⟨i, hi, hi'⟩ := h.parent_met q hq (mem_without.2 ⟨hmem', he⟩)
      exact ⟨i + 1, Nat.succ_le_succ hi, (up i).trans hi'⟩

theorem climbs_climb (h : id ∉ ahead) : ∃ k, b.Climbs ahead id (b.climb ahead id) k := by
  fun_induction climb b ahead id with
  | case1 ahead id hnone =>
    exact ⟨0, .here fun p hp => absurd (hp.symm.trans hnone) (Option.some_ne_none p)⟩
  | case2 ahead id q hq hmem ih =>
    obtain ⟨k, hk⟩ := ih fun hq' => (mem_without.1 hq').2 rfl
    exact ⟨k + 1, hk.step hq hmem h⟩
  | case3 ahead id q hq hmem =>
    exact ⟨0, .here fun p hp => Option.some.inj (hq.symm.trans hp) ▸ hmem⟩

theorem rootOf_stops (b : Board) (id : String) : ∃ k ≤ b.edges.rows.length,
    b.ancestor id k = some (b.rootOf id) ∧ b.Distinct id k ∧
      ∀ p, b.parentOf (b.rootOf id) = some p → ∃ i ≤ k, b.ancestor id i = some p := by
  have out : id ∉ without b.parents id := fun h => (mem_without.1 h).2 rfl
  obtain ⟨k, hk⟩ : ∃ k, b.Climbs (without b.parents id) id (b.rootOf id) k := climbs_climb out
  have short : (without b.parents id).length ≤ b.edges.rows.length := by
    rw [← List.length_map Edge.parent]
    exact List.length_filter_le _ _
  refine ⟨k, hk.length_le.trans short, hk.ancestor_eq, hk.distinct, fun p hp => ?_⟩
  by_cases he : p = id
  · exact ⟨0, Nat.zero_le k, congrArg some he.symm⟩
  · have parent : p ∈ b.parents := mem_parents_of_answers (ascends_of_parentOf hp).1
    exact hk.parent_met p hp (mem_without.2 ⟨parent, he⟩)

theorem EndsAt.exists_last (h : b.EndsAt id top) :
    ∃ m, b.ancestor id m = some top ∧ b.ancestor id (m + 1) = none := by
  obtain ⟨m, hm, htop⟩ := h
  exact ⟨m, hm, (ancestor_succ_of hm).trans (parentOf_eq_none_iff.2 htop)⟩

/-- A way up that comes back to an id goes on without an end. -/
theorem not_endsAt_of_repeats (hp : b.ancestor id (k + 1) = some p) (hi : b.ancestor id i = some p)
    (hle : i ≤ k) : ¬ b.EndsAt id top := by
  intro h
  obtain ⟨m, hm, past⟩ := h.exists_last
  obtain ⟨t, rfl⟩ := Nat.exists_eq_add_of_le (le_of_ancestor hp past)
  -- the step after the end is also one of an earlier round
  have round : b.ancestor id (i + (t + 1)) = none := by
    rw [ancestor_add hi, ← ancestor_add hp]
    exact past
  rw [ancestor_eq_none round (by omega)] at hm
  cases hm

theorem EndsAt.rootOf_eq (h : b.EndsAt id top) : b.rootOf id = top := by
  obtain ⟨k, -, hk, -, met⟩ := b.rootOf_stops id
  have next := ancestor_succ_of hk
  cases hp : b.parentOf (b.rootOf id) with
  | some p =>
    obtain ⟨i, hi, hmet⟩ := met p hp
    exact absurd h (not_endsAt_of_repeats (next.trans hp) hmet hi)
  | none =>
    obtain ⟨m, hm, past⟩ := h.exists_last
    obtain rfl := Nat.le_antisymm (le_of_ancestor hk past) (le_of_ancestor hm (next.trans hp))
    exact Option.some.inj (hk.symm.trans hm)

theorem EndsAt.of_ancestor (h : b.EndsAt id top) (hx : b.ancestor id j = some x) :
    b.EndsAt x top := by
  obtain ⟨m, hm, past⟩ := h.exists_last
  obtain ⟨t, rfl⟩ := Nat.exists_eq_add_of_le (le_of_ancestor hx past)
  obtain ⟨-, -, htop⟩ := h
  exact ⟨t, (ancestor_add hx t).symm.trans hm, htop⟩

/-- The root of an object is found on any edges, in no more steps than there are edges. Where the
way up comes to an object that answers nothing, that is the root of all objects on it. Otherwise
the root is the last object before the first that was met already. -/
theorem rootOf_ends (b : Board) (id : String) :
    (∃ k ≤ b.edges.rows.length, b.ancestor id k = some (b.rootOf id)) ∧
      (∀ top, b.EndsAt id top → b.rootOf id = top ∧ b.isTop top = true ∧
        ∀ k x, b.ancestor id k = some x → b.rootOf x = top) ∧
      ((∀ top, ¬ b.EndsAt id top) →
        ∃ k, b.ancestor id k = some (b.rootOf id) ∧ b.RepeatsAt id (k + 1)) := by
  obtain ⟨k, hle, hk, distinct, met⟩ := b.rootOf_stops id
  refine ⟨⟨k, hle, hk⟩, fun top h => ⟨h.rootOf_eq, ?_, fun _ _ hx => (h.of_ancestor hx).rootOf_eq⟩,
    fun endless => ⟨k, hk, ?_⟩⟩
  · obtain ⟨-, -, htop⟩ := h
    exact isTop_iff.2 htop
  · cases hp : b.parentOf (b.rootOf id) with
    | none => exact absurd ⟨k, hk, parentOf_eq_none_iff.1 hp⟩ (endless _)
    | some p =>
      obtain ⟨i, hi, hmet⟩ := met p hp
      exact ⟨⟨p, (ancestor_succ_of hk).trans hp, i, Nat.lt_succ_of_le hi, hmet⟩,
        fun i j hij hj => distinct i j hij (Nat.le_of_lt_succ hj)⟩

theorem rootOf_ends_of_round :
    let board : Board :=
      { edges := .ofList [⟨"p", ""⟩, ⟨"q", "p"⟩, ⟨"q", "u"⟩, ⟨"r", "q"⟩, ⟨"x", "y"⟩, ⟨"y", "z"⟩,
          ⟨"z", "y"⟩] }
    board.EndsAt "r" "p" ∧ board.rootOf "r" = "p" ∧ (∀ top, ¬ board.EndsAt "x" top) ∧
      ∃ k, board.ancestor "x" k = some (board.rootOf "x") ∧ board.RepeatsAt "x" (k + 1) := by
  intro board
  have ends : board.EndsAt "r" "p" :=
    ⟨2, by decide +kernel, isTop_iff.1 (by decide +kernel)⟩
  have endless (top : String) : ¬ board.EndsAt "x" top :=
    not_endsAt_of_repeats (k := 2) (i := 1) (p := "y") (by decide +kernel) (by decide +kernel)
      (by decide)
  obtain ⟨-, tops, -⟩ := rootOf_ends board "r"
  obtain ⟨-, -, repeats⟩ := rootOf_ends board "x"
  exact ⟨ends, (tops "p" ends).1, endless, repeats endless⟩

end Imageboard.Board
