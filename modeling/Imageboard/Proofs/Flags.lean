import Imageboard.Proofs.Threads

namespace Imageboard

namespace Board

variable {b b' : Board} {f g : Flag} {m : Mark} {id actor : String}

def FlagsOnRoots (b : Board) : Prop :=
  ∀ f, ∀ m ∈ (b.flagged f).rows, b.Answers m.target ""

/-- What a switch of a flag of an object makes of a board: this flag is turned, as the answer says,
and all else is as it was. -/
structure Switched (b b' : Board) (f : Flag) (actor id : String) (answer : FlagSwitch) : Prop where
  turned : b'.hasFlag f id = !b.hasFlag f id
  answered : answer = if b.hasFlag f id then .cleared else .set
  byActor : b'.hasFlag f id = true → ⟨id, actor⟩ ∈ (b'.flagged f).rows
  others : ∀ m : Mark, m.target ≠ id → (m ∈ (b'.flagged f).rows ↔ m ∈ (b.flagged f).rows)
  rest : b' = b.withFlagged f (b'.flagged f)

theorem hasFlag_iff : b.hasFlag f id = true ↔ ∃ m ∈ (b.flagged f).rows, m.target = id := by
  unfold hasFlag
  rw [Table.contains_iff]
  simp [Keyed.key]

theorem nodup_targets (b : Board) (f : Flag) : ((b.flagged f).rows.map Mark.target).Nodup := by
  apply List.pairwise_map.2
  apply (b.flagged f).sorted.imp
  intro m n hlt he
  have hkey : Keyed.key m = Keyed.key n := congrArg (fun target => [target]) he
  exact List.lt_irrefl _ (hkey ▸ hlt)

@[simp] theorem flagged_withFlagged (b : Board) (f : Flag) (marks : Table Mark) :
    (b.withFlagged f marks).flagged f = marks := by
  cases f <;> rfl

theorem flagged_withFlagged_of_ne (b : Board) (marks : Table Mark) (h : g ≠ f) :
    (b.withFlagged f marks).flagged g = b.flagged g := by
  cases f <;> cases g <;> first | rfl | exact absurd rfl h

@[simp] theorem edges_withFlagged (b : Board) (f : Flag) (marks : Table Mark) :
    (b.withFlagged f marks).edges = b.edges := by
  cases f <;> rfl

theorem rootEdges_eq_one_iff : b.rootEdges id = 1 ↔ b.Answers id "" := by
  rw [rootEdges, Table.count, List.countP_eq_length_filter, filter_edges]
  by_cases h : b.Answers id ""
  · rw [if_pos (isChild_iff.2 h)]
    exact iff_of_true rfl h
  · rw [if_neg (mt isChild_iff.1 h)]
    exact iff_of_false nofun h

theorem switchFlag_of_not_root (h : ¬ b.Answers id "") :
    b.switchFlag f actor id = (b, .notRoot) := by
  rw [switchFlag, if_neg (mt rootEdges_eq_one_iff.1 h)]

theorem Switched.clear (h : b.hasFlag f id = true) :
    b.Switched (b.withFlagged f ((b.flagged f).filter fun m => m.target != id)) f actor id
      .cleared := by
  have gone :
      (b.withFlagged f ((b.flagged f).filter fun m => m.target != id)).hasFlag f id = false := by
    apply Bool.eq_false_iff.2
    intro hset
    obtain ⟨m, hm, hid⟩ := hasFlag_iff.1 hset
    simp [hid] at hm
  exact {
    turned := by rw [gone, h, Bool.not_true]
    answered := by rw [h, if_pos rfl]
    byActor := fun hset => by simp [gone] at hset
    others := fun m hm => by simp [hm]
    rest := by rw [flagged_withFlagged] }

theorem Switched.set (h : b.hasFlag f id = false) :
    b.Switched (b.withFlagged f ((b.flagged f).put ⟨id, actor⟩)) f actor id .set := by
  have there :
      ⟨id, actor⟩ ∈ ((b.withFlagged f ((b.flagged f).put ⟨id, actor⟩)).flagged f).rows := by
    rw [flagged_withFlagged]
    exact Table.mem_put.2 (.inl rfl)
  exact {
    turned := by rw [hasFlag_iff.2 ⟨_, there, rfl⟩, h, Bool.not_false]
    answered := by rw [h, if_neg Bool.false_ne_true]
    byActor := fun _ => there
    others := fun m hm => by
      have hkey : Keyed.key m ≠ Keyed.key (⟨id, actor⟩ : Mark) :=
        fun hk => hm (List.head_eq_of_cons_eq hk)
      rw [flagged_withFlagged, Table.mem_put]
      constructor
      · intro hmem
        exact (hmem.resolve_left fun he => hm (congrArg Mark.target he)).1
      · exact fun hmem => .inr ⟨hmem, hkey⟩
    rest := by rw [flagged_withFlagged] }

theorem switched_of_root (h : b.Answers id "") :
    b.Switched (b.switchFlag f actor id).1 f actor id (b.switchFlag f actor id).2 := by
  rw [switchFlag, if_pos (rootEdges_eq_one_iff.2 h)]
  cases hset : b.hasFlag f id with
  | true => exact .clear hset
  | false => exact .set hset

theorem switchFlag_eq_notRoot_iff : (b.switchFlag f actor id).2 = .notRoot ↔ ¬ b.Answers id "" := by
  constructor
  · intro h hroot
    rw [(switched_of_root hroot).answered] at h
    split at h <;> cases h
  · intro h
    rw [switchFlag_of_not_root h]

theorem FlagsOnRoots.switchFlag (h : b.FlagsOnRoots) :
    (b.switchFlag f actor id).1.FlagsOnRoots := by
  by_cases hroot : b.Answers id ""
  · have switched : b.Switched (b.switchFlag f actor id).1 f actor id (b.switchFlag f actor id).2 :=
      switched_of_root hroot
    generalize (b.switchFlag f actor id).1 = b' at switched
    intro g m hm
    have edges : b'.edges = b.edges := by rw [switched.rest, edges_withFlagged]
    unfold Answers
    rw [edges]
    by_cases hid : m.target = id
    · exact hid ▸ hroot
    · apply h g m
      by_cases hg : g = f
      · subst hg
        exact (switched.others m hid).1 hm
      · rwa [switched.rest, flagged_withFlagged_of_ne _ _ hg] at hm
  · rw [switchFlag_of_not_root hroot]
    exact h

theorem FlagsOnRoots.erase (h : b.FlagsOnRoots) : (b.erase id).1.FlagsOnRoots := by
  intro f m hm
  have kept : m ∈ (b.flagged f).rows ∧ m.target ≠ id := by
    cases f <;>
    · obtain ⟨hm, hid⟩ := Table.mem_filter.1 hm
      exact ⟨hm, bne_iff_ne.1 hid⟩
  exact mem_edges_erase.2 ⟨h f m kept.1, kept.2⟩

theorem FlagsOnRoots.mono (h : b.FlagsOnRoots) (flags : ∀ f, b'.flagged f = b.flagged f)
    (roots : ∀ id, b.Answers id "" → b'.Answers id "") : b'.FlagsOnRoots := by
  intro f m hm
  rw [flags f] at hm
  exact roots m.target (h f m hm)

end Board

namespace Write

def Reflags : Write → Prop
  | flag .. | erase .. => True
  | _ => False

theorem flagged_apply {w : Write} {b : Board} {f : Flag} (h : ¬ w.Reflags) :
    (w.apply b).flagged f = b.flagged f := by
  cases w with
  | author e now =>
    simp only [apply]
    split
    next b' hb =>
      rw [(Board.insertAuthored_eq_ok_iff.1 hb).2]
      cases f <;> rfl
    next => rfl
  | flag | erase => exact absurd trivial h
  | follow resident actor follows => cases follows <;> cases f <;> rfl
  | _ => cases f <;> rfl

theorem mem_edges_apply {w : Write} {b : Board} {e : Edge} (h : ¬ w.Erases)
    (he : e ∈ b.edges.rows) : e ∈ (w.apply b).edges.rows := by
  by_cases hw : w.Redraws
  · cases w with
    | edge child parent => exact Board.mem_recordEdge.2 (.inl he)
    | erase => exact absurd trivial h
    | _ => exact hw.elim
  · rwa [edges_apply hw]

end Write

namespace Board

variable {b b' : Board}

theorem FlagsOnRoots.apply (w : Write) (h : b.FlagsOnRoots) : (w.apply b).FlagsOnRoots := by
  by_cases hw : w.Reflags
  · cases w with
    | flag f actor id => exact h.switchFlag
    | erase id => exact h.erase
    | _ => exact hw.elim
  · apply h.mono (fun f => Write.flagged_apply hw)
    intro id hid
    apply Write.mem_edges_apply _ hid
    intro herases
    cases w with
    | erase => exact hw trivial
    | _ => exact herases

theorem Reaches.flagsOnRoots {P : Write → Prop} (h : b.Reaches P b') (hb : b.FlagsOnRoots) :
    b'.FlagsOnRoots :=
  h.related (R := fun b b' => b.FlagsOnRoots → b'.FlagsOnRoots) (fun _ hb => hb)
    (fun _ _ _ h h' hb => h' (h hb)) (fun w _ _ hb => hb.apply w) hb

end Board

namespace Operation

/-- Flags stand on roots only. From a board without flags any run leads to one where each flagged
object has a root edge, and is flagged once. There a switch finds no root, and changes nothing,
exactly where the object has no root edge; else it turns this one flag of this one object. -/
theorem run_flagsOnRoots (s : Site) (ops : List Operation) (n : Node)
    (hn : ∀ f, n.board.flagged f = {}) :
    let b := (run s ops n).board
    (b.FlagsOnRoots ∧ ∀ f, ((b.flagged f).rows.map Mark.target).Nodup) ∧
      ∀ f actor id,
        (b.switchFlag f actor id = (b, .notRoot) ↔ ¬ b.Answers id "") ∧
        ((b.switchFlag f actor id).2 = .notRoot ↔ ¬ b.Answers id "") ∧
        (b.Answers id "" →
          b.Switched (b.switchFlag f actor id).1 f actor id (b.switchFlag f actor id).2) := by
  intro b
  have start : n.board.FlagsOnRoots := by
    intro f m hm
    rw [hn f] at hm
    cases hm
  have along : n.board.Reaches (fun _ => True) b := run_reaches s ops (fun _ _ _ _ => trivial) n
  refine ⟨⟨along.flagsOnRoots start, b.nodup_targets⟩, fun f actor id => ⟨?_, ?_, ?_⟩⟩
  · constructor
    · intro h
      exact Board.switchFlag_eq_notRoot_iff.1 (congrArg Prod.snd h)
    · exact Board.switchFlag_of_not_root
  · exact Board.switchFlag_eq_notRoot_iff
  · exact Board.switched_of_root

theorem run_flagsOnRoots_of_deleted_root :
    let s : Site := { config := {}, boardFile := "", filesRoot := "" }
    let root := "u/aaaaaaaa"
    let mirrored : Object := { id := root, actor := "v", inReplyTo := [.reference "v/q"] }
    let ops := [create .epoch [⟨"aaaaaaaa", rfl, rfl⟩] { actor := "u" }, mark .sticky "u" root,
      replicate .epoch mirrored, mark .locked "u" root, mark .locked "u" "v/q"]
    let b := (run s ops {}).board
    let b' := (run s (ops ++ [delete root]) {}).board
    (∀ f, ({} : Node).board.flagged f = {}) ∧
      (b.sticky.rows = [⟨root, "u"⟩] ∧ b.locked.rows = [⟨root, "u"⟩] ∧
        b.edges.rows = [⟨root, ""⟩, ⟨root, "v/q"⟩]) ∧
      b.FlagsOnRoots ∧ b.switchFlag .locked "w" "v/q" = (b, .notRoot) ∧
      (b'.sticky = {} ∧ b'.locked = {}) ∧ b'.switchFlag .locked "w" root = (b', .notRoot) := by
  intro s root mirrored ops b b'
  have none : ∀ f, ({} : Node).board.flagged f = {} := by
    intro f
    cases f <;> rfl
  have before := run_flagsOnRoots s ops {} none
  have after := run_flagsOnRoots s (ops ++ [delete root]) {} none
  have tables : b.sticky.rows = [⟨root, "u"⟩] ∧ b.locked.rows = [⟨root, "u"⟩] ∧
      b.edges.rows = [⟨root, ""⟩, ⟨root, "v/q"⟩] := by decide +kernel
  have cleared : b'.sticky.rows = [] ∧ b'.locked.rows = [] ∧ b'.edges.rows = [] := by decide +kernel
  refine ⟨none, tables, before.1.1, (before.2 .locked "w" "v/q").1.2 ?_,
    ⟨Table.ext cleared.1, Table.ext cleared.2.1⟩, (after.2 .locked "w" root).1.2 ?_⟩
  · unfold Board.Answers
    rw [tables.2.2]
    decide
  · unfold Board.Answers
    rw [cleared.2.2]
    decide

end Operation
end Imageboard
