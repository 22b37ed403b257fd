import Imageboard.Proofs.Board.Tiers
import Mathlib.Logic.Relation

namespace Imageboard

inductive Write where
  | author (e : Entry) (now : Instant)
  | mirror (e : Entry) (now : Instant)
  | retype (id : String) (type : ObjectType)
  | setPreview (attachment preview : String)
  | setSensitive (id : String) (sensitive : Bool)
  | touch (id : String) (time : Instant)
  | bury (placeholder : String) (time : Int) (id : String)
  | erase (id : String)
  | edge (child parent : String)
  | flag (f : Flag) (actor id : String)
  | report (id reason : String)
  | follow (resident actor : String) (follows : Bool)

namespace Write

/-- The board after a write; one that is refused changes nothing. -/
def apply (b : Board) : Write → Board
  | author e now =>
    match b.insertAuthored e now with
    | .ok b' => b'
    | .error _ => b
  | mirror e now => (b.insertReplica e now).1
  | retype id type => (b.setType id type).1
  | setPreview attachment preview => (b.setPreviewOf attachment preview).1
  | setSensitive id sensitive => (b.setSensitive id sensitive).1
  | touch id time => (b.touch id time).1
  | bury placeholder time id => (b.bury placeholder time id).1
  | erase id => (b.erase id).1
  | edge child parent => (b.recordEdge child parent).1
  | flag f actor id => (b.switchFlag f actor id).1
  | report id reason => b.report id reason
  | follow resident actor follows =>
    if follows then (b.addContact .follower resident actor).1
    else (b.removeContact .follower resident actor).1

/-- What a write makes of a row of a tier; nothing of one that it takes out. -/
def change (b : Board) (t : Tier) (r : Row) : Write → Option Row
  | retype id type =>
    some (if r.id == id && !r.isTombstone then { r with type := type.text } else r)
  | setPreview attachment preview =>
    some (if r.attachment == attachment then { r with preview } else r)
  | setSensitive id sensitive => some (if r.id == id then { r with sensitive } else r)
  | touch id time => some (if r.id == id then { r with updated := some time.millis } else r)
  | bury placeholder time id =>
      some (r.buried (Board.isMediaOf (b.tier t) id r) id placeholder time)
  | erase id => if Board.isMediaOf (b.tier t) id r || r.id == id then none else some r
  | _ => some r

def Adds (b : Board) (t : Tier) (r : Row) : Write → Prop
  | author e now => t = .authored ∧ (∀ d ∈ b.authored.rows, d.id ≠ e.id) ∧ r = Row.ofEntry e now
  | mirror e now => t = .replica ∧ (∀ d ∈ b.replicas.rows, d.id ≠ e.id) ∧ r = Row.ofEntry e now
  | _ => False

theorem mem_apply {w : Write} {b : Board} {t : Tier} {r : Row} : r ∈ ((w.apply b).tier t).rows ↔
    (∃ q ∈ (b.tier t).rows, w.change b t q = some r) ∨ w.Adds b t r := by
  cases w with
  | author e now =>
    simp only [change, Adds, Option.some.injEq, exists_eq_right]
    cases hb : b.insertAuthored e now with
    | ok b' =>
      have free := (Board.insertAuthored_eq_ok_iff.1 hb).1
      simp only [apply, hb, Board.mem_insertAuthored hb]
      exact or_congr_right (and_congr_right fun _ => (and_iff_right free).symm)
    | error f =>
      simp only [apply, hb]
      refine (or_iff_left fun ⟨_, free, _⟩ => ?_).symm
      rw [Board.insertAuthored_eq_ok_iff.2 ⟨free, rfl⟩] at hb
      cases hb
  | mirror e now =>
    simp only [change, Adds, Option.some.injEq, exists_eq_right]
    exact Board.mem_insertReplica
  | retype id type =>
    simp only [apply, Board.setType, Board.tier_updateRows, Table.mem_update, change, Adds,
      Option.some.injEq, or_false]
  | setPreview attachment preview =>
    simp only [apply, Board.setPreviewOf, Board.tier_updateRows, Table.mem_update, change, Adds,
      Option.some.injEq, or_false]
  | setSensitive id sensitive =>
    simp only [apply, Board.setSensitive, Board.tier_updateRows, Table.mem_update, change, Adds,
      Option.some.injEq, or_false]
  | touch id time =>
    simp only [apply, Board.touch, Board.tier_updateRows, Table.mem_update, change, Adds,
      Option.some.injEq, or_false]
  | bury placeholder time id =>
    simp only [apply, Board.mem_bury, change, Adds, Option.some.injEq, or_false]
  | erase id =>
    simp only [apply, Board.tier_erase, Table.mem_filter, Table.remove, change, Adds, or_false,
      Option.ite_none_left_eq_some, Option.some.injEq, Bool.or_eq_true, not_or, Bool.not_eq_true,
      Bool.not_eq_true', ← and_assoc, exists_eq_right]
  | edge child parent | flag f actor id | report id reason =>
    simp only [apply, Board.tier_recordEdge, Board.tier_switchFlag, Board.tier_report, change, Adds,
      Option.some.injEq, exists_eq_right, or_false]
  | follow resident actor follows =>
    have same : (apply b (.follow resident actor follows)).tier t = b.tier t := by
      cases follows
      · exact Board.tier_removeContact ..
      · exact Board.tier_addContact ..
    simp only [same, change, Adds, Option.some.injEq, exists_eq_right, or_false]

end Write

namespace Board

/-- Writes with a property lead from one board to another. -/
def Reaches (P : Write → Prop) : Board → Board → Prop :=
  Relation.ReflTransGen fun b b' => ∃ w, P w ∧ w.apply b = b'

variable {P Q : Write → Prop} {b b' b'' : Board}

theorem Reaches.refl (b : Board) : b.Reaches P b :=
  Relation.ReflTransGen.refl

theorem Reaches.trans (h : b.Reaches P b') (h' : b'.Reaches P b'') : b.Reaches P b'' :=
  Relation.ReflTransGen.trans h h'

theorem Reaches.single (w : Write) (h : P w) : b.Reaches P (w.apply b) :=
  Relation.ReflTransGen.single ⟨w, h, rfl⟩

theorem Reaches.mono (h : b.Reaches P b') (hP : ∀ w, P w → Q w) : b.Reaches Q b' :=
  Relation.ReflTransGen.mono (fun _ _ ⟨w, hw, he⟩ => ⟨w, hP w hw, he⟩) b b' h

/-- A preorder on boards that each write respects relates boards that writes lead to. -/
theorem Reaches.related {R : Board → Board → Prop} (h : b.Reaches P b') (hrefl : ∀ b, R b b)
    (htrans : ∀ b c d, R b c → R c d → R b d) (hstep : ∀ w b, P w → R b (w.apply b)) :
    R b b' := by
  induction h with
  | refl => exact hrefl b
  | tail _ hw ih =>
    obtain ⟨w, hP, rfl⟩ := hw
    exact htrans _ _ _ ih (hstep w _ hP)

theorem Reaches.foldl {β : Type} (f : Board → β → Board) (xs : List β)
    (h : ∀ x ∈ xs, ∀ b : Board, b.Reaches P (f b x)) (b : Board) : b.Reaches P (xs.foldl f b) := by
  induction xs generalizing b with
  | nil => exact .refl b
  | cons x xs ih =>
    exact (h x List.mem_cons_self b).trans (ih (fun y hy => h y (List.mem_cons_of_mem x hy)) _)

theorem Reaches.insertAuthored {e : Entry} {now : Instant} (h : b.insertAuthored e now = .ok b')
    (hP : P (.author e now)) : b.Reaches P b' := by
  have hw : (Write.author e now).apply b = b' := by simp only [Write.apply, h]
  exact hw ▸ .single _ hP

end Board
end Imageboard
