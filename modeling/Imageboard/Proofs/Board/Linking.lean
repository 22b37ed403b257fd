import Imageboard.Proofs.Board.Selection
import Imageboard.Proofs.Board.Tiers

namespace Imageboard

def Object.renews (o : Object) (id : String) : Bool :=
  o.replyParent? == some id && !(o.hasOption "sage" || o.hasOption "nokosage")

namespace Row

variable {r : Row} {o : Object} {archived : Bool} {published : Instant}

def after (r : Row) (o : Object) (published : Instant) : Row :=
  if o.renews r.id then { r with updated := some published.millis } else r

def inArchive (r : Row) : Row :=
  if r.isTombstone then r else { r with type := ObjectType.archive.text }

/-- A row after an object took its place, which may have gone to the archive with that. -/
def linked (r : Row) (o : Object) (archived : Bool) (published : Instant) : Row :=
  (if archived = true ∧ r.id = o.id then r.inArchive else r).after o published

@[simp] theorem id_after (r : Row) (o : Object) (published : Instant) :
    (r.after o published).id = r.id := by
  unfold after
  split <;> rfl

theorem after_of_not_renews (h : o.renews r.id = false) : r.after o published = r := by
  rw [after, h, if_neg Bool.false_ne_true]

@[simp] theorem id_inArchive (r : Row) : r.inArchive.id = r.id := by
  unfold Row.inArchive
  split <;> rfl

@[simp] theorem id_linked (r : Row) (o : Object) (archived : Bool) (published : Instant) :
    (r.linked o archived published).id = r.id := by
  unfold linked
  split <;> simp

theorem linked_of_ne (h : r.id ≠ o.id) : r.linked o archived published = r.after o published := by
  rw [linked, if_neg fun he => h he.2]

/-- Taking its place in a thread changes nothing of a row but its type, to that of an archived post,
and its last activity. -/
theorem linked_eq (r : Row) (o : Object) (archived : Bool) (published : Instant) :
    ∃ type updated, r.linked o archived published = { r with type, updated } ∧
      (type = r.type ∨ type = ObjectType.archive.text) := by
  have shelved : ∃ type,
      (if archived = true ∧ r.id = o.id then r.inArchive else r) = { r with type } ∧
        (type = r.type ∨ type = ObjectType.archive.text) := by
    unfold inArchive
    split
    · split
      · exact ⟨_, rfl, .inl rfl⟩
      · exact ⟨_, rfl, .inr rfl⟩
    · exact ⟨_, rfl, .inl rfl⟩
  obtain ⟨type, h, htype⟩ := shelved
  rw [linked, h, after]
  split
  · exact ⟨_, _, rfl, htype⟩
  · exact ⟨_, _, rfl, htype⟩

end Row

namespace Board

variable {b c : Board} {t : Tier} {r : Row} {o : Object} {published : Instant} {id : String}

/-- A reply goes to the archive with the root of its thread. -/
def archives (b : Board) (o : Object) : Bool :=
  o.replyParent?.any fun parent => b.typeOf (b.rootOf parent) == some .archive

theorem archives_iff : b.archives o = true ↔ ∃ parent, o.replyParent? = some parent ∧
    b.typeOf (b.rootOf parent) = some .archive := by
  unfold archives
  cases o.replyParent? <;> simp

theorem link_archives (b : Board) (o : Object) (published : Instant) :
    (b.link o published).2 = b.archives o := by
  unfold link archives
  cases o.replyParent? <;> rfl

theorem mem_setType_archive : r ∈ ((b.setType id .archive).1.tier t).rows ↔
    ∃ q ∈ (b.tier t).rows, (if q.id = id then q.inArchive else q) = r := by
  rw [setType, tier_updateRows, Table.mem_update]
  refine exists_congr fun q => and_congr_right fun _ => ?_
  by_cases hid : q.id = id
  · cases hd : q.isTombstone <;> simp [Row.inArchive, hid, hd]
  · simp [hid]

theorem mem_touch_parent {parent : String} (h : o.replyParent? = some parent) :
    r ∈ ((if o.hasOption "sage" || o.hasOption "nokosage" then b
      else (b.touch parent published).1).tier t).rows ↔
        ∃ q ∈ (b.tier t).rows, q.after o published = r := by
  split
  next wish => simp [Row.after, Object.renews, wish]
  next wish =>
    rw [touch, tier_updateRows, Table.mem_update]
    refine exists_congr fun q => and_congr_right fun _ => ?_
    have named : o.renews q.id = (q.id == parent) := by
      rw [Object.renews, h, Bool.eq_false_iff.2 wish, Bool.not_false, Bool.and_true]
      exact BEq.comm
    rw [Row.after, named]

theorem mem_link_iff : r ∈ ((b.link o published).1.tier t).rows ↔
    ∃ q ∈ (b.tier t).rows, q.linked o (b.archives o) published = r := by
  unfold link archives Row.linked
  split
  next unanswered => simp [unanswered, Row.after, Object.renews]
  next parent answered =>
    rw [mem_touch_parent answered]
    simp only [tier_recordEdge, answered, Option.any_some]
    split
    next root => simp [mem_setType_archive, root]
    next root => simp [root]

theorem mem_link_of_mem {o : Object} {published : Instant} (hr : r ∈ (b.tier t).rows) :
    ∃ type updated, { r with type, updated } ∈ ((b.link o published).1.tier t).rows := by
  obtain ⟨type, updated, he, -⟩ := r.linked_eq o (b.archives o) published
  exact ⟨type, updated, he ▸ mem_link_iff.2 ⟨r, hr, rfl⟩⟩

theorem link_eq (b : Board) (o : Object) (published : Instant) :
    let b' := (b.link o published).1
    b' = { b with authored := b'.authored, replicas := b'.replicas, edges := b'.edges } := by
  unfold link
  dsimp only
  split
  next => rfl
  next => split <;> split <;> rfl

end Board
end Imageboard
