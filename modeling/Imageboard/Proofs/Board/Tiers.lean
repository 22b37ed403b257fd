import Imageboard.Board.Contacts
import Imageboard.Lifecycle.Cascade
import Imageboard.Proofs.Board.Table

namespace Imageboard

@[simp] theorem Row.id_ofEntry (e : Entry) (now : Instant) : (Row.ofEntry e now).id = e.id := by
  unfold ofEntry
  split <;> rfl

@[simp] theorem Row.actor_ofEntry (e : Entry) (now : Instant) :
    (Row.ofEntry e now).actor = e.actor := by
  unfold ofEntry
  split <;> rfl

theorem Row.isTombstone_of_isPost {r : Row} (h : r.isPost = true) : r.isTombstone = false := by
  simp only [isPost, Bool.or_eq_true, beq_iff_eq] at h
  rcases h with h | h <;> simp [isTombstone, h]

namespace Row

def buried (r : Row) (media : Bool) (id placeholder : String) (time : Int) : Row :=
  if r.isTombstone then r
  else if media then
    { r with
      type := ObjectType.tombstone.text
      mediaType := "image/png"
      href := placeholder
      name := ""
      content := ""
      attributedTo := removedAuthor
      size := 0
      deleted := some time }
  else if r.id = id then
    { r with
      type := ObjectType.tombstone.text
      name := ""
      content := ""
      attributedTo := removedAuthor
      tripcode := ""
      deleted := some time }
  else r

@[simp] theorem id_buried (r : Row) (media : Bool) (id placeholder : String) (time : Int) :
    (r.buried media id placeholder time).id = r.id := by
  unfold buried
  repeat' split
  all_goals rfl

@[simp] theorem media_buried (r : Row) (media : Bool) (id placeholder : String) (time : Int) :
    (r.buried media id placeholder time).media = r.media := by
  unfold buried
  repeat' split
  all_goals rfl

theorem buried_of_tombstone {r : Row} {media : Bool} {id placeholder : String} {time : Int}
    (h : r.isTombstone = true) : r.buried media id placeholder time = r :=
  if_pos h

/-- A burial leaves a row as it is, or makes a tombstone of it. One that bears media keeps its
address only if it is buried for its own id. -/
theorem buried_cases (r : Row) (media : Bool) (id placeholder : String) (time : Int) :
    let r' := r.buried media id placeholder time
    (r' = r ∧ (r.isTombstone = true ∨ media = false ∧ r.id ≠ id)) ∨
      (r.isTombstone = false ∧ r'.isTombstone = true ∧
        (media = true ∧ r'.href = placeholder ∨ media = false ∧ r.id = id ∧ r'.href = r.href)) := by
  intro r'
  cases dead : r.isTombstone with
  | true => exact .inl ⟨buried_of_tombstone dead, .inl rfl⟩
  | false =>
    cases media with
    | true =>
      have turned : r'.isTombstone = true ∧ r'.href = placeholder := by
        simp only [r', buried, dead, Bool.false_eq_true, if_false, if_true, and_true]
        exact beq_self_eq_true _
      exact .inr ⟨rfl, turned.1, .inl ⟨rfl, turned.2⟩⟩
    | false =>
      by_cases own : r.id = id
      · have turned : r'.isTombstone = true ∧ r'.href = r.href := by
          simp only [r', buried, dead, own, Bool.false_eq_true, if_false, if_true, and_true]
          exact beq_self_eq_true _
        exact .inr ⟨rfl, turned.1, .inr ⟨rfl, own, turned.2⟩⟩
      · exact .inl ⟨by simp [r', buried, dead, own], .inr ⟨rfl, own⟩⟩

end Row

namespace Board

variable {b b' : Board} {t : Tier} {r : Row} {id placeholder : String} {time : Int}

@[simp] theorem tier_eachTier (f : Table Row → Table Row × Nat) :
    (b.eachTier f).1.tier t = (f (b.tier t)).1 := by
  cases t <;> rfl

@[simp] theorem tier_updateRows (p : Row → Bool) (f : Row → Row)
    (keeps : ∀ r, Keyed.key (f r) = Keyed.key r) :
    (b.updateRows p f keeps).1.tier t = ((b.tier t).update p f keeps).1 :=
  tier_eachTier _

@[simp] theorem tier_removeReports (id : String) : (b.removeReports id).1.tier t = b.tier t := by
  cases t <;> rfl

@[simp] theorem tier_report (id reason : String) : (b.report id reason).tier t = b.tier t := by
  cases t <;> rfl

@[simp] theorem tier_recordEdge (child parent : String) :
    (b.recordEdge child parent).1.tier t = b.tier t := by
  cases t <;> rfl

@[simp] theorem tier_withFlagged (f : Flag) (marks : Table Mark) :
    (b.withFlagged f marks).tier t = b.tier t := by
  cases t <;> cases f <;> rfl

@[simp] theorem tier_switchFlag (f : Flag) (actor id : String) :
    (b.switchFlag f actor id).1.tier t = b.tier t := by
  unfold switchFlag
  split
  · split <;> exact tier_withFlagged f _
  · rfl

@[simp] theorem tier_withContacts (r : Relation) (cs : Table Contact) :
    (b.withContacts r cs).tier t = b.tier t := by
  cases t <;> cases r <;> rfl

@[simp] theorem tier_addContact (r : Relation) (actor other : String) :
    (b.addContact r actor other).1.tier t = b.tier t :=
  tier_withContacts r _

@[simp] theorem tier_removeContact (r : Relation) (actor other : String) :
    (b.removeContact r actor other).1.tier t = b.tier t :=
  tier_withContacts r _

@[simp] theorem tier_buryMedia (id placeholder : String) (moment : Int) :
    (b.buryMedia id placeholder moment).1.tier t =
      ((b.tier t).update (fun r => !r.isTombstone && isMediaOf (b.tier t) id r)
        (fun r => { r with
          type := ObjectType.tombstone.text
          mediaType := "image/png"
          href := placeholder
          name := ""
          content := ""
          attributedTo := removedAuthor
          size := 0
          deleted := some moment })
        fun _ => rfl).1 :=
  tier_eachTier _

theorem rows_bury (placeholder : String) (time : Int) (id : String) :
    ((b.bury placeholder time id).1.tier t).rows = (b.tier t).rows.map fun r =>
      r.buried (isMediaOf (b.tier t) id r) id placeholder time := by
  have steps : (b.bury placeholder time id).1.tier t =
      (((b.removeReports id).1.buryMedia id placeholder time).1.buryRow id time).1.tier t := rfl
  rw [steps, buryRow, tier_updateRows, tier_buryMedia, tier_removeReports, Table.rows_update,
    Table.rows_update, List.map_map]
  refine List.map_congr_left fun r _ => ?_
  unfold Row.buried
  rw [Function.comp_apply]
  cases dead : r.isTombstone with
  | true => simp [dead]
  | false =>
    cases media : isMediaOf (b.tier t) id r with
    | true =>
      -- the second step passes over the tombstone that the first one made
      simp [Row.isTombstone, ObjectType.text]
    | false => simp [dead]

theorem mem_bury : r ∈ ((b.bury placeholder time id).1.tier t).rows ↔ ∃ q ∈ (b.tier t).rows,
    q.buried (isMediaOf (b.tier t) id q) id placeholder time = r := by
  rw [rows_bury, List.mem_map]

theorem mem_bury_of_alive (alive : r.isTombstone = false) :
    r ∈ ((b.bury placeholder time id).1.tier t).rows ↔
      r ∈ (b.tier t).rows ∧ r.id ≠ id ∧ isMediaOf (b.tier t) id r = false := by
  rw [mem_bury]
  constructor
  · rintro ⟨q, hq, rfl⟩
    rcases q.buried_cases (isMediaOf (b.tier t) id q) id placeholder time with
      ⟨same, dead | ⟨media, own⟩⟩ | ⟨-, dead, -⟩
    · rw [same, dead] at alive
      cases alive
    · rw [same]
      exact ⟨hq, own, media⟩
    · rw [dead] at alive
      cases alive
  · rintro ⟨hr, own, media⟩
    rcases r.buried_cases (isMediaOf (b.tier t) id r) id placeholder time with
      ⟨same, -⟩ | ⟨-, -, ⟨media', -⟩ | ⟨-, own', -⟩⟩
    · exact ⟨r, hr, same⟩
    · rw [media] at media'
      cases media'
    · exact absurd own' own

theorem tier_erase (t : Tier) : (b.erase id).1.tier t =
    ((b.tier t).remove (isMediaOf (b.tier t) id)).1.filter fun r => !(r.id == id) := by
  cases t <;> rfl

theorem holds_iff : b.holds t id = true ↔ ∃ r ∈ (b.tier t).rows, r.id = id := by
  refine Table.contains_iff.trans (exists_congr fun r => and_congr_right fun _ => ?_)
  exact ⟨List.head_eq_of_cons_eq, congrArg fun id => [id]⟩

theorem holds_eq_false_iff : b.holds t id = false ↔ ∀ r ∈ (b.tier t).rows, r.id ≠ id := by
  rw [← Bool.not_eq_true, holds_iff]
  exact ⟨fun h r hr hid => h ⟨r, hr, hid⟩, fun h ⟨r, hr, hid⟩ => h r hr hid⟩

theorem insertAuthored_eq_ok_iff {e : Entry} {now : Instant} : b.insertAuthored e now = .ok b' ↔
    (∀ d ∈ b.authored.rows, d.id ≠ e.id) ∧
      b' = { b with authored := b.authored.put (Row.ofEntry e now) } := by
  have free : (∀ d ∈ b.authored.rows, Keyed.key d ≠ Keyed.key (Row.ofEntry e now)) ↔
      ∀ d ∈ b.authored.rows, d.id ≠ e.id := by
    simp [Keyed.key]
  unfold insertAuthored
  rw [← free]
  split
  next rows hrows =>
    obtain ⟨hfree, rfl⟩ := Table.insert?_eq_some_iff.1 hrows
    exact ⟨fun h => ⟨hfree, (Except.ok.inj h).symm⟩, fun h => congrArg Except.ok h.2.symm⟩
  next hrows =>
    refine iff_of_false nofun fun h => ?_
    rw [Table.insert?_eq_some_iff.2 ⟨h.1, rfl⟩] at hrows
    cases hrows

theorem insertAuthored_eq_error {e : Entry} {now : Instant} (h : r ∈ b.authored.rows)
    (hid : r.id = e.id) :
    b.insertAuthored e now = .error ((Fault.broke .storage).doing (.insertingLocal e.id)) := by
  cases hi : b.insertAuthored e now with
  | ok b' => exact absurd hid ((insertAuthored_eq_ok_iff.1 hi).1 r h)
  | error f =>
    unfold insertAuthored at hi
    split at hi
    · cases hi
    · exact hi.symm

theorem mem_insertAuthored {e : Entry} {now : Instant} (h : b.insertAuthored e now = .ok b') :
    r ∈ (b'.tier t).rows ↔ r ∈ (b.tier t).rows ∨ (t = .authored ∧ r = Row.ofEntry e now) := by
  obtain ⟨hfree, rfl⟩ := insertAuthored_eq_ok_iff.1 h
  cases t with
  | replica => simp [tier]
  | authored =>
    simp only [tier, Table.mem_put, true_and]
    constructor
    · rintro (rfl | ⟨hr, -⟩)
      · exact .inr rfl
      · exact .inl hr
    · rintro (hr | rfl)
      · refine .inr ⟨hr, fun hk => hfree r hr ?_⟩
        exact (List.head_eq_of_cons_eq hk).trans (Row.id_ofEntry e now)
      · exact .inl rfl

theorem insertReplica_eq {e : Entry} {now : Instant} : b.insertReplica e now =
    if b.holds .replica e.id then (b, false)
    else ({ b with replicas := b.replicas.put (Row.ofEntry e now) }, true) := by
  have taken : b.replicas.contains (Keyed.key (Row.ofEntry e now)) = b.holds .replica e.id :=
    congrArg (fun id => b.replicas.contains [id]) (Row.id_ofEntry e now)
  unfold insertReplica Table.insertNew
  rw [taken]
  cases b.holds .replica e.id <;> rfl

theorem mem_insertReplica {e : Entry} {now : Instant} :
    r ∈ ((b.insertReplica e now).1.tier t).rows ↔ r ∈ (b.tier t).rows ∨
      (t = .replica ∧ (∀ d ∈ b.replicas.rows, d.id ≠ e.id) ∧ r = Row.ofEntry e now) := by
  cases t with
  | authored => simp [insertReplica, tier]
  | replica =>
    have h := Table.mem_insertNew (t := b.replicas) (a := Row.ofEntry e now) (c := r)
    simpa [insertReplica, tier, Keyed.key] using h

end Board
end Imageboard
