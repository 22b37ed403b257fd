import Imageboard.Proofs.Board.Selection
import Imageboard.Proofs.Board.Tiers
import Imageboard.Proofs.Operation

namespace Imageboard

namespace Row

def retyped (r : Row) (type : ObjectType) : Row :=
  { r with type := type.text }

theorem key_retyped (type : ObjectType) (r : Row) : Keyed.key (r.retyped type) = Keyed.key r :=
  rfl

theorem isPost_retyped {type : ObjectType} (h : type.isPost = true) (r : Row) :
    (r.retyped type).isPost = true := by
  cases type with
  | note | archive => rfl
  | tombstone | preview | attachment | other => cases h

theorem retyped_eq_self_iff {r : Row} {type : ObjectType} :
    r.retyped type = r ↔ r.type = type.text := by
  constructor
  · exact fun h => (congrArg Row.type h).symm
  · intro h
    rw [retyped, ← h]

end Row

namespace Table

variable {t : Table Row} {r : Row} {ids ids' : List String} {type : ObjectType}

def retype (t : Table Row) (ids : List String) (type : ObjectType) : Table Row :=
  (t.update (fun r => ids.contains r.id && !r.isTombstone) (·.retyped type)
    (Row.key_retyped type)).1

theorem mem_retype_self_iff (hr : r ∈ t.rows) : r ∈ (t.retype ids type).rows ↔
    (r.id ∈ ids → r.isTombstone = false → r.type = type.text) := by
  rw [retype, mem_update_self_iff hr, Bool.and_eq_true, List.contains_iff_mem, Bool.not_eq_true',
    and_imp, Row.retyped_eq_self_iff]

theorem mem_retype_of_not_mem (h : r.id ∉ ids) : r ∈ (t.retype ids type).rows ↔ r ∈ t.rows := by
  rw [retype, mem_update]
  constructor
  · rintro ⟨q, hq, rfl⟩
    split
    next chosen =>
      rw [if_pos chosen] at h
      rw [Bool.and_eq_true, List.contains_iff_mem] at chosen
      exact absurd chosen.1 h
    next => exact hq
  · intro hr
    have other : (ids.contains r.id && !r.isTombstone) = false := by simp [h]
    exact ⟨r, hr, by rw [other, if_neg Bool.false_ne_true]⟩

@[simp] theorem retype_nil (t : Table Row) (type : ObjectType) : t.retype [] type = t :=
  Table.ext (by simp [retype, update])

theorem retype_retype (t : Table Row) (ids ids' : List String) (type : ObjectType) :
    (t.retype ids type).retype ids' type = t.retype (ids ++ ids') type := by
  have either (r : Row) :
      (ids.contains r.id && !r.isTombstone || ids'.contains r.id && !r.isTombstone) =
        ((ids ++ ids').contains r.id && !r.isTombstone) := by
    rw [List.contains_append, Bool.and_or_distrib_right]
  unfold retype
  rw [update_update fun r => (rfl : (r.retyped type).retyped type = r.retyped type)]
  simp only [either]

theorem retype_congr (h : ∀ id, id ∈ ids ↔ id ∈ ids') : t.retype ids type = t.retype ids' type := by
  have same (id : String) : ids.contains id = ids'.contains id := by
    rw [Bool.eq_iff_iff, List.contains_iff_mem, List.contains_iff_mem, h]
  simp only [retype, same]

end Table

namespace Board

variable {b b' : Board} {t : Tier} {r : Row} {ids ids' : List String} {id x : String}
  {type : ObjectType}

def retype (b : Board) (ids : List String) (type : ObjectType) : Board :=
  { b with authored := b.authored.retype ids type, replicas := b.replicas.retype ids type }

def threadIds (b : Board) (id : String) : List String :=
  id :: (b.children id).map Entry.id

/-- Only posts and tombstones have one of these ids. -/
def NamesPosts (b : Board) (ids : List String) : Prop :=
  ∀ t, ∀ r ∈ (b.tier t).rows, r.id ∈ ids → r.isPost = true ∨ r.isTombstone = true

/-- What is no post is on another board as it is on this one. -/
def KeepsOthers (b b' : Board) : Prop :=
  ∀ t, ∀ r ∈ (b.tier t).rows, r.isPost = false → r ∈ (b'.tier t).rows

@[simp] theorem tier_retype : (b.retype ids type).tier t = (b.tier t).retype ids type := by
  cases t <;> rfl

theorem setType_eq (b : Board) (id : String) (type : ObjectType) :
    (b.setType id type).1 = b.retype [id] type := by
  unfold setType retype updateRows eachTier Table.retype
  simp only [List.contains_cons, List.contains_nil, Bool.or_false]
  rfl

@[simp] theorem retype_nil (b : Board) (type : ObjectType) : b.retype [] type = b := by
  simp only [retype, Table.retype_nil]

theorem retype_retype (b : Board) (ids ids' : List String) (type : ObjectType) :
    (b.retype ids type).retype ids' type = b.retype (ids ++ ids') type := by
  simp only [retype, Table.retype_retype]

theorem retype_congr (h : ∀ id, id ∈ ids ↔ id ∈ ids') : b.retype ids type = b.retype ids' type := by
  simp only [retype, Table.retype_congr h]

theorem mem_threadIds_retype : x ∈ (b.retype [id] type).threadIds id ↔ x ∈ b.threadIds id := by
  unfold threadIds
  rw [List.mem_cons, List.mem_cons]
  by_cases hx : x = id
  · simp only [hx, true_or]
  rw [mem_ids_children, mem_ids_children]
  have answers : (b.retype [id] type).Answers x id ↔ b.Answers x id := Iff.rfl
  have posts (t : Tier) : (∃ r ∈ ((b.retype [id] type).tier t).rows, r.id = x ∧ r.isPost = true) ↔
      ∃ r ∈ (b.tier t).rows, r.id = x ∧ r.isPost = true := by
    rw [tier_retype]
    refine exists_congr fun r => and_congr_left fun hr => Table.mem_retype_of_not_mem ?_
    rw [hr.1]
    exact fun h => hx (List.mem_singleton.1 h)
  simp only [answers, posts]

theorem setThreadType_eq (b : Board) (id : String) (h : type.isPost = true) :
    ∃ n, b.setThreadType id type = .ok (b.retype (b.threadIds id) type, n) := by
  let step (c : Board × Nat) (e : Entry) : Board × Nat :=
    ((c.1.setType e.id type).1, c.2 + (c.1.setType e.id type).2)
  have replies (es : List Entry) (c : Board × Nat) :
      (es.foldl step c).1 = c.1.retype (es.map Entry.id) type := by
    induction es generalizing c with
    | nil => exact (retype_nil c.1 type).symm
    | cons e es ih =>
      have first : (step c e).1 = c.1.retype [e.id] type := setType_eq c.1 e.id type
      rw [List.foldl_cons, ih, first, retype_retype, List.map_cons, List.singleton_append]
  have whole : (((b.setType id type).1.children id).foldl step (b.setType id type)).1 =
      b.retype (b.threadIds id) type := by
    rw [replies, setType_eq, retype_retype]
    exact retype_congr fun x => mem_threadIds_retype
  refine ⟨(((b.setType id type).1.children id).foldl step (b.setType id type)).2, ?_⟩
  rw [← whole]
  exact if_pos h

theorem keepsOthers_retype_iff (h : type.isPost = true) :
    b.KeepsOthers (b.retype ids type) ↔ b.NamesPosts ids := by
  refine forall_congr' fun t => forall₂_congr fun r hr => ?_
  rw [tier_retype, Table.mem_retype_self_iff hr]
  constructor
  · intro kept hid
    cases post : r.isPost with
    | true => exact .inl rfl
    | false =>
      cases gone : r.isTombstone with
      | true => exact .inr rfl
      | false =>
        have retyped := Row.isPost_retyped h r
        rw [Row.retyped_eq_self_iff.2 (kept post hid gone), post] at retyped
        cases retyped
  · intro named post hid gone
    rcases named hid with h | h
    · rw [post] at h
      cases h
    · rw [gone] at h
      cases h

end Board

namespace Operation

/-- A thread is retyped by its ids, and nothing else changes. This leaves all that is no post as it
was, in both tiers, exactly if posts and tombstones alone have these ids. -/
theorem setThreadType_keepsOthers_iff (s : Site) (n : Node) (id : String) (type : ObjectType)
    (h : type.isPost = true) :
    let n' := (setThreadType id type).perform s n
    n' = { n with board := n.board.retype (n.board.threadIds id) type } ∧
      (n.board.KeepsOthers n'.board ↔ n.board.NamesPosts (n.board.threadIds id)) := by
  intro n'
  have after : n' = { n with board := n.board.retype (n.board.threadIds id) type } := by
    obtain ⟨k, hk⟩ := n.board.setThreadType_eq id h
    show n.commit ((n.board.setThreadType id type).map Prod.swap) = _
    rw [hk]
    rfl
  refine ⟨after, ?_⟩
  rw [after]
  exact Board.keepsOthers_retype_iff h

theorem setThreadType_keepsOthers_iff_of_picture :
    let s : Site := { config := {}, boardFile := "", filesRoot := "" }
    let row (id type : String) : Row := { id, type, published := 1 }
    let n : Node :=
      { board :=
          { authored := .ofList [row "m" "Attachment", row "p" "Note", row "q" "Tombstone"]
            replicas := .ofList [row "q" "Note"]
            edges := .ofList [⟨"q", "p"⟩] } }
    let n' := (setThreadType "p" .archive).perform s n
    ObjectType.archive.isPost = true ∧ n.board.threadIds "p" = ["p", "q"] ∧
      n' = { n with board := n.board.retype ["p", "q"] .archive } ∧
        n.board.KeepsOthers n'.board := by
  intro s row n n'
  have ids : n.board.threadIds "p" = ["p", "q"] := by decide +kernel
  have named : n.board.NamesPosts ["p", "q"] := by
    intro t
    cases t <;> decide
  obtain ⟨after, kept⟩ := setThreadType_keepsOthers_iff s n "p" .archive rfl
  rw [ids] at after kept
  exact ⟨rfl, ids, after, kept.2 named⟩

/-- A picture whose id is given as that of a thread becomes a post. -/
theorem not_keepsOthers_of_named_picture :
    let s : Site := { config := {}, boardFile := "", filesRoot := "" }
    let draft : Object := { actor := "u", attachment := [{ href := "a" }] }
    let n := run s [create .epoch [⟨"aaaaaaaa", rfl, rfl⟩, ⟨"bbbbbbbb", rfl, rfl⟩] draft] {}
    ¬ n.board.KeepsOthers ((setThreadType "u/bbbbbbbb" .archive).perform s n).board := by
  intro s draft n kept
  let picture : Row :=
    { id := "u/bbbbbbbb", type := "Attachment", attributedTo := "u/aaaaaaaa", actor := "u",
      published := 0, updated := some 0, href := "a" }
  have before : picture ∈ n.board.authored.rows := by decide +kernel
  have after : picture ∉
      ((setThreadType "u/bbbbbbbb" .archive).perform s n).board.authored.rows := by decide +kernel
  exact after (kept .authored picture before rfl)

end Operation
end Imageboard
