import Imageboard.Proofs.Board.Thread
import Imageboard.Proofs.Operation

namespace Imageboard

theorem nonEmpty?_isSome (s : String) : (nonEmpty? s).isSome = (s != "") := by
  unfold nonEmpty?
  split
  next h => simp [h]
  next h => simp [h]

namespace Board

variable {b : Board} {parent : String} {x : Tier × Row} {r : Row} {id : String}

/-- A listed reply has no attachment, but a copy of it has one, which the list does not show. -/
def hidesAttachment (b : Board) (e : Entry) : Bool :=
  e.tier == .authored && e.attachment.isNone &&
    b.replicas.rows.any fun r => r.id == e.id && r.isPost && r.attachment != ""

theorem any_attachment_of_mem {t : Table Row} {p : Row → Bool} (hr : r ∈ t.rows) (hp : p r = true) :
    (t.rows.any fun q => q.id == r.id && p q && q.attachment != "") = (r.attachment != "") := by
  rw [Bool.eq_iff_iff, List.any_eq_true]
  constructor
  · rintro ⟨q, hq, h⟩
    simp only [Bool.and_eq_true, beq_iff_eq] at h
    obtain rfl : q = r := Table.eq_of_key hq hr (congrArg (fun id => [id]) h.1.1)
    exact h.2
  · intro h
    exact ⟨r, hr, by simp only [hp, h, beq_self_eq_true, Bool.and_self]⟩

theorem counted_eq (hx : x ∈ b.select fun r => r.isPost && b.isChild parent r.id) :
    let withMedia (t : Table Row) : Bool := t.rows.any fun r =>
      r.id == x.2.id && (r.isPost && b.isChild parent r.id) && r.attachment != ""
    (withMedia b.authored || withMedia b.replicas) =
      ((x.2.entry x.1).attachment.isSome || b.hidesAttachment (x.2.entry x.1)) := by
  intro withMedia
  obtain ⟨hr, chosen, alone⟩ := mem_select.1 hx
  obtain ⟨t, r⟩ := x
  have own : withMedia (b.tier t) = (r.attachment != "") := any_attachment_of_mem hr chosen
  have shown : (r.entry t).attachment.isSome = (r.attachment != "") := nonEmpty?_isSome _
  cases t with
  | authored =>
    -- the replica of an id that answers is a reply if it is a post
    have other : withMedia b.replicas =
        b.replicas.rows.any fun q => q.id == r.id && q.isPost && q.attachment != "" := by
      have answers : b.isChild parent r.id = true := (Bool.and_eq_true_iff.1 chosen).2
      have same (q : Row) :
          (q.id == r.id && (q.isPost && b.isChild parent q.id) && q.attachment != "") =
            (q.id == r.id && q.isPost && q.attachment != "") := by
        by_cases hid : q.id = r.id
        · rw [hid, answers, Bool.and_true]
        · rw [beq_false_of_ne hid, Bool.false_and, Bool.false_and, Bool.false_and, Bool.false_and]
      simp only [withMedia, same]
    have hidden : b.hidesAttachment (r.entry .authored) =
        ((r.entry .authored).attachment.isNone && withMedia b.replicas) := by
      rw [other]
      rfl
    have here : withMedia b.authored = (r.attachment != "") := own
    rw [hidden, here, ← shown]
    cases (r.entry .authored).attachment <;> rfl
  | replica =>
    have none : withMedia b.authored = false := by
      rw [List.any_eq_false]
      intro o ho h
      simp only [Bool.and_eq_true, beq_iff_eq] at h
      exact alone rfl o ho (Bool.and_eq_true_iff.2 h.1.2) h.1.1
    have hidden : b.hidesAttachment (r.entry .replica) = false := rfl
    have there : withMedia b.replicas = (r.attachment != "") := own
    rw [none, there, hidden, shown, Bool.false_or, Bool.or_false]

theorem replyCounts_snd (b : Board) (parent : String) :
    (b.replyCounts parent).2 =
      (b.children parent).countP fun e => e.attachment.isSome || b.hidesAttachment e := by
  unfold replyCounts children posts
  dsimp only
  rw [List.countP_map, List.countP_map, (List.mergeSort_perm _ _).countP_eq]
  exact List.countP_congr fun x hx => by
    rw [Function.comp_apply, Function.comp_apply, ← counted_eq hx]

theorem countP_shown_or_hidden (b : Board) (es : List Entry) :
    (es.countP fun e => e.attachment.isSome || b.hidesAttachment e) =
      (es.countP fun e => e.attachment.isSome) + es.countP b.hidesAttachment := by
  induction es with
  | nil => rfl
  | cons e es ih =>
    have apart : e.attachment.isSome = true → b.hidesAttachment e = false := by
      intro h
      rw [hidesAttachment, Option.isNone_eq_false_iff.2 h, Bool.and_false, Bool.false_and]
    rw [List.countP_cons, List.countP_cons, List.countP_cons, ih]
    cases shown : e.attachment.isSome with
    | true => simp [apart shown]; omega
    | false => simp; omega

/-- The counts are those of the list, but that each reply whose listed copy hides an attachment
counts as one with an attachment. So they agree exactly if no reply hides one. -/
theorem replyCounts_agree_iff (b : Board) (parent : String) :
    let listed := b.children parent
    let shown := listed.countP fun e => e.attachment.isSome
    b.replyCounts parent = (listed.length, shown + listed.countP b.hidesAttachment) ∧
      (b.replyCounts parent = (listed.length, shown) ↔
        ∀ e ∈ listed, b.hidesAttachment e = false) := by
  intro listed shown
  have withMedia : (b.replyCounts parent).2 = shown + listed.countP b.hidesAttachment := by
    rw [replyCounts_snd, countP_shown_or_hidden]
  have counts : b.replyCounts parent = (listed.length, shown + listed.countP b.hidesAttachment) :=
    Prod.ext (b.replyCounts_fst parent) withMedia
  refine ⟨counts, ?_⟩
  rw [counts, Prod.mk.injEq, Nat.add_eq_left, List.countP_eq_zero]
  simp

end Board

namespace Operation

/-- A reply made here without an attachment, and an object with one that someone else sends under
its id. -/
theorem not_replyCounts_agree_of_squatted_id :
    let s : Site := { config := {}, boardFile := "", filesRoot := "" }
    let root := "u/aaaaaaaa"
    let reply : Object := { actor := "u", inReplyTo := [.reference root] }
    let squats : Object := { id := "u/bbbbbbbb", actor := "v", attachment := [{ id := "v/m" }] }
    let n := run s [create .epoch [⟨"aaaaaaaa", rfl, rfl⟩] { actor := "u" },
      create .epoch [⟨"bbbbbbbb", rfl, rfl⟩] reply, replicate .epoch squats] {}
    let listed := n.board.children root
    n.board.replyCounts root ≠ (listed.length, listed.countP fun e => e.attachment.isSome) := by
  decide +kernel

end Operation
end Imageboard
