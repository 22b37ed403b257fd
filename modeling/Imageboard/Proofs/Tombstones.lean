import Imageboard.Proofs.Board.Tiers
import Imageboard.Proofs.Operation

namespace Imageboard

/-- What is left of a row when it is a tombstone already. -/
structure Row.Remains (r r' : Row) : Prop where
  tombstone : r'.isTombstone = true
  id : r'.id = r.id
  actor : r'.actor = r.actor
  published : r'.published = r.published
  attachment : r'.attachment = r.attachment
  deleted : r'.deleted = r.deleted
  href : r'.href = r.href
  mediaType : r'.mediaType = r.mediaType

namespace Row

variable {r r' r'' : Row}

theorem Remains.refl (h : r.isTombstone = true) : r.Remains r :=
  ⟨h, rfl, rfl, rfl, rfl, rfl, rfl, rfl⟩

theorem Remains.trans (h : r.Remains r') (h' : r'.Remains r'') : r.Remains r'' where
  tombstone := h'.tombstone
  id := h'.id.trans h.id
  actor := h'.actor.trans h.actor
  published := h'.published.trans h.published
  attachment := h'.attachment.trans h.attachment
  deleted := h'.deleted.trans h.deleted
  href := h'.href.trans h.href
  mediaType := h'.mediaType.trans h.mediaType

end Row

def Table.KeepsTombstones (t u : Table Row) : Prop :=
  ∀ r ∈ t.rows, r.isTombstone = true → ∃ r' ∈ u.rows, r.Remains r'

namespace Table

variable {t u v : Table Row}

theorem KeepsTombstones.trans (h : t.KeepsTombstones u) (h' : u.KeepsTombstones v) :
    t.KeepsTombstones v := by
  intro r hr hd
  obtain ⟨r', hr', hk⟩ := h r hr hd
  obtain ⟨r'', hr'', hk'⟩ := h' r' hr' hk.tombstone
  exact ⟨r'', hr'', hk.trans hk'⟩

theorem KeepsTombstones.refl (t : Table Row) : t.KeepsTombstones t :=
  fun r hr dead => ⟨r, hr, .refl dead⟩

end Table

/-- The tombstones of each tier of a board are still in that tier of another. -/
def Board.KeepsTombstones (b b' : Board) : Prop :=
  ∀ t, (b.tier t).KeepsTombstones (b'.tier t)

namespace Board

variable {b b' b'' : Board}

theorem KeepsTombstones.refl (b : Board) : b.KeepsTombstones b :=
  fun t => .refl (b.tier t)

theorem KeepsTombstones.trans (h : b.KeepsTombstones b') (h' : b'.KeepsTombstones b'') :
    b.KeepsTombstones b'' :=
  fun t => (h t).trans (h' t)

theorem change_of_tombstone {w : Write} {t : Tier} {r : Row} (h : ¬ w.Erases)
    (dead : r.isTombstone = true) : ∃ r', w.change b t r = some r' ∧ r.Remains r' := by
  have either (p : Bool) {r' : Row} (h : r.Remains r') : r.Remains (if p then r' else r) := by
    cases p
    · exact .refl dead
    · exact h
  cases w with
  | retype id type => exact ⟨r, by simp [Write.change, dead], .refl dead⟩
  | setPreview | setSensitive | touch =>
    exact ⟨_, rfl, either _ ⟨dead, rfl, rfl, rfl, rfl, rfl, rfl, rfl⟩⟩
  | bury placeholder time id => exact ⟨r, congrArg some (Row.buried_of_tombstone dead), .refl dead⟩
  | erase => exact absurd trivial h
  | _ => exact ⟨r, rfl, .refl dead⟩

theorem KeepsTombstones.apply (w : Write) (b : Board) (h : ¬ w.Erases) :
    b.KeepsTombstones (w.apply b) := by
  intro t r hr dead
  obtain ⟨r', changed, remains⟩ := change_of_tombstone (b := b) (t := t) h dead
  exact ⟨r', Write.mem_apply.2 (.inl ⟨r, hr, changed⟩), remains⟩

theorem Reaches.keepsTombstones {P : Write → Prop} (h : b.Reaches P b')
    (hP : ∀ w, P w → ¬ w.Erases) : b.KeepsTombstones b' :=
  h.related .refl (fun _ _ _ => .trans) fun w b hw => .apply w b (hP w hw)

end Board

namespace Operation

def erases : Operation → Bool
  | delete .. | deleteThread .. | deleteAll .. => true
  | _ => false

theorem not_erases_of_allows {s : Site} {op : Operation} {w : Write} (h : op.erases = false)
    (hw : op.Allows s w) : ¬ w.Erases := by
  cases w with
  | erase id => cases op <;> simp_all [erases, Allows, Write.Posts, Write.Replicates, Write.Links,
      Write.Receives, Write.Buries]
  | _ => exact id

/-- Tombstones are final: after any operations but deletions each is in its tier as before. -/
theorem run_keepsTombstones (s : Site) (ops : List Operation) (n : Node)
    (h : ∀ op ∈ ops, op.erases = false) : n.board.KeepsTombstones (run s ops n).board := by
  have writes : n.board.Reaches (fun w => ¬ w.Erases) (run s ops n).board :=
    run_reaches s ops (fun op hop _ hw => not_erases_of_allows (h op hop) hw) n
  exact writes.keepsTombstones fun _ hw => hw

theorem run_keepsTombstones_of_attachment :
    let s : Site := { config := {}, boardFile := "", filesRoot := "" }
    let media : Row := { id := "m", type := "Tombstone", published := 1, deleted := some 2 }
    let post : Row := { id := "p", type := "Note", published := 1, attachment := "m" }
    let n : Node := { board := { authored := .ofList [media, post] } }
    let ops := [tombstone .epoch "p", setThreadType "m" .archive, report "m" "spam"]
    (media ∈ (n.board.tier .authored).rows ∧ media.isTombstone = true) ∧
      (∀ op ∈ ops, op.erases = false) ∧ n.board.KeepsTombstones (run s ops n).board := by
  intro s media post n ops
  have h : ∀ op ∈ ops, op.erases = false := by simp [ops, erases]
  exact ⟨by decide, h, run_keepsTombstones s ops n h⟩

end Operation
end Imageboard
