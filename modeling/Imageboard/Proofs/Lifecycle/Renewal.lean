import Imageboard.Proofs.Lifecycle.Creation
import Imageboard.Proofs.Lifecycle.Replication

namespace Imageboard

namespace Visit

/-- The date of the last of some objects that renews an id. -/
def lastRenewal? (now : Instant) (vs : List Visit) (id : String) : Option Int :=
  ((vs.filter (·.linked.renews id)).getLast?).map fun v => (v.published now).millis

theorem lastRenewal?_append (now : Instant) (vs vs' : List Visit) (id : String) :
    lastRenewal? now (vs ++ vs') id = (lastRenewal? now vs' id).or (lastRenewal? now vs id) := by
  unfold lastRenewal?
  rw [List.filter_append, List.getLast?_append]
  cases (vs'.filter (·.linked.renews id)).getLast? <;> rfl

theorem lastRenewal?_singleton (now : Instant) (v : Visit) (id : String) : lastRenewal? now [v] id =
    if v.linked.renews id then some (v.published now).millis else none := by
  unfold lastRenewal?
  cases h : v.linked.renews id <;> simp [h]

theorem lastRenewal?_cons (now : Instant) (v : Visit) (vs : List Visit) (id : String) :
    lastRenewal? now (v :: vs) id = (lastRenewal? now vs id).or (lastRenewal? now [v] id) :=
  lastRenewal?_append now [v] vs id

end Visit

namespace Row

variable {r : Row} {now : Instant} {v : Visit} {vs : List Visit} {type type' : String}

def renewed (r : Row) (type : String) (now : Instant) (vs : List Visit) : Row :=
  { r with type, updated := (Visit.lastRenewal? now vs r.id).or r.updated }

theorem renewed_renewed :
    (r.renewed type now [v]).renewed type' now vs = r.renewed type' now (v :: vs) := by
  unfold renewed
  rw [Visit.lastRenewal?_cons now v vs, Option.or_assoc]

theorem activity_le_renewed_iff : r.activity ≤ (r.renewed type now vs).activity ↔
    ∀ time, Visit.lastRenewal? now vs r.id = some time → r.activity ≤ time := by
  unfold renewed
  cases h : Visit.lastRenewal? now vs r.id with
  | none => simp [activity]
  | some time => simp [activity]

theorem updated_linked (r : Row) (o : Object) (archived : Bool) (published : Instant) :
    (r.linked o archived published).updated =
      if o.renews r.id then some published.millis else r.updated := by
  have kept : r.inArchive.updated = r.updated := by
    unfold inArchive
    split <;> rfl
  unfold linked after
  split
  · rw [id_inArchive]
    split
    · rfl
    · exact kept
  · split <;> rfl

theorem linked_eq_renewed (r : Row) (v : Visit) (archived : Bool) (now : Instant) :
    ∃ type, r.linked v.linked archived (v.published now) = r.renewed type now [v] := by
  obtain ⟨type, updated, he, -⟩ := r.linked_eq v.linked archived (v.published now)
  have time : updated = (Visit.lastRenewal? now [v] r.id).or r.updated := by
    have linked := r.updated_linked v.linked archived (v.published now)
    rw [he] at linked
    rw [Visit.lastRenewal?_singleton]
    refine linked.trans ?_
    split <;> rfl
  exact ⟨type, by rw [he, time, renewed]⟩

end Row

theorem Object.IsPostOf.lastRenewal?_eq {o draft : Object} {s : Site} {now : Instant}
    (h : o.IsPostOf s now draft) (id : String) :
    Visit.lastRenewal? now [{ object := o }] id =
      Visit.lastRenewal? now [{ object := draft }] id := by
  have renews : o.renews id = draft.renews id := by
    rw [h.body]
    rfl
  have published : o.published.getD now = draft.published.getD now := by
    rw [h.body]
    rfl
  simp only [Visit.lastRenewal?_singleton, Visit.linked_root, Visit.published, renews, published]

namespace Board

variable {b b' : Board} {now : Instant} {vs added : List Visit} {t : Tier} {r : Row}

theorem mem_link_renewed (v : Visit) (now : Instant) (hr : r ∈ (b.tier t).rows) :
    ∃ type, r.renewed type now [v] ∈ ((b.link v.linked (v.published now)).1.tier t).rows := by
  obtain ⟨type, he⟩ := r.linked_eq_renewed v (b.archives v.linked) now
  exact ⟨type, mem_link_iff.2 ⟨r, hr, he⟩⟩

/-- The objects that were added renew the rows of both tiers. -/
theorem Turns.mem_renewed (h : Turns now b vs added b') (hr : r ∈ (b.tier t).rows) :
    ∃ type, r.renewed type now added ∈ (b'.tier t).rows := by
  induction h generalizing r with
  | done b => exact ⟨r.type, hr⟩
  | @add b b' v vs added new rest ih =>
    have inserted : r ∈ (((b.withMedia v.object now).insertReplica (.ofWire v.object .replica now)
        now).1.tier t).rows := mem_insertReplica.2 (.inl (mem_withMedia v.object hr))
    obtain ⟨type, linked⟩ := mem_link_renewed v now inserted
    obtain ⟨type', there⟩ := ih linked
    exact ⟨type', Row.renewed_renewed ▸ there⟩
  | pass old rest ih => exact ih (mem_withMedia _ hr)

end Board

namespace Operation

variable {s : Site} {n : Node} {op : Operation} {now : Instant} {vs : List Visit}

def brings : Operation → Bool
  | create .. | replicate .. => true
  | _ => false

/-- The objects that an operation newly writes into threads, in the order in which they take their
places, and the moment of it: the post if a draft is posted, and of what is replicated all that had
no replica at its turn. -/
inductive Places (s : Site) (n : Node) : Operation → Instant → List Visit → Prop
  | posted {now : Instant} {draws : List IdSuffix} {draft : Object} {made : Object × Board}
    (h : ((s.create now draft n.board).run.run draws).1 = .ok made) :
    Places s n (create now draws draft) now [{ object := draft }]
  | refused {now : Instant} {draws : List IdSuffix} {draft : Object} {f : Fault}
    (h : ((s.create now draft n.board).run.run draws).1 = .error f) :
    Places s n (create now draws draft) now []
  | replicated {now : Instant} {o : Object} {added : List Visit}
    (h : Board.Turns now n.board (Visit.all s.blocks o) added (s.replicate now o n.board).1) :
    Places s n (replicate now o) now added

theorem exists_places (s : Site) (n : Node) (h : op.brings = true) :
    ∃ now vs, op.Places s n now vs := by
  cases op with
  | create now draws draft =>
    cases made : ((s.create now draft n.board).run.run draws).1 with
    | ok x => exact ⟨now, _, .posted made⟩
    | error f => exact ⟨now, _, .refused made⟩
  | replicate now o =>
    obtain ⟨added, turns⟩ := s.replicate_turns now o n.board
    exact ⟨now, added, .replicated turns⟩
  | _ => cases h

theorem Places.mem_renewed (h : op.Places s n now vs) {t : Tier} {r : Row}
    (hr : r ∈ (n.board.tier t).rows) :
    ∃ type, r.renewed type now vs ∈ ((op.perform s n).board.tier t).rows := by
  cases h with
  | @posted _ draws draft made h =>
    have after : ((create now draws draft).perform s n).board = made.2 := by
      rw [perform, h, Node.commit]
    obtain ⟨posted, c, isPost, -, gains, -, -, hb⟩ := Site.create_written (yields_of_run h)
    have written : r ∈ (c.tier t).rows := (gains.mem t r).2 (.inl hr)
    obtain ⟨type, there⟩ := Board.mem_link_renewed { object := posted } now written
    rw [Visit.linked_root, Row.renewed, isPost.lastRenewal?_eq] at there
    rw [after, hb]
    exact ⟨type, there⟩
  | @refused _ draws draft f h =>
    have after : (create now draws draft).perform s n = n := by rw [perform, h, Node.commit]
    rw [after]
    exact ⟨r.type, hr⟩
  | replicated h => exact h.mem_renewed hr

/-- What is on a board when an object is posted or replicated is still there after it, in its tier.
Its last activity is the date of the last of the new objects that renews it, and as before if there
is none; so it is moved back exactly if this date is before the last activity that it had. -/
theorem perform_renews (s : Site) (n : Node) (op : Operation) (h : op.brings = true) :
    ∃ now vs, op.Places s n now vs ∧ ∀ t, ∀ r ∈ (n.board.tier t).rows, ∃ type,
      r.renewed type now vs ∈ ((op.perform s n).board.tier t).rows ∧
        (r.activity ≤ (r.renewed type now vs).activity ↔
          ∀ time, Visit.lastRenewal? now vs r.id = some time → r.activity ≤ time) := by
  obtain ⟨now, vs, places⟩ := exists_places s n h
  refine ⟨now, vs, places, fun t r hr => ?_⟩
  obtain ⟨type, there⟩ := places.mem_renewed hr
  exact ⟨type, there, Row.activity_le_renewed_iff⟩

theorem perform_renews_of_two_replies :
    let s : Site := { config := {}, boardFile := "", filesRoot := "" }
    let reply (id : String) (time : Int) (os : List Object) : Object :=
      { id, inReplyTo := [.reference "p"], published := Instant.ofMillis? time,
        replies := some { orderedItems := os } }
    let row : Row := { id := "p", type := "Note", published := 1, updated := some 6 }
    let n : Node := { board := { authored := .ofList [row] } }
    let op := replicate .epoch (reply "a" 8 [reply "b" 4 []])
    op.brings = true ∧ (∃ now vs, op.Places s n now vs ∧ ∃ type,
      row.renewed type now vs ∈ (op.perform s n).board.authored.rows ∧
        (row.activity ≤ (row.renewed type now vs).activity ↔
          ∀ time, Visit.lastRenewal? now vs "p" = some time → row.activity ≤ time)) ∧
      { row with updated := some 4 } ∈ (op.perform s n).board.authored.rows := by
  intro s reply row n op
  obtain ⟨now, vs, places, rows⟩ := perform_renews s n op rfl
  have here : row ∈ (n.board.tier .authored).rows := List.mem_singleton_self row
  exact ⟨rfl, ⟨now, vs, places, rows .authored row here⟩, by decide +kernel⟩

/-- A reply that says it was written before the post that it answers. -/
theorem not_activity_le_of_backdated_reply :
    let s : Site := { config := {}, boardFile := "", filesRoot := "" }
    let later : Instant := ⟨1, 0, by decide, by decide, by decide, by decide⟩
    let n := run s [create later [⟨"aaaaaaaa", rfl, rfl⟩] { actor := "u" }] {}
    let reply : Object :=
      { actor := "u", inReplyTo := [.reference "u/aaaaaaaa"], published := some .epoch }
    ¬ ∀ r ∈ n.board.authored.rows,
      ∀ r' ∈ ((create later [⟨"bbbbbbbb", rfl, rfl⟩] reply).perform s n).board.authored.rows,
        r'.id = r.id → r.activity ≤ r'.activity := by
  decide +kernel

end Operation
end Imageboard
