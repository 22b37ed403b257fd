import Imageboard.Proofs.Lifecycle.Cascade
import Mathlib.Data.List.Forall2

namespace Imageboard

theorem Row.isTombstone_of_type {r : Row} (h : r.type = ObjectType.tombstone.text) :
    r.isTombstone = true :=
  beq_iff_eq.2 h

/-- What a burial of some ids makes of a row of a table. -/
inductive Table.Burial (t : Table Row) (ids : Set String) (placeholder : String) (time : Int)
    (r : Row) : Row → Prop
  /-- Tombstones stay as they are, and so does what the burial does not reach. -/
  | spared (h : r.isTombstone = true ∨ r.id ∉ t.reach ids) : Burial t ids placeholder time r r
  /-- All else becomes a tombstone of the moment; media that is not itself among the ids shows the
  placeholder. -/
  | buried {r' : Row} (alive : r.isTombstone = false) (reached : r.id ∈ t.reach ids)
      (left : r' = { r with
        type := ObjectType.tombstone.text
        name := ""
        content := ""
        attributedTo := removedAuthor
        deleted := some time
        tripcode := r'.tripcode
        href := r'.href
        mediaType := r'.mediaType
        size := r'.size })
      (shown : r.id ∉ ids → r'.href = placeholder ∧ r'.mediaType = "image/png") :
      Burial t ids placeholder time r r'

namespace Table

variable {t u v : Table Row} {ids ids' : Set String} {placeholder : String} {time : Int}
  {r r' r'' : Row}

/-- How many rows of a table turned into tombstones in another that has them in the same places. -/
def turned (t u : Table Row) : Nat :=
  (t.rows.zip u.rows).countP fun p => !p.1.isTombstone && p.2.isTombstone

namespace Burial

theorem id_eq (h : t.Burial ids placeholder time r r') : r'.id = r.id := by
  cases h with
  | spared => rfl
  | buried _ _ left _ => rw [left]

theorem media_eq (h : t.Burial ids placeholder time r r') : r'.media = r.media := by
  cases h with
  | spared => rfl
  | buried _ _ left _ => rw [left]; rfl

theorem isTombstone (h : t.Burial ids placeholder time r r') (hr : r.isTombstone = true) :
    r'.isTombstone = true := by
  cases h with
  | spared => exact hr
  | buried alive => simp [hr] at alive

theorem trans (h : t.Burial ids placeholder time r r') (h' : u.Burial ids' placeholder time r' r'')
    (hu : u.mediaIds ids' = t.mediaIds ids') :
    t.Burial (ids ∪ ids') placeholder time r r'' := by
  have reach_eq : u.reach ids' = t.reach ids' := congrArg (ids' ∪ ·) hu
  cases h with
  | spared h =>
    cases h' with
    | spared h' =>
      refine .spared ?_
      rw [reach_eq] at h'
      rw [mem_reach_union]
      tauto
    | buried alive reached left shown =>
      refine .buried alive ?_ left fun hid => shown fun hid' => hid (.inr hid')
      exact mem_reach_union.2 (.inr (reach_eq ▸ reached))
  | buried alive reached left shown =>
    -- the second burial meets a tombstone
    have dead : r'.isTombstone = true := Row.isTombstone_of_type (by rw [left])
    cases h' with
    | spared =>
      refine .buried alive (mem_reach_union.2 (.inl reached)) left ?_
      exact fun hid => shown fun hid' => hid (.inl hid')
    | buried alive' => simp [dead] at alive'

end Burial

def Buries (t u : Table Row) (ids : Set String) (placeholder : String) (time : Int) : Prop :=
  List.Forall₂ (t.Burial ids placeholder time) t.rows u.rows

namespace Buries

theorem mediaIds_eq (h : t.Buries u ids placeholder time) (ids' : Set String) :
    u.mediaIds ids' = t.mediaIds ids' := by
  have links : t.rows.map (fun r => (r.id, r.media)) = u.rows.map fun r => (r.id, r.media) := by
    rw [← List.forall₂_eq_eq_eq, List.forall₂_map_left_iff, List.forall₂_map_right_iff]
    exact h.imp fun r r' hr => Prod.ext hr.id_eq.symm hr.media_eq.symm
  have of_links (t : Table Row) (m : String) : m ∈ t.mediaIds ids' ↔
      m ≠ "" ∧ ∃ l ∈ t.rows.map fun r => (r.id, r.media), l.1 ∈ ids' ∧ m ∈ l.2 := by
    simp [mediaIds]
  ext m
  rw [of_links, of_links, links]

theorem trans (h : t.Buries u ids placeholder time) (h' : u.Buries v ids' placeholder time) :
    t.Buries v (ids ∪ ids') placeholder time := by
  have hu := h.mediaIds_eq ids'
  unfold Buries at h h' ⊢
  generalize t.rows = rows at h ⊢
  generalize u.rows = rows' at h h'
  generalize v.rows = rows'' at h' ⊢
  induction h generalizing rows'' with
  | nil =>
    cases h'
    exact .nil
  | cons hr _ ih =>
    cases h' with
    | cons hr' hs' => exact .cons (hr.trans hr' hu) (ih _ hs')

theorem turned_add (h : t.Buries u ids placeholder time) :
    t.turned u + t.count Row.isTombstone = u.count Row.isTombstone := by
  unfold Buries at h
  unfold turned count
  generalize t.rows = rows at h ⊢
  generalize u.rows = rows' at h ⊢
  induction h with
  | nil => rfl
  | @cons r r' rs rs' hr _ ih =>
    rw [List.zip_cons_cons, List.countP_cons, List.countP_cons, List.countP_cons, ← ih]
    have := hr.isTombstone
    cases hd : r.isTombstone <;> cases hd' : r'.isTombstone <;> simp_all <;> omega

end Buries

theorem update_add_tombstones {p : Row → Bool} {f : Row → Row}
    {keeps : ∀ r, Keyed.key (f r) = Keyed.key r} (hp : ∀ r, p r = true → r.isTombstone = false)
    (hf : ∀ r, (f r).isTombstone = true) :
    (t.update p f keeps).2 + t.count Row.isTombstone =
      (t.update p f keeps).1.count Row.isTombstone := by
  unfold update count
  dsimp only
  induction t.rows with
  | nil => rfl
  | cons r rs ih =>
    rw [List.map_cons, List.countP_cons, List.countP_cons, List.countP_cons, ← ih]
    have alive := hp r
    have dead := hf r
    cases h : p r <;> simp_all <;> omega

end Table

namespace Board

variable {b b' b'' : Board} {ids ids' : Set String} {placeholder id : String} {time : Int}
  {k k' : Nat}

def turned (b b' : Board) : Nat :=
  b.authored.turned b'.authored + b.replicas.turned b'.replicas

def tombstones (b : Board) : Nat :=
  b.authored.count Row.isTombstone + b.replicas.count Row.isTombstone

/-- What a burial of some ids changes: the rows that it reaches in each tier, the reports of the
ids, and nothing else. It tells how many rows turned into tombstones. -/
structure Buried (b b' : Board) (ids : Set String) (placeholder : String) (time : Int)
    (rows : Nat) : Prop where
  tiers : ∀ t, (b.tier t).Buries (b'.tier t) ids placeholder time
  reports : ∀ r, r ∈ b'.reports.rows ↔ r ∈ b.reports.rows ∧ r.id ∉ ids
  rest : b' = { b with authored := b'.authored, replicas := b'.replicas, reports := b'.reports }
  rows : rows = b.turned b'

theorem turned_add (h : ∀ t, (b.tier t).Buries (b'.tier t) ids placeholder time) :
    b.turned b' + b.tombstones = b'.tombstones := by
  have authored := (h .authored).turned_add
  have replicas := (h .replica).turned_add
  simp only [tier] at authored replicas
  unfold turned tombstones
  omega

namespace Buried

theorem refl (b : Board) (placeholder : String) (time : Int) : b.Buried b ∅ placeholder time 0 := by
  have tiers (t : Tier) : (b.tier t).Buries (b.tier t) ∅ placeholder time :=
    List.forall₂_same.2 fun r _ => .spared (.inr (by simp))
  refine ⟨tiers, fun r => by simp, rfl, ?_⟩
  have := turned_add tiers
  omega

theorem trans (h : b.Buried b' ids placeholder time k)
    (h' : b'.Buried b'' ids' placeholder time k') :
    b.Buried b'' (ids ∪ ids') placeholder time (k + k') := by
  have tiers (t : Tier) : (b.tier t).Buries (b''.tier t) (ids ∪ ids') placeholder time :=
    (h.tiers t).trans (h'.tiers t)
  refine ⟨tiers, fun r => ?_, ?_, ?_⟩
  · rw [h'.reports, h.reports, Set.mem_union, not_or, and_assoc]
  · rw [h'.rest, h.rest]
  · have first := turned_add h.tiers
    have second := turned_add h'.tiers
    have both := turned_add tiers
    have := h.rows
    have := h'.rows
    omega

theorem allNamed (h : b.Buried b' ids placeholder time k) (hb : b.AllNamed) : b'.AllNamed := by
  intro t r' hr'
  have hids : (b.tier t).rows.map Row.id = (b'.tier t).rows.map Row.id := by
    rw [← List.forall₂_eq_eq_eq, List.forall₂_map_left_iff, List.forall₂_map_right_iff]
    exact (h.tiers t).imp fun r r' hr => hr.id_eq.symm
  obtain ⟨r, hr, he⟩ := List.mem_map.1 (hids ▸ List.mem_map_of_mem hr')
  exact he ▸ hb t r hr

end Buried

theorem buries_bury (hb : b.AllNamed) (placeholder : String) (time : Int) (id : String) (t : Tier) :
    (b.tier t).Buries ((b.bury placeholder time id).1.tier t) {id} placeholder time := by
  unfold Table.Buries
  rw [rows_bury, List.forall₂_map_right_iff, List.forall₂_same]
  intro r hr
  have hmedia := Table.isMediaOf_iff (b.tier t) id (hb t r hr)
  cases hd : r.isTombstone with
  | true =>
    rw [Row.buried_of_tombstone hd]
    exact .spared (.inl hd)
  | false =>
    rw [Row.buried, if_neg (ne_true_of_eq_false hd)]
    by_cases hm : r.id ∈ (b.tier t).mediaIds {id}
    · rw [if_pos (hmedia.2 hm)]
      exact .buried hd (.inr hm) rfl fun _ => ⟨rfl, rfl⟩
    · rw [if_neg (mt hmedia.1 hm)]
      by_cases hid : r.id = id
      · rw [if_pos hid]
        exact .buried hd (.inl hid) rfl fun h => absurd hid h
      · rw [if_neg hid]
        exact .spared (.inr fun h => h.elim hid hm)

theorem eachTier_add_tombstones {f : Table Row → Table Row × Nat}
    (h : ∀ t, (f t).2 + t.count Row.isTombstone = (f t).1.count Row.isTombstone) :
    (b.eachTier f).2 + b.tombstones = (b.eachTier f).1.tombstones := by
  have authored := h b.authored
  have replicas := h b.replicas
  unfold tombstones
  simp only [eachTier]
  omega

theorem bury_add_tombstones (b : Board) (placeholder : String) (time : Int) (id : String) :
    (b.bury placeholder time id).2 + b.tombstones = (b.bury placeholder time id).1.tombstones := by
  have media (b : Board) : (b.buryMedia id placeholder time).2 + b.tombstones =
      (b.buryMedia id placeholder time).1.tombstones :=
    eachTier_add_tombstones fun t =>
      Table.update_add_tombstones (fun r hr => by simp_all) fun r => Row.isTombstone_of_type rfl
  have own (b : Board) : (b.buryRow id time).2 + b.tombstones =
      (b.buryRow id time).1.tombstones :=
    eachTier_add_tombstones fun t =>
      Table.update_add_tombstones (fun r hr => by simp_all) fun r => Row.isTombstone_of_type rfl
  calc (b.bury placeholder time id).2 + b.tombstones
    _ = ((b.removeReports id).1.buryMedia id placeholder time).2 +
        (((b.removeReports id).1.buryMedia id placeholder time).1.buryRow id time).2 +
          (b.removeReports id).1.tombstones := rfl
    _ = (b.bury placeholder time id).1.tombstones := by
      rw [Nat.add_right_comm, media, Nat.add_comm, own]
      rfl

theorem Buried.bury (hb : b.AllNamed) (placeholder : String) (time : Int) (id : String) :
    b.Buried (b.bury placeholder time id).1 {id} placeholder time
      (b.bury placeholder time id).2 where
  tiers := buries_bury hb placeholder time id
  reports r := by
    have hr : r ∈ (b.bury placeholder time id).1.reports.rows ↔
        r ∈ (b.reports.filter fun r => !(r.id == id)).rows := Iff.rfl
    simp [hr]
  rest := rfl
  rows := by
    have counted := bury_add_tombstones b placeholder time id
    have turned := turned_add (buries_bury hb placeholder time id)
    omega

end Board

namespace Site

/-- A cascade of burials buries the ids that it goes through. -/
theorem cascade_buried (s : Site) (now : Instant) {n : Node} (h : n.board.AllNamed)
    (ids : List String) :
    let c := s.cascade (fun b id => b.bury s.config.placeholderHref now.clockMillis id) ids n
    n.board.Buried c.1.board {id | id ∈ ids} s.config.placeholderHref now.clockMillis c.2.rows := by
  refine cascade_induct
    (R := fun done b k => n.board.Buried b done s.config.placeholderHref now.clockMillis k)
    (Board.Buried.refl _ _ _) fun done id b k _ _ hb => ?_
  exact hb.trans (.bury (hb.allNamed h) _ _ id)

/-- A thread that is turned into tombstones is buried with every id below its root, whatever the
edges are, and a single object is buried by itself. -/
theorem tombstoneThread_buried (s : Site) (now : Instant) (id : String) (n : Node)
    (h : n.board.AllNamed) :
    n.board.Buried (s.tombstoneThread now id n).1.board (n.board.below id)
        s.config.placeholderHref now.clockMillis (s.tombstoneThread now id n).2.rows ∧
      n.board.Buried (s.tombstone now id n).1.board {id}
        s.config.placeholderHref now.clockMillis (s.tombstone now id n).2.rows := by
  have thread := cascade_buried s now h (n.board.subtree id).reverse
  have single := cascade_buried s now h [id]
  rw [Board.setOf_mem_subtree] at thread
  rw [setOf_mem_single] at single
  exact ⟨thread, single⟩

theorem tombstoneThread_buried_of_cycle :
    let s : Site := { config := {}, boardFile := "", filesRoot := "" }
    let post (id : String) : Row := { id, type := "Note", published := 1, attachment := "m" }
    let picture : Row := { id := "m", type := "Attachment", published := 1, href := "x" }
    let board : Board :=
      { authored := .ofList [post "p", post "q", picture]
        replicas := .ofList [post "q"]
        edges := .ofList [⟨"q", "p"⟩, ⟨"p", "q"⟩] }
    let n : Node := { board }
    board.AllNamed ∧ "q" ∈ board.below "p" ∧
      board.Buried (s.tombstoneThread .epoch "p" n).1.board (board.below "p")
        s.config.placeholderHref 0 (s.tombstoneThread .epoch "p" n).2.rows ∧
      board.Buried (s.tombstone .epoch "p" n).1.board {"p"}
        s.config.placeholderHref 0 (s.tombstone .epoch "p" n).2.rows := by
  intro s post picture board n
  have h : board.AllNamed := by
    intro t
    cases t <;> decide
  exact ⟨h, .single (by decide), tombstoneThread_buried s .epoch "p" n h⟩

end Site
end Imageboard
