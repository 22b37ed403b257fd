import Imageboard.Proofs.Lifecycle.BareTombstones
import Imageboard.Proofs.Lifecycle.Burial
import Imageboard.Proofs.Lifecycle.Contents
import Imageboard.Proofs.Lifecycle.Respelling

namespace Imageboard

theorem Visit.ids_entries (v : Visit) (now now' : Instant) :
    (v.entries now).map Entry.id = (v.entries now').map Entry.id := by
  have media : (Board.mediaEntries v.object now).map Entry.id =
      (Board.mediaEntries v.object now').map Entry.id := by
    unfold Board.mediaEntries
    split
    · rfl
    · split
      · rfl
      · simp only [List.map_append, List.map_map, List.map_cons, List.map_nil]
        rfl
  simp only [entries, List.map_append, media]
  rfl

namespace Board

variable {b b' : Board} {now : Instant} {v : Visit} {vs added : List Visit}

/-- All that is written for an object has a replica, whenever it is written. -/
def MirrorsAll (b : Board) (v : Visit) : Prop :=
  ∀ now, ∀ e ∈ v.entries now, b.Mirrors e.id

theorem Turns.mirrorsAll (h : Turns now b vs added b') (hv : v ∈ vs) : b'.MirrorsAll v := by
  intro now' e he
  obtain ⟨d, hd, hid⟩ : ∃ d ∈ v.entries now, d.id = e.id :=
    List.mem_map.1 (v.ids_entries now now' ▸ List.mem_map_of_mem he)
  rw [← h.keepsReplicas.mirrors_iff, mirrors_insertAll]
  exact .inr ⟨d, List.mem_flatMap.2 ⟨v, hv, hd⟩, hid.symm⟩

theorem MirrorsAll.withMedia (h : b.MirrorsAll v) (now : Instant) : b.withMedia v.object now = b :=
  insertAll_of_mirrors fun e he => h now e (List.mem_append_left _ he)

theorem MirrorsAll.mirrors (h : b.MirrorsAll v) : b.Mirrors v.object.id :=
  h .epoch (.ofWire v.object .replica .epoch) (List.mem_append_right _ (List.mem_singleton_self _))

theorem Turns.eq_of_mirrorsAll (h : Turns now b vs added b') (all : ∀ v ∈ vs, b.MirrorsAll v) :
    added = [] ∧ b' = b := by
  induction h with
  | done b => exact ⟨rfl, rfl⟩
  | add new _ _ =>
    obtain ⟨first, -⟩ := List.forall_mem_cons.1 all
    rw [first.withMedia] at new
    exact absurd first.mirrors new
  | pass _ _ ih =>
    obtain ⟨first, rest⟩ := List.forall_mem_cons.1 all
    rw [first.withMedia] at ih
    exact ih rest

end Board

/-- A replication of what was just replicated changes nothing, at whatever time; it is blocked if
the first was, and otherwise finds all in place. -/
theorem Site.replicate_again (s : Site) (now now' : Instant) (o : Object) (b : Board) :
    s.replicate now' o (s.replicate now o b).1 =
      ((s.replicate now o b).1,
        if (s.replicate now o b).2 = .blocked then .blocked else .alreadyThere) := by
  obtain ⟨blocked, first⟩ := s.replicate_visits now o b
  by_cases h : s.blocks o.content = true
  · have again : s.replicate now' o b = (b, .blocked) := (s.replicate_visits now' o b).1.2 h
    rw [blocked.2 h, again, if_pos rfl]
  · obtain ⟨added, turns, result, -⟩ := first.resolve_left h
    obtain ⟨added', turns', result', -⟩ :=
      (s.replicate_visits now' o (s.replicate now o b).1).2.resolve_left h
    obtain ⟨rfl, same⟩ := turns'.eq_of_mirrorsAll fun v hv => turns.mirrorsAll hv
    have admitted : (s.replicate now o b).2 ≠ .blocked := by
      rw [result]
      split <;> nofun
    rw [if_neg admitted]
    exact Prod.ext same result'

namespace Board

variable {b : Board} {id x placeholder : String} {time : Int}

/-- Nothing is left to bury of an id: nobody complains about it, and it and its media are
tombstones. -/
structure Rests (b : Board) (id : String) : Prop where
  quiet : ∀ r ∈ b.reports.rows, r.id ≠ id
  dead : ∀ t, ∀ r ∈ (b.tier t).rows, r.id = id ∨ isMediaOf (b.tier t) id r = true →
    r.isTombstone = true

theorem mem_reports_bury {r : Report} :
    r ∈ (b.bury placeholder time id).1.reports.rows ↔ r ∈ b.reports.rows ∧ r.id ≠ id := by
  have left : r ∈ (b.bury placeholder time id).1.reports.rows ↔
      r ∈ (b.reports.filter fun r => !(r.id == id)).rows := Iff.rfl
  simp [left]

theorem rests_bury (b : Board) (placeholder : String) (time : Int) (id : String) :
    (b.bury placeholder time id).1.Rests id where
  quiet r hr := (mem_reports_bury.1 hr).2
  dead t r hr reached := by
    by_contra living
    obtain ⟨-, other, unlinked⟩ := (mem_bury_of_alive (Bool.eq_false_iff.2 living)).1 hr
    rw [isMediaOf_bury, unlinked] at reached
    exact reached.elim other Bool.false_ne_true

theorem Rests.bury (h : b.Rests id) (placeholder : String) (time : Int) (x : String) :
    (b.bury placeholder time x).1.Rests id where
  quiet r hr := h.quiet r (mem_reports_bury.1 hr).1
  dead t r hr reached := by
    by_contra living
    obtain ⟨hr, -, -⟩ := (mem_bury_of_alive (Bool.eq_false_iff.2 living)).1 hr
    rw [isMediaOf_bury] at reached
    exact living (h.dead t r hr reached)

theorem Rests.rows_bury (h : b.Rests id) (placeholder : String) (time : Int) (t : Tier) :
    ((b.bury placeholder time id).1.tier t).rows = (b.tier t).rows := by
  rw [Board.rows_bury]
  refine (List.map_congr_left fun r hr => ?_).trans (List.map_id _)
  rcases r.buried_cases (isMediaOf (b.tier t) id r) id placeholder time with
    ⟨same, -⟩ | ⟨living, -, ⟨media, -⟩ | ⟨-, own, -⟩⟩
  · exact same
  · exact absurd (h.dead t r hr (.inr media)) (ne_true_of_eq_false living)
  · exact absurd (h.dead t r hr (.inl own)) (ne_true_of_eq_false living)

theorem Rests.bury_eq (h : b.Rests id) (placeholder : String) (time : Int) :
    b.bury placeholder time id = (b, 0) := by
  let c := (b.bury placeholder time id).1
  have reports : c.reports = b.reports :=
    Table.eq_of_mem_iff fun r => mem_reports_bury.trans (and_iff_left_of_imp (h.quiet r))
  have authored : c.authored = b.authored := Table.ext (h.rows_bury placeholder time .authored)
  have replicas : c.replicas = b.replicas := Table.ext (h.rows_bury placeholder time .replica)
  have board : c = b := by
    have rest : c = { b with
        authored := c.authored, replicas := c.replicas, reports := c.reports } := rfl
    rw [rest, authored, replicas, reports]
  have counted := b.bury_add_tombstones placeholder time id
  rw [show (b.bury placeholder time id).1 = b from board] at counted
  exact Prod.ext board (Nat.add_eq_right.1 counted)

theorem isMediaOf_buried (t : Table Row) (x : String) (r : Row) (media : Bool)
    (id placeholder : String)
    (time : Int) : isMediaOf t x (r.buried media id placeholder time) = isMediaOf t x r := by
  unfold isMediaOf
  rw [Row.id_buried]

theorem edges_buryAll (b : Board) (placeholder : String) (time : Int) (ids : List String) :
    (b.buryAll placeholder time ids).edges = b.edges :=
  List.foldlRecOn (motive := fun c : Board => c.edges = b.edges) _ _ rfl fun _ h _ _ => h

end Board

namespace Site

variable {s : Site} {b : Board} {id path : String} {time time' : Int} {ids ids' : List String}
  {n : Node} {c : Cascade}

def burial (s : Site) (time : Int) (b : Board) (id : String) : Board × Nat :=
  b.bury s.config.placeholderHref time id

theorem mem_mediaFiles : path ∈ s.mediaFiles b id ↔ ∃ t, ∃ r ∈ (b.tier t).rows,
    Board.isMediaOf (b.tier t) id r = true ∧ (r.entry t).href?.bind s.fileOf? = some path := by
  unfold mediaFiles Board.mediaOf
  rw [List.mem_filterMap]
  constructor
  · rintro ⟨e, he, hpath⟩
    rcases List.mem_append.1 he with he | he
    · obtain ⟨r, hr, rfl⟩ := List.mem_map.1 he
      obtain ⟨hr, media⟩ := List.mem_filter.1 hr
      exact ⟨.authored, r, hr, media, hpath⟩
    · obtain ⟨r, hr, rfl⟩ := List.mem_map.1 he
      obtain ⟨hr, media⟩ := List.mem_filter.1 hr
      exact ⟨.replica, r, hr, media, hpath⟩
  · rintro ⟨t, r, hr, media, hpath⟩
    refine ⟨r.entry t, ?_, hpath⟩
    cases t with
    | authored =>
      exact List.mem_append_left _ (List.mem_map_of_mem (List.mem_filter.2 ⟨hr, media⟩))
    | replica =>
      exact List.mem_append_right _ (List.mem_map_of_mem (List.mem_filter.2 ⟨hr, media⟩))

theorem mediaFiles_bury_self (h : path ∈ s.mediaFiles (s.burial time b id).1 id) :
    path ∈ s.mediaFiles b id := by
  obtain ⟨t, r, hr, media, hpath⟩ := mem_mediaFiles.1 h
  obtain ⟨q, hq, rfl⟩ := Board.mem_bury.1 hr
  have linked : Board.isMediaOf (b.tier t) id q = true := by
    rwa [burial, Board.isMediaOf_bury, Board.isMediaOf_buried] at media
  rcases q.buried_cases (Board.isMediaOf (b.tier t) id q) id s.config.placeholderHref time with
    ⟨same, -⟩ | ⟨-, -, ⟨-, shown⟩ | ⟨unlinked, -⟩⟩
  · rw [same] at hpath
    exact mem_mediaFiles.2 ⟨t, q, hq, linked, hpath⟩
  · obtain ⟨href, hhref, hfile⟩ := Option.bind_eq_some_iff.1 hpath
    rw [← Row.href_of_entry _ hhref, shown, fileOf?_placeholderHref] at hfile
    cases hfile
  · rw [linked] at unlinked
    cases unlinked

theorem mediaFiles_bury_of_rests (rests : b.Rests id) {x : String}
    (h : path ∈ s.mediaFiles (s.burial time b x).1 id) : path ∈ s.mediaFiles b id := by
  obtain ⟨t, r, hr, media, hpath⟩ := mem_mediaFiles.1 h
  obtain ⟨q, hq, rfl⟩ := Board.mem_bury.1 hr
  rw [burial, Board.isMediaOf_bury, Board.isMediaOf_buried] at media
  rw [Row.buried_of_tombstone (rests.dead t q hq (.inr media))] at hpath
  exact mem_mediaFiles.2 ⟨t, q, hq, media, hpath⟩

namespace Cascade

/-- A cascade is done with an id: nothing is left of it to bury, and the files that its media still
leads to are taken down. -/
structure DoneWith (s : Site) (c : Cascade) (id : String) : Prop where
  rests : c.board.Rests id
  files : s.mediaFiles c.board id ⊆ c.files

theorem doneWith_step (s : Site) (time : Int) (c : Cascade) (id : String) :
    (s.cascadeStep (s.burial time) c id).DoneWith s id where
  rests := c.board.rests_bury s.config.placeholderHref time id
  files _ h := List.mem_append_right _ (mediaFiles_bury_self h)

theorem DoneWith.step (h : c.DoneWith s id) (time : Int) (x : String) :
    (s.cascadeStep (s.burial time) c x).DoneWith s id where
  rests := h.rests.bury s.config.placeholderHref time x
  files _ hpath := List.mem_append_left _ (h.files (mediaFiles_bury_of_rests h.rests hpath))

theorem DoneWith.foldl (h : c.DoneWith s id) (time : Int) (ids : List String) :
    (ids.foldl (s.cascadeStep (s.burial time)) c).DoneWith s id :=
  List.foldlRecOn (motive := fun c => DoneWith s c id) ids _ h fun _ h x _ => h.step time x

/-- A cascade of burials is done with all its ids. -/
theorem doneWith_foldl (h : id ∈ ids) (time : Int) (c : Cascade) :
    (ids.foldl (s.cascadeStep (s.burial time)) c).DoneWith s id := by
  induction ids generalizing c with
  | nil => cases h
  | cons x ids ih =>
    rw [List.foldl_cons]
    rcases List.mem_cons.1 h with rfl | h
    · exact (doneWith_step s time c id).foldl time ids
    · exact ih h _

theorem foldl_of_rests (s : Site) (time : Int) (c : Cascade) (h : ∀ id ∈ ids, c.board.Rests id) :
    ids.foldl (s.cascadeStep (s.burial time)) c =
      { c with files := c.files ++ ids.flatMap (s.mediaFiles c.board) } := by
  induction ids generalizing c with
  | nil => simp
  | cons id ids ih =>
    obtain ⟨first, rest⟩ := List.forall_mem_cons.1 h
    let c' : Cascade := { c with files := c.files ++ s.mediaFiles c.board id }
    have step : s.cascadeStep (s.burial time) c id = c' := by
      unfold cascadeStep burial
      rw [first.bury_eq]
      rfl
    rw [List.foldl_cons, step, ih c' rest, List.flatMap_cons, ← List.append_assoc]

end Cascade

/-- Of ids that a cascade has buried, another cascade buries nothing, and it removes no file. -/
theorem cascade_again (h : ids' ⊆ ids) :
    s.cascade (s.burial time') ids' (s.cascade (s.burial time) ids n).1 =
      ((s.cascade (s.burial time) ids n).1, ⟨0, 0⟩) := by
  let c := ids.foldl (s.cascadeStep (s.burial time)) { board := n.board }
  have done (id : String) (hid : id ∈ ids') : c.DoneWith s id :=
    Cascade.doneWith_foldl (h hid) time _
  have second : ids'.foldl (s.cascadeStep (s.burial time')) { board := c.board } =
      { board := c.board, files := [] ++ ids'.flatMap (s.mediaFiles c.board) } :=
    Cascade.foldl_of_rests s time' { board := c.board } fun id hid => (done id hid).rests
  have known : [] ++ ids'.flatMap (s.mediaFiles c.board) ⊆ c.files := by
    intro path hpath
    obtain ⟨id, hid, hpath⟩ := List.mem_flatMap.1 hpath
    exact (done id hid).files hpath
  have left : (s.cascade (s.burial time) ids n).1 =
      { board := c.board, files := (n.files.removeAll c.files).1 } := rfl
  rw [left, cascade, second]
  dsimp only
  rw [Files.removeAll_removeAll known]

/-- A burial that is done again right after it was done, at whatever time, turns no row and removes
no file, and leaves all tables and files as they were; so does one of a whole thread, on any edges.
-/
theorem tombstone_again (s : Site) (now now' : Instant) (id : String) (n : Node) :
    s.tombstone now' id (s.tombstone now id n).1 = ((s.tombstone now id n).1, ⟨0, 0⟩) ∧
      s.tombstoneThread now' id (s.tombstoneThread now id n).1 =
        ((s.tombstoneThread now id n).1, ⟨0, 0⟩) := by
  refine ⟨cascade_again (List.Subset.refl _), cascade_again fun x hx => ?_⟩
  -- the edges are those of before, and so is what lies below the id
  have edges : (s.tombstoneThread now id n).1.board.edges = n.board.edges :=
    (congrArg Board.edges (s.board_cascade_bury ..)).trans (Board.edges_buryAll ..)
  have below : (s.tombstoneThread now id n).1.board.below id = n.board.below id := by
    unfold Board.below Board.Answers
    rw [edges]
  rw [List.mem_reverse, Board.mem_subtree_iff] at hx ⊢
  exact below ▸ hx

end Site
end Imageboard
