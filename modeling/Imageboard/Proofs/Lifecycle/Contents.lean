import Imageboard.Proofs.Board.Linking
import Imageboard.Proofs.Lifecycle.Replication

namespace Imageboard

/-- The content that the row of an entry has: that of a post, and nothing for all else. -/
def Entry.content (e : Entry) : String :=
  match e.payload with
  | .post _ _ content .. => content
  | .media .. | .tombstone .. => ""

theorem Entry.content_ofWire (o : Object) (tier : Tier) (now : Instant) :
    (ofWire o tier now).content = o.content ∨ (ofWire o tier now).content = "" := by
  unfold content ofWire
  dsimp only
  cases o.type.getD .note with
  | note | archive => exact .inl rfl
  | tombstone | preview | attachment | other => exact .inr rfl

theorem Entry.content_of_not_post {e : Entry} (h : e.isPost = false) : e.content = "" := by
  unfold isPost at h
  unfold content
  split
  next he => simp [he] at h
  next => rfl
  next => rfl

namespace Row

@[simp] theorem content_ofEntry (e : Entry) (now : Instant) :
    (ofEntry e now).content = e.content := by
  unfold ofEntry Entry.content
  cases e.payload <;> rfl

theorem isPost_ofEntry {e : Entry} (h : e.isPost = true) (now : Instant) :
    (ofEntry e now).isPost = true := by
  obtain ⟨tier, id, actor, published, updated, attachment, preview, sensitive, payload⟩ := e
  cases payload with
  | post archived => cases archived <;> rfl
  | media | tombstone => exact absurd h Bool.false_ne_true

/-- A row says under its id what another said, and is a post if that one was. -/
structure Keeps (r r' : Row) : Prop where
  id : r'.id = r.id
  content : r'.content = r.content
  isPost : r.isPost = true → r'.isPost = true

variable {r r' r'' : Row}

theorem Keeps.refl (r : Row) : r.Keeps r :=
  ⟨rfl, rfl, fun h => h⟩

theorem Keeps.trans (h : r.Keeps r') (h' : r'.Keeps r'') : r.Keeps r'' :=
  ⟨h'.id.trans h.id, h'.content.trans h.content, fun hp => h'.isPost (h.isPost hp)⟩

theorem keeps_linked (r : Row) (o : Object) (archived : Bool) (published : Instant) :
    r.Keeps (r.linked o archived published) := by
  obtain ⟨type, updated, he, htype⟩ := r.linked_eq o archived published
  rw [he]
  refine ⟨rfl, rfl, fun hp => ?_⟩
  rcases htype with rfl | rfl
  · exact hp
  · rfl

end Row

namespace Board

variable {b b' b'' : Board} {r : Row} {e : Entry} {es : List Entry} {now : Instant} {id : String}

/-- The replicas of one board are kept on another, and it has no others. -/
structure KeepsReplicas (b b' : Board) : Prop where
  kept : ∀ r ∈ b.replicas.rows, ∃ r' ∈ b'.replicas.rows, r.Keeps r'
  noOthers : ∀ r' ∈ b'.replicas.rows, ∃ r ∈ b.replicas.rows, r.Keeps r'

namespace KeepsReplicas

theorem refl (b : Board) : b.KeepsReplicas b :=
  ⟨fun r hr => ⟨r, hr, .refl r⟩, fun r hr => ⟨r, hr, .refl r⟩⟩

theorem trans (h : b.KeepsReplicas b') (h' : b'.KeepsReplicas b'') : b.KeepsReplicas b'' where
  kept r hr := by
    obtain ⟨r', hr', hk⟩ := h.kept r hr
    obtain ⟨r'', hr'', hk'⟩ := h'.kept r' hr'
    exact ⟨r'', hr'', hk.trans hk'⟩
  noOthers r'' hr'' := by
    obtain ⟨r', hr', hk'⟩ := h'.noOthers r'' hr''
    obtain ⟨r, hr, hk⟩ := h.noOthers r' hr'
    exact ⟨r, hr, hk.trans hk'⟩

theorem mirrors_iff (h : b.KeepsReplicas b') : b.Mirrors id ↔ b'.Mirrors id := by
  constructor
  · rintro ⟨r, hr, rfl⟩
    obtain ⟨r', hr', hk⟩ := h.kept r hr
    exact ⟨r', hr', hk.id⟩
  · rintro ⟨r', hr', rfl⟩
    obtain ⟨r, hr, hk⟩ := h.noOthers r' hr'
    exact ⟨r, hr, hk.id.symm⟩

theorem link (b : Board) (o : Object) (published : Instant) :
    b.KeepsReplicas (b.link o published).1 where
  kept r hr := ⟨_, (mem_link_iff (t := .replica)).2 ⟨r, hr, rfl⟩, r.keeps_linked ..⟩
  noOthers r' hr' := by
    obtain ⟨r, hr, rfl⟩ := (mem_link_iff (t := .replica)).1 hr'
    exact ⟨r, hr, r.keeps_linked ..⟩

end KeepsReplicas

def insertAll (b : Board) (es : List Entry) (now : Instant) : Board :=
  es.foldl (fun b e => (b.insertReplica e now).1) b

theorem insertAll_cons (b : Board) (e : Entry) (es : List Entry) (now : Instant) :
    b.insertAll (e :: es) now = (b.insertReplica e now).1.insertAll es now :=
  rfl

theorem insertAll_append (b : Board) (es es' : List Entry) (now : Instant) :
    b.insertAll (es ++ es') now = (b.insertAll es now).insertAll es' now :=
  List.foldl_append

theorem mem_insertReplica_iff : r ∈ (b.insertReplica e now).1.replicas.rows ↔
    r ∈ b.replicas.rows ∨ (¬ b.Mirrors e.id ∧ r = Row.ofEntry e now) := by
  have free : (∀ d ∈ b.replicas.rows, d.id ≠ e.id) ↔ ¬ b.Mirrors e.id := by simp [Mirrors]
  rw [← free]
  exact (mem_insertReplica (t := .replica)).trans (or_congr_right (and_iff_right rfl))

theorem mirrors_insertReplica :
    (b.insertReplica e now).1.Mirrors id ↔ b.Mirrors id ∨ id = e.id := by
  constructor
  · rintro ⟨r, hr, rfl⟩
    rcases mem_insertReplica_iff.1 hr with hr | ⟨-, rfl⟩
    · exact .inl ⟨r, hr, rfl⟩
    · exact .inr (Row.id_ofEntry e now)
  · rintro (⟨r, hr, rfl⟩ | rfl)
    · exact ⟨r, mem_insertReplica_iff.2 (.inl hr), rfl⟩
    · by_cases old : b.Mirrors e.id
      · obtain ⟨r, hr, hid⟩ := old
        exact ⟨r, mem_insertReplica_iff.2 (.inl hr), hid⟩
      · exact ⟨_, mem_insertReplica_iff.2 (.inr ⟨old, rfl⟩), Row.id_ofEntry e now⟩

theorem mirrors_insertAll :
    (b.insertAll es now).Mirrors id ↔ b.Mirrors id ∨ ∃ e ∈ es, id = e.id := by
  induction es generalizing b with
  | nil => simp [insertAll]
  | cons e es ih =>
    rw [insertAll_cons, ih, mirrors_insertReplica, or_assoc, List.exists_mem_cons_iff]

theorem insertAll_of_mirrors (h : ∀ e ∈ es, b.Mirrors e.id) : b.insertAll es now = b := by
  induction es with
  | nil => rfl
  | cons e es ih =>
    obtain ⟨first, rest⟩ := List.forall_mem_cons.1 h
    rw [insertAll_cons, insertReplica_old e now first, ih rest]

theorem mem_insertAll : r ∈ (b.insertAll es now).replicas.rows ↔ r ∈ b.replicas.rows ∨
    ∃ e, es.find? (·.id == e.id) = some e ∧ ¬ b.Mirrors e.id ∧ r = Row.ofEntry e now := by
  induction es generalizing b with
  | nil => simp [insertAll]
  | cons e es ih =>
    have first {d : Entry} (h : e.id = d.id) : (e :: es).find? (·.id == d.id) = some e :=
      List.find?_cons_of_pos (beq_iff_eq.2 h)
    have later {d : Entry} (h : e.id ≠ d.id) :
        (e :: es).find? (·.id == d.id) = es.find? (·.id == d.id) :=
      List.find?_cons_of_neg (by simpa using h)
    rw [insertAll_cons, ih, mem_insertReplica_iff, or_assoc]
    refine or_congr_right ⟨?_, ?_⟩
    · rintro (⟨new, rfl⟩ | ⟨d, hd, new, rfl⟩)
      · exact ⟨e, first rfl, new, rfl⟩
      · rw [mirrors_insertReplica, not_or] at new
        exact ⟨d, (later (Ne.symm new.2)).trans hd, new.1, rfl⟩
    · rintro ⟨d, hd, new, rfl⟩
      by_cases hid : e.id = d.id
      · cases (first hid).symm.trans hd
        exact .inl ⟨new, rfl⟩
      · refine .inr ⟨d, (later hid).symm.trans hd, ?_, rfl⟩
        rw [mirrors_insertReplica, not_or]
        exact ⟨new, Ne.symm hid⟩

theorem KeepsReplicas.insertAll (h : b.KeepsReplicas b') (es : List Entry) (now : Instant) :
    (b.insertAll es now).KeepsReplicas (b'.insertAll es now) where
  kept r hr := by
    rcases mem_insertAll.1 hr with hr | ⟨e, he, hnew, rfl⟩
    · obtain ⟨r', hr', hk⟩ := h.kept r hr
      exact ⟨r', mem_insertAll.2 (.inl hr'), hk⟩
    · exact ⟨_, mem_insertAll.2 (.inr ⟨e, he, mt h.mirrors_iff.2 hnew, rfl⟩), .refl _⟩
  noOthers r' hr' := by
    rcases mem_insertAll.1 hr' with hr' | ⟨e, he, hnew, rfl⟩
    · obtain ⟨r, hr, hk⟩ := h.noOthers r' hr'
      exact ⟨r, mem_insertAll.2 (.inl hr), hk⟩
    · exact ⟨_, mem_insertAll.2 (.inr ⟨e, he, mt h.mirrors_iff.1 hnew, rfl⟩), .refl _⟩

end Board

/-- What is written for an object when it takes its turn: its media, and then itself. -/
def Visit.entries (now : Instant) (v : Visit) : List Entry :=
  Board.mediaEntries v.object now ++ [.ofWire v.object .replica now]

/-- When all had their turns, the replicas say what was written for the objects, one after the
other. -/
theorem Board.Turns.keepsReplicas {b b' : Board} {now : Instant} {vs added : List Visit}
    (h : Turns now b vs added b') :
    (b.insertAll (vs.flatMap (Visit.entries now)) now).KeepsReplicas b' := by
  induction h with
  | done b => exact .refl b
  | @add b b' v vs added new rest ih =>
    have turn : b.insertAll (v.entries now) now =
        ((b.withMedia v.object now).insertReplica (.ofWire v.object .replica now) now).1 :=
      insertAll_append ..
    rw [List.flatMap_cons, insertAll_append, turn]
    exact ((KeepsReplicas.link ..).insertAll _ now).trans ih
  | @pass b b' v vs added old rest ih =>
    have turn : b.insertAll (v.entries now) now = b.withMedia v.object now :=
      (insertAll_append ..).trans
        (congrArg Prod.fst (insertReplica_old (.ofWire v.object .replica now) now old))
    rw [List.flatMap_cons, insertAll_append, turn]
    exact ih

end Imageboard
