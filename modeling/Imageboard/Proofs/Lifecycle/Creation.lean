import Imageboard.Lifecycle.Create
import Imageboard.Proofs.Board.Linking
import Imageboard.Proofs.Operation

namespace Imageboard

namespace Object

/-- A piece of media as it is written for a post: under an id of its own, by the actor of the post.
-/
def writtenFor (m : Object) (now : Instant) (type : ObjectType) (post : Object) (id : String) :
    Object :=
  { m with
    id
    type := some (m.type.getD type)
    actor := post.actor
    published := some now
    updated := some now
    attributedTo := post.id }

def MediaFor (now : Instant) (type : ObjectType) (post : Object) (drafts media : List Object) :
    Prop :=
  List.Forall₂ (fun d m => m = d.writtenFor now type post m.id) drafts media

def media (o : Object) : List Object :=
  o.preview.toList ++ o.attachment

/-- The preview that a draft shows: one with an address, beside an attachment. -/
def shownPreview (o : Object) : Option Object :=
  if o.attachment.isEmpty then none else o.preview.filter fun p => p.href != ""

/-- A draft that cannot be posted: without an actor, with several attachments, of another type than
that of a post, or with a name that makes no tripcode. -/
def IsUnfit (draft : Object) (s : Site) : Prop :=
  Text.isBlankText draft.actor = true ∨ 1 < draft.attachment.length ∨
    (draft.type.getD .note).isPost = false ∨
    (draft.tripcode = "" ∧ ∃ f, Tripcode.ofName draft.name s.config.tripcodeSalt = .error f)

def archivedIf (archived : Bool) (o : Object) : Object :=
  if archived then { o with type := some .archive } else o

def row (o : Object) (now : Instant) : Row :=
  .ofEntry (.ofWire o .authored now) now

structure IsPostOf (o : Object) (s : Site) (now : Instant) (draft : Object) : Prop where
  body : o = { draft with
    id := o.id
    type := o.type
    name := o.name
    tripcode := o.tripcode
    published := some (draft.published.getD now)
    updated := some (draft.published.getD now)
    preview := o.preview
    attachment := o.attachment }
  signed : (if draft.tripcode = "" then Tripcode.ofName draft.name s.config.tripcodeSalt
    else .ok ⟨draft.name, draft.tripcode⟩) = .ok ⟨o.name, o.tripcode⟩
  post : o.type = some .note ∨ o.type = some .archive
  attachment : MediaFor now .attachment o draft.attachment o.attachment
  preview : MediaFor now .preview o draft.shownPreview.toList o.preview.toList
  attributed : ∀ m ∈ o.media, m.type ≠ some .tombstone → (m.row now).attributedTo = o.id

end Object

namespace Board

/-- An id that is on no row and no edge of a board, nor what a draft answers. -/
structure IsNew (b : Board) (draft : Object) (id : String) : Prop where
  rows : ∀ t, ∀ r ∈ (b.tier t).rows, r.id ≠ id
  edge : b.IsFresh ⟨id, draft.replyParent?.getD ""⟩

structure Free (b : Board) (ids : List String) : Prop where
  nodup : ids.Nodup
  unused : ∀ id ∈ ids, ∀ r ∈ b.authored.rows, r.id ≠ id

def idBelow (actor : String) (draw : IdSuffix) : String :=
  Text.trimEndOf '/' actor ++ "/" ++ draw.text

/-- A board gains the rows of some objects that are written here, and nothing else. -/
structure Gains (b : Board) (now : Instant) (os : List Object) (b' : Board) : Prop where
  mem : ∀ t r, r ∈ (b'.tier t).rows ↔
    r ∈ (b.tier t).rows ∨ (t = .authored ∧ ∃ o ∈ os, r = o.row now)
  rest : b' = { b with authored := b'.authored }

/-- A board gains the rows and the edge of a post, which renews what it answers. -/
structure GainsPost (b : Board) (now : Instant) (o : Object) (b' : Board) : Prop where
  authored : ∀ r, r ∈ b'.authored.rows ↔
    (∃ x ∈ o :: o.media, r = x.row now) ∨
      ∃ q ∈ b.authored.rows, r = q.after o (o.published.getD now)
  replicas : ∀ r, r ∈ b'.replicas.rows ↔ ∃ q ∈ b.replicas.rows, r = q.after o (o.published.getD now)
  edges : ∀ e, e ∈ b'.edges.rows ↔ e ∈ b.edges.rows ∨ e = ⟨o.id, o.replyParent?.getD ""⟩
  rest : b' = { b with authored := b'.authored, replicas := b'.replicas, edges := b'.edges }

end Board

section Rows

variable {o : Object} {now : Instant} {archived : Bool}

@[simp] theorem Object.id_row (o : Object) (now : Instant) : (o.row now).id = o.id :=
  Row.id_ofEntry _ now

@[simp] theorem Object.id_archivedIf : (o.archivedIf archived).id = o.id := by
  cases archived <;> rfl

@[simp] theorem Object.media_archivedIf : (o.archivedIf archived).media = o.media := by
  cases archived <;> rfl

@[simp] theorem Object.published_archivedIf : (o.archivedIf archived).published = o.published := by
  cases archived <;> rfl

@[simp] theorem Object.replyParent?_archivedIf :
    (o.archivedIf archived).replyParent? = o.replyParent? := by
  cases archived <;> rfl

@[simp] theorem Row.after_archivedIf (r : Row) (published : Instant) :
    r.after (o.archivedIf archived) published = r.after o published := by
  cases archived <;> rfl

theorem Object.MediaFor.exists_draft {type : ObjectType} {post m : Object}
    {drafts media : List Object}
    (h : MediaFor now type post drafts media) (hm : m ∈ media) :
    ∃ d ∈ drafts, m = d.writtenFor now type post m.id := by
  induction h with
  | nil => cases hm
  | @cons d _ drafts _ hd _ ih =>
    rcases List.mem_cons.1 hm with rfl | hm
    · exact ⟨d, List.mem_cons_self, hd⟩
    · obtain ⟨d', hd', he⟩ := ih hm
      exact ⟨d', List.mem_cons_of_mem d hd', he⟩

theorem Object.attributedTo_row {type : ObjectType} {post m : Object} {drafts media : List Object}
    (h : MediaFor now type post drafts media) (hm : m ∈ media) (ht : m.type ≠ some .tombstone) :
    (m.row now).attributedTo = post.id := by
  have attributed : m.attributedTo = post.id := by
    obtain ⟨d, -, hd⟩ := h.exists_draft hm
    rw [hd]
    rfl
  have kept : (m.row now).attributedTo = m.attributedTo := by
    unfold row Row.ofEntry Entry.ofWire
    rcases hm : m.type with _ | _ | _ | _ | _ | _ <;> simp_all
  rw [kept, attributed]

theorem Object.linked_row {published : Instant} (h : o.type = some .note ∨ o.type = some .archive)
    (hr : o.renews o.id = false) :
    (o.row now).linked o archived published = (o.archivedIf archived).row now := by
  have kept : (o.row now).after o published = o.row now :=
    Row.after_of_not_renews (id_row o now ▸ hr)
  have own : (o.row now).id = o.id := o.id_row now
  cases archived with
  | false =>
    rw [Row.linked, if_neg fun hf => Bool.false_ne_true hf.1, kept]
    rfl
  | true =>
    have same : (o.row now).inArchive = (o.archivedIf true).row now := by
      obtain ⟨⟩ := o
      rcases h with rfl | rfl <;> rfl
    rw [Row.linked, if_pos ⟨rfl, own⟩, same]
    refine Row.after_of_not_renews ?_
    rwa [Object.id_row, Object.id_archivedIf]

theorem Object.IsPostOf.archivedIf {s : Site} {draft : Object} (h : o.IsPostOf s now draft) :
    (o.archivedIf archived).IsPostOf s now draft := by
  cases archived with
  | false => exact h
  | true =>
    refine ⟨?_, h.signed, .inr rfl, h.attachment, h.preview, h.attributed⟩
    show { o with type := some .archive } = _
    rw [h.body]
    rfl

theorem Object.IsPostOf.replyParent?_eq {s : Site} {draft : Object} (h : o.IsPostOf s now draft) :
    o.replyParent? = draft.replyParent? := by
  rw [h.body]
  rfl

end Rows

namespace Board

variable {b c d : Board} {now : Instant} {os : List Object} {o draft : Object} {e : Entry}
  {ids rest : List String}

theorem Gains.none (b : Board) (now : Instant) : b.Gains now [] b where
  mem := by simp
  rest := rfl

theorem Gains.insert (h : b.Gains now os c)
    (hi : c.insertAuthored (.ofWire o .authored now) now = .ok d) : b.Gains now (os ++ [o]) d where
  mem t r := by
    rw [mem_insertAuthored hi, h.mem t r, or_assoc, ← and_or_left]
    simp [Object.row]
  rest := by
    rw [(insertAuthored_eq_ok_iff.1 hi).2, h.rest]

theorem Gains.id_ne (h : b.Gains now os c)
    (hi : c.insertAuthored (.ofWire o .authored now) now = .ok d) : ∀ x ∈ os, x.id ≠ o.id := by
  intro x hx hid
  have there : x.row now ∈ c.authored.rows := (h.mem .authored _).2 (.inr ⟨rfl, x, hx, rfl⟩)
  exact (insertAuthored_eq_ok_iff.1 hi).1 _ there ((x.id_row now).trans hid)

theorem Gains.archives_eq (h : b.Gains now os c) (hnew : ∀ x ∈ os, b.IsNew o x.id) :
    c.archives o = b.archives o := by
  unfold archives
  cases hparent : o.replyParent? with
  | none => rfl
  | some parent =>
    have edges : c.edges = b.edges := by rw [h.rest]
    have same : c.get (b.rootOf parent) = b.get (b.rootOf parent) := by
      refine get_congr fun t r hid => (h.mem t r).trans (or_iff_left ?_)
      rintro ⟨-, x, hx, rfl⟩
      obtain ⟨hne, hedges⟩ := (hnew x hx).edge
      rw [Object.id_row] at hid
      rw [hparent] at hne
      rcases b.rootOf_mem parent with hroot | hroot
      · exact hne (hroot.symm.trans hid.symm)
      · obtain ⟨e, he, hp⟩ := List.mem_map.1 hroot
        exact (hedges e he).2 (hp.trans hid.symm)
    simp only [Option.any_some, rootOf_congr edges, typeOf, same]

theorem IsNew.renews_eq_false {id : String} (h : b.IsNew o id) : o.renews id = false := by
  have hne := h.edge.1
  unfold Object.renews
  cases hparent : o.replyParent? with
  | none => rfl
  | some parent =>
    rw [hparent] at hne
    have other : (some parent == some id) = false := by simpa using hne
    rw [other, Bool.false_and]

theorem Gains.mem_link (h : b.Gains now (o.media ++ [o]) d) (hmedia : ∀ m ∈ o.media, m.id ≠ o.id)
    (hpost : o.type = some .note ∨ o.type = some .archive)
    (hnew : ∀ x ∈ o :: o.media, b.IsNew o x.id) (t : Tier) (r : Row) :
    r ∈ ((d.link o (o.published.getD now)).1.tier t).rows ↔
      (t = .authored ∧ ∃ x ∈ o.archivedIf (d.archives o) :: o.media, r = x.row now) ∨
        ∃ q ∈ (b.tier t).rows, r = q.after o (o.published.getD now) := by
  rw [mem_link_iff]
  generalize d.archives o = archived
  generalize o.published.getD now = published
  have old {q : Row} (hq : q ∈ (b.tier t).rows) :
    q.linked o archived published = q.after o published :=
    Row.linked_of_ne ((hnew o List.mem_cons_self).rows t q hq)
  have posted : (o.row now).linked o archived published = (o.archivedIf archived).row now :=
    Object.linked_row hpost (hnew o List.mem_cons_self).renews_eq_false
  have kept {m : Object} (hm : m ∈ o.media) :
    (m.row now).linked o archived published = m.row now := by
    rw [Row.linked_of_ne (by simpa using hmedia m hm)]
    refine Row.after_of_not_renews ?_
    simpa using (hnew m (List.mem_cons_of_mem _ hm)).renews_eq_false
  constructor
  · rintro ⟨q, hq, rfl⟩
    rcases (h.mem t q).1 hq with hq | ⟨rfl, x, hx, rfl⟩
    · exact .inr ⟨q, hq, old hq⟩
    · rcases List.mem_append.1 hx with hm | hx
      · exact .inl ⟨rfl, x, List.mem_cons_of_mem _ hm, kept hm⟩
      · obtain rfl := List.mem_singleton.1 hx
        exact .inl ⟨rfl, _, List.mem_cons_self, posted⟩
  · rintro (⟨rfl, x, hx, rfl⟩ | ⟨q, hq, rfl⟩)
    · rcases List.mem_cons.1 hx with rfl | hm
      · have there := List.mem_append_right o.media (List.mem_singleton_self o)
        exact ⟨o.row now, (h.mem _ _).2 (.inr ⟨rfl, o, there, rfl⟩), posted⟩
      · have there := List.mem_append_left [o] hm
        exact ⟨x.row now, (h.mem _ _).2 (.inr ⟨rfl, x, there, rfl⟩), kept hm⟩
    · exact ⟨q, (h.mem t q).2 (.inl hq), old hq⟩

theorem Gains.link (h : b.Gains now (o.media ++ [o]) d) (hmedia : ∀ m ∈ o.media, m.id ≠ o.id)
    (hpost : o.type = some .note ∨ o.type = some .archive)
    (hnew : ∀ x ∈ o :: o.media, b.IsNew o x.id) :
    b.GainsPost now (o.archivedIf (d.archives o)) (d.link o (o.published.getD now)).1 where
  authored r := by simpa [tier] using h.mem_link hmedia hpost hnew .authored r
  replicas r := by simpa [tier] using h.mem_link hmedia hpost hnew .replica r
  edges e := by
    have edges : d.edges = b.edges := by rw [h.rest]
    simp [edges_link, mem_recordEdge, edges]
  rest := by
    refine (link_eq d o _).trans ?_
    rw [h.rest]

theorem Free.insertAuthored (h : b.Free ids) (hp : ids.Perm (e.id :: rest)) (now : Instant) :
    ∃ c, b.insertAuthored e now = .ok c ∧ c.Free rest := by
  have here : e.id ∈ ids := hp.mem_iff.2 List.mem_cons_self
  obtain ⟨other, nodup⟩ := List.nodup_cons.1 (hp.nodup_iff.1 h.nodup)
  have inserted : b.insertAuthored e now =
      .ok { b with authored := b.authored.put (Row.ofEntry e now) } :=
    insertAuthored_eq_ok_iff.2 ⟨h.unused e.id here, rfl⟩
  refine ⟨_, inserted, nodup, fun id hid r hr => ?_⟩
  rcases (mem_insertAuthored (t := .authored) inserted).1 hr with hr | ⟨-, rfl⟩
  · exact h.unused id (hp.mem_iff.2 (List.mem_cons_of_mem _ hid)) r hr
  · rw [Row.id_ofEntry]
    exact fun he => other (he ▸ hid)

end Board

namespace Site

variable {s : Site} {now : Instant} {draft o p m d : Object} {b c b' : Board} {type : ObjectType}
  {actor : String} {x y z : IdSuffix} {draws draws' : List IdSuffix} {ids rest : List String}

open Board (idBelow)

theorem prepare_eq_ok_iff : s.prepare now draft = .ok p ↔
    Text.isBlankText draft.actor = false ∧ draft.attachment.length ≤ 1 ∧
      (draft.type.getD .note).isPost = true ∧ ∃ signed,
        (if draft.tripcode = "" then Tripcode.ofName draft.name s.config.tripcodeSalt
          else .ok ⟨draft.name, draft.tripcode⟩) = .ok signed ∧
        p = { draft with
          type := some (draft.type.getD .note)
          name := signed.name
          tripcode := signed.trip
          published := some (draft.published.getD now)
          updated := some (draft.published.getD now)
          preview := draft.shownPreview } := by
  unfold prepare
  split
  next blank => simp [blank]
  next actor =>
    split
    next many => simp [Nat.not_le.2 many]
    next few =>
      dsimp only
      split
      next odd => simp_all
      next type =>
        have post : (draft.type.getD .note).isPost = true := by simpa using type
        simp only [Bool.eq_false_iff.2 actor, Nat.not_lt.1 few, post, true_and]
        split
        all_goals
          rw [except_bind_eq_ok]
          exact exists_congr fun signed => and_congr_right fun _ => except_pure_eq_ok.trans eq_comm

theorem not_isUnfit_of_prepare (h : s.prepare now draft = .ok p) : ¬ draft.IsUnfit s := by
  obtain ⟨actor, few, post, signed, hsigned, -⟩ := prepare_eq_ok_iff.1 h
  rintro (blank | many | odd | ⟨unsigned, f, hf⟩)
  · rw [actor] at blank
    cases blank
  · omega
  · rw [post] at odd
    cases odd
  · rw [if_pos unsigned, hf] at hsigned
    cases hsigned

theorem prepare_succeeds (fit : ¬ draft.IsUnfit s) (now : Instant) :
    ∃ p, s.prepare now draft = .ok p := by
  obtain ⟨actor, few, post, named⟩ : Text.isBlankText draft.actor = false ∧
      draft.attachment.length ≤ 1 ∧ (draft.type.getD .note).isPost = true ∧
      (draft.tripcode = "" → ∀ f, Tripcode.ofName draft.name s.config.tripcodeSalt ≠ .error f) := by
    simpa [Object.IsUnfit] using fit
  obtain ⟨signed, hsigned⟩ : ∃ signed, (if draft.tripcode = "" then
      Tripcode.ofName draft.name s.config.tripcodeSalt
        else .ok ⟨draft.name, draft.tripcode⟩) = .ok signed := by
    split
    next unsigned =>
      cases hn : Tripcode.ofName draft.name s.config.tripcodeSalt with
      | error f => exact absurd hn (named unsigned f)
      | ok signed => exact ⟨signed, rfl⟩
    next => exact ⟨_, rfl⟩
  exact ⟨_, prepare_eq_ok_iff.2 ⟨actor, few, post, signed, hsigned, rfl⟩⟩

theorem addMedia_yields (h : Yields (addMedia now type o d b) draws (m, b') draws') :
    m = d.writtenFor now type o m.id ∧ b.insertAuthored (.ofWire m .authored now) now = .ok b' := by
  obtain ⟨id, ds, -, h⟩ := yields_bind.1 h
  obtain ⟨c, ds₁, hc, h⟩ := yields_bind.1 h
  obtain ⟨he, -⟩ := yields_pure.1 h
  cases he
  exact ⟨rfl, (yields_lift.1 hc).1⟩

theorem addAllMedia_yields (h : Yields (addAllMedia now o b) draws (p, b') draws')
    (few : o.attachment.length ≤ 1) (beside : o.attachment = [] → o.preview = none) :
    ∃ preview attachment,
      p = { o with preview, attachment } ∧
      Object.MediaFor now .attachment o o.attachment attachment ∧
      Object.MediaFor now .preview o o.preview.toList preview.toList ∧
      b.Gains now (preview.toList ++ attachment) b' := by
  unfold addAllMedia at h
  cases hattached : o.attachment with
  | nil =>
    have bare := beside hattached
    rw [hattached] at h
    obtain ⟨he, -⟩ := yields_pure.1 h
    cases he
    refine ⟨none, [], ?_, .nil, ?_, .none b now⟩
    · rw [← hattached, ← bare]
      cases o
      rfl
    · rw [bare]
      exact .nil
  | cons a rest =>
    obtain rfl : rest = [] := by
      rw [hattached, List.length_cons] at few
      exact List.length_eq_zero_iff.1 (by omega)
    rw [hattached] at h
    dsimp only at h
    cases hpreview : o.preview with
    | none =>
      rw [hpreview] at h
      obtain ⟨_, ds, hnone, h⟩ := yields_bind.1 h
      obtain ⟨rfl, -⟩ := yields_pure.1 hnone
      obtain ⟨⟨m, c⟩, ds₁, hm, h⟩ := yields_bind.1 h
      obtain ⟨he, -⟩ := yields_pure.1 h
      cases he
      obtain ⟨hm, hc⟩ := addMedia_yields hm
      exact ⟨none, [m], rfl, .cons hm .nil, .nil, (Board.Gains.none b now).insert hc⟩
    | some d =>
      rw [hpreview] at h
      obtain ⟨⟨e, c⟩, ds, he, h⟩ := yields_bind.1 h
      obtain ⟨_, ds₁, hsome, h⟩ := yields_bind.1 h
      obtain ⟨rfl, -⟩ := yields_pure.1 hsome
      obtain ⟨⟨m, c'⟩, ds₂, hm, h⟩ := yields_bind.1 h
      obtain ⟨heq, -⟩ := yields_pure.1 h
      cases heq
      obtain ⟨he, hc⟩ := addMedia_yields he
      obtain ⟨hm, hc'⟩ := addMedia_yields hm
      exact ⟨some e, [m], rfl, .cons hm .nil, .cons he .nil,
        ((Board.Gains.none b now).insert hc).insert hc'⟩

/-- A draft is written as a post with its media, and then takes its place. -/
theorem create_written (h : Yields (s.create now draft b) draws (o, b') draws') : ∃ posted c,
    posted.IsPostOf s now draft ∧ posted.type = some (draft.type.getD .note) ∧
      b.Gains now (posted.media ++ [posted]) c ∧ (∀ m ∈ posted.media, m.id ≠ posted.id) ∧
      o = posted.archivedIf (c.archives posted) ∧
      b' = (c.link posted (posted.published.getD now)).1 := by
  obtain ⟨prepared, ds, hp, h⟩ := yields_bind.1 h
  obtain ⟨-, few, hpost, ⟨name, tripcode⟩, hsigned, rfl⟩ := prepare_eq_ok_iff.1 (yields_lift.1 hp).1
  obtain ⟨id, ds₁, -, h⟩ := yields_bind.1 h
  obtain ⟨⟨posted, c⟩, ds₂, hm, h⟩ := yields_bind.1 h
  obtain ⟨d, ds₃, hd, h⟩ := yields_bind.1 h
  obtain ⟨he, -⟩ := yields_pure.1 h
  have beside (hattached : draft.attachment = []) : draft.shownPreview = none := by
    simp [Object.shownPreview, hattached]
  obtain ⟨preview, attachment, rfl, hattachment, hpreview, gains⟩ :=
    addAllMedia_yields hm few beside
  let posted : Object := { draft with
    id, name, tripcode, preview, attachment
    type := some (draft.type.getD .note)
    published := some (draft.published.getD now)
    updated := some (draft.published.getD now) }
  have isPost : posted.type = some .note ∨ posted.type = some .archive := by
    show some (draft.type.getD .note) = _ ∨ some (draft.type.getD .note) = _
    cases hd : draft.type.getD .note <;> simp_all [ObjectType.isPost]
  have hi : c.insertAuthored (.ofWire posted .authored now) now = .ok d := (yields_lift.1 hd).1
  have attributed : ∀ m ∈ posted.media, m.type ≠ some .tombstone → (m.row now).attributedTo = id :=
    fun m hm => (List.mem_append.1 hm).elim (Object.attributedTo_row hpreview)
      (Object.attributedTo_row hattachment)
  refine ⟨posted, d, ⟨rfl, hsigned, isPost, hattachment, hpreview, attributed⟩, rfl,
    gains.insert hi, gains.id_ne hi, ?_, (congrArg Prod.snd he).symm⟩
  rw [← Board.link_archives d posted (posted.published.getD now)]
  exact (congrArg Prod.fst he).symm

theorem create_yields (h : Yields (s.create now draft b) draws (o, b') draws')
    (hnew : ∀ x ∈ o :: o.media, b.IsNew draft x.id) :
    o.IsPostOf s now draft ∧
      (o.type = some .archive ↔ draft.type = some .archive ∨
        ∃ parent, draft.replyParent? = some parent ∧ b.typeOf (b.rootOf parent) = some .archive) ∧
      b.GainsPost now o b' := by
  obtain ⟨posted, d, hpost, htype, written, hmedia, rfl, rfl⟩ := create_written h
  have answers := hpost.replyParent?_eq
  have new : ∀ x ∈ posted :: posted.media, b.IsNew posted x.id := by
    have new {id : String} (h : b.IsNew draft id) : b.IsNew posted id := ⟨h.rows, answers ▸ h.edge⟩
    rw [Object.media_archivedIf] at hnew
    refine List.forall_mem_cons.2 ⟨?_, fun m hm => new (hnew m (List.mem_cons_of_mem _ hm))⟩
    have own := hnew _ List.mem_cons_self
    rw [Object.id_archivedIf] at own
    exact new own
  refine ⟨hpost.archivedIf, ?_, written.link hmedia hpost.post new⟩
  have same : d.archives posted = b.archives posted := by
    refine written.archives_eq fun x hx => new x ?_
    exact List.mem_cons.2 ((List.mem_append.1 hx).symm.imp_left List.mem_singleton.1)
  rw [← answers, ← Board.archives_iff, same]
  cases b.archives posted with
  | false =>
    have direct : draft.type.getD .note = .archive ↔ draft.type = some .archive := by
      cases draft.type <;> simp
    simpa [Object.archivedIf, htype] using direct
  | true => exact iff_of_true rfl (.inr rfl)

theorem id_succeeds (h : b.Free ids) (hx : idBelow actor x ∈ ids) :
    Yields (Minting.id b actor) (x :: draws) (idBelow actor x) draws := by
  have unused : b.holds .authored (idBelow actor x) = false := by
    rw [Bool.eq_false_iff]
    intro hc
    obtain ⟨r, hr, hk⟩ := Table.contains_iff.1 hc
    exact h.unused _ hx r hr (List.head_eq_of_cons_eq hk)
  have minted : b.mint? actor (x :: draws) = some (idBelow actor x, draws) := by
    unfold Board.mint?
    exact if_neg (by rw [← idBelow, unused]; exact Bool.false_ne_true)
  unfold Minting.id
  refine yields_bind.2 ⟨_, _, rfl, ?_⟩
  rw [minted]
  rfl

theorem addMedia_succeeds (h : b.Free ids) (hp : ids.Perm (idBelow o.actor x :: rest))
    (draws : List IdSuffix) :
    ∃ m c, Yields (addMedia now type o d b) (x :: draws) (m, c) draws ∧ c.Free rest := by
  have hx : idBelow o.actor x ∈ ids := hp.mem_iff.2 List.mem_cons_self
  let m := d.writtenFor now type o (idBelow o.actor x)
  obtain ⟨c, hc, free⟩ := h.insertAuthored (e := .ofWire m .authored now) hp now
  refine ⟨m, c, yields_bind.2 ⟨_, _, id_succeeds h hx, yields_bind.2 ⟨c, _, ?_, rfl⟩⟩, free⟩
  exact yields_lift.2 ⟨hc, rfl⟩

theorem addAllMedia_succeeds (h : b.Free [o.id, idBelow o.actor x, idBelow o.actor y])
    (now : Instant) (draws : List IdSuffix) :
    ∃ p c rest ds, Yields (addAllMedia now o b) (x :: y :: draws) (p, c) ds ∧ p.id = o.id ∧
      c.Free (o.id :: rest) := by
  unfold addAllMedia
  cases o.attachment with
  | nil => exact ⟨o, b, _, _, rfl, rfl, h⟩
  | cons a others =>
    cases o.preview with
    | none =>
      obtain ⟨m, c, hm, left⟩ := addMedia_succeeds h (.swap ..) (y :: draws)
      exact ⟨_, c, _, _, yields_bind.2 ⟨_, _, rfl, yields_bind.2 ⟨_, _, hm, rfl⟩⟩, rfl, left⟩
    | some d =>
      obtain ⟨e, c, he, left⟩ := addMedia_succeeds h (.swap ..) (y :: draws)
      obtain ⟨m, c', hm, left'⟩ := addMedia_succeeds left (.swap ..) draws
      exact ⟨_, c', _, _, yields_bind.2 ⟨_, _, he, yields_bind.2 ⟨_, _, rfl,
        yields_bind.2 ⟨_, _, hm, rfl⟩⟩⟩, rfl, left'⟩

/-- A fit draft is posted where three drawn ids are free. -/
theorem create_succeeds (fit : ¬ draft.IsUnfit s)
    (free : b.Free [idBelow draft.actor x, idBelow draft.actor y, idBelow draft.actor z]) :
    ∃ o c ds, Yields (s.create now draft b) (x :: y :: z :: draws) (o, c) ds := by
  obtain ⟨p, hp⟩ := prepare_succeeds fit now
  have actor : p.actor = draft.actor := by
    obtain ⟨-, -, -, -, -, rfl⟩ := prepare_eq_ok_iff.1 hp
    rfl
  rw [← actor] at free
  have hid : Yields (Minting.id b p.actor) (x :: y :: z :: draws) (idBelow p.actor x)
      (y :: z :: draws) := id_succeeds free List.mem_cons_self
  let owner : Object := { p with id := idBelow p.actor x }
  obtain ⟨o, c, rest, ds, hmedia, same, left⟩ :=
    addAllMedia_succeeds (o := owner) free now draws
  rw [← same] at left
  obtain ⟨c', hc', -⟩ := left.insertAuthored (e := .ofWire o .authored now) (.refl _) now
  exact ⟨_, _, ds, yields_bind.2 ⟨p, _, yields_lift.2 ⟨hp, rfl⟩, yields_bind.2 ⟨_, _, hid,
    yields_bind.2 ⟨_, _, hmedia, yields_bind.2 ⟨c', ds, yields_lift.2 ⟨hc', rfl⟩, rfl⟩⟩⟩⟩⟩

end Site

namespace Operation

/-- A draft is posted where it is fit and the first draws make free ids. One that is not posted, as
one that is unfit, leaves the node as it was. One that is posted under new ids adds its rows and its
edge, renews the rows of what it answers, and changes nothing else. -/
theorem create_posts (s : Site) (now : Instant) (draws : List IdSuffix) (draft : Object)
    (n : Node) :
    let made := ((s.create now draft n.board).run.run draws).1
    let n' := (create now draws draft).perform s n
    (draft.IsUnfit s → ∃ f, made = .error f) ∧
    (¬ draft.IsUnfit s → 3 ≤ draws.length →
      n.board.Free ((draws.take 3).map (Board.idBelow draft.actor)) → ∃ o b, made = .ok (o, b)) ∧
    (∀ f, made = .error f → n' = n) ∧
    ∀ o b, made = .ok (o, b) → n' = { n with board := b } ∧
      ((∀ x ∈ o :: o.media, n.board.IsNew draft x.id) →
        o.IsPostOf s now draft ∧
        (o.type = some .archive ↔ draft.type = some .archive ∨ ∃ parent,
          draft.replyParent? = some parent ∧
            n.board.typeOf (n.board.rootOf parent) = some .archive) ∧
        n.board.GainsPost now o b) := by
  intro made n'
  have after : n' = n.commit made := rfl
  have yields {o : Object} {b : Board} (h : made = .ok (o, b)) :
      Yields (s.create now draft n.board) draws (o, b)
        ((s.create now draft n.board).run.run draws).2 := yields_of_run h
  refine ⟨fun unfit => ?_, fun fit enough free => ?_, fun f hf => ?_,
    fun o b ho => ⟨?_, fun hnew => ?_⟩⟩
  · cases hmade : made with
    | error f => exact ⟨f, rfl⟩
    | ok x =>
      obtain ⟨p, ds, hp, -⟩ := yields_bind.1 (yields hmade)
      exact absurd unfit (Site.not_isUnfit_of_prepare (yields_lift.1 hp).1)
  · obtain ⟨x, y, z, more, rfl⟩ : ∃ x y z more, draws = x :: y :: z :: more := by
      match draws, enough with
      | x :: y :: z :: more, _ => exact ⟨x, y, z, more, rfl⟩
    obtain ⟨o, b, ds, posted⟩ := Site.create_succeeds fit free
    exact ⟨o, b, congrArg Prod.fst posted⟩
  · rw [after, hf]
    rfl
  · rw [after, ho]
    rfl
  · exact Site.create_yields (yields ho) hnew

theorem create_posts_of_archived_root :
    let s : Site := { config := {}, boardFile := "", filesRoot := "" }
    let root (type : String) : Row := { id := "p", type, published := 1 }
    let n : Node :=
      { board := { authored := .ofList [root "Archive"], replicas := .ofList [root "Note"] } }
    let draft : Object :=
      { actor := "u", inReplyTo := [.reference " p "], attachment := [{ href := "a" }],
        preview := some { href := "b" } }
    let draws : List IdSuffix :=
      [⟨"aaaaaaaa", rfl, rfl⟩, ⟨"bbbbbbbb", rfl, rfl⟩, ⟨"cccccccc", rfl, rfl⟩]
    let ids := ["u/aaaaaaaa", "u/bbbbbbbb", "u/cccccccc"]
    ∃ o b, ((s.create .epoch draft n.board).run.run draws).1 = .ok (o, b) ∧
      (o :: o.media).map Object.id = ids ∧
      (∀ x ∈ o :: o.media, n.board.IsNew draft x.id) ∧
      (create .epoch draws draft).perform s n = { n with board := b } ∧
      o.IsPostOf s .epoch draft ∧ o.type = some .archive ∧ n.board.GainsPost .epoch o b := by
  intro s root n draft draws ids
  obtain ⟨-, succeeds, -, posted⟩ := create_posts s .epoch draws draft n
  have fit : ¬ draft.IsUnfit s := by
    have unnamed : Tripcode.ofName draft.name s.config.tripcodeSalt = .ok ⟨"", ""⟩ := by
      decide +kernel
    rintro (blank | many | odd | ⟨-, f, hf⟩)
    · exact absurd blank (by decide +kernel)
    · exact absurd many (by decide)
    · exact absurd odd (by decide)
    · cases unnamed.symm.trans hf
  have free : ∀ id ∈ ids, n.board.IsNew draft id := by
    have rows (t : Tier) : ∀ id ∈ ids, ∀ r ∈ (n.board.tier t).rows, r.id ≠ id := by
      cases t <;> decide +kernel
    have edge : ∀ id ∈ ids, n.board.IsFresh ⟨id, draft.replyParent?.getD ""⟩ := by
      decide +kernel
    exact fun id hid => ⟨fun t => rows t id hid, edge id hid⟩
  have drawn : draws.map (Board.idBelow draft.actor) = ids := by decide +kernel
  have unused : n.board.Free (draws.map (Board.idBelow draft.actor)) :=
    drawn ▸ ⟨by decide, fun id hid => (free id hid).rows .authored⟩
  obtain ⟨o, b, made⟩ := succeeds fit (by decide) unused
  have hids : (o :: o.media).map Object.id = ids := by
    have run : (((s.create .epoch draft n.board).run.run draws).1.map
        fun x => (x.1 :: x.1.media).map Object.id) = .ok ids := by decide +kernel
    rw [made] at run
    exact Except.ok.inj run
  have new : ∀ x ∈ o :: o.media, n.board.IsNew draft x.id := fun x hx =>
    free x.id (hids ▸ List.mem_map_of_mem hx)
  obtain ⟨after, changes⟩ := posted o b made
  obtain ⟨isPost, archived, gains⟩ := changes new
  have root : n.board.typeOf (n.board.rootOf "p") = some .archive := by decide +kernel
  have answers : draft.replyParent? = some "p" := by decide +kernel
  exact ⟨o, b, made, hids, new, after, isPost, archived.2 (.inr ⟨"p", answers, root⟩), gains⟩

end Operation
end Imageboard
