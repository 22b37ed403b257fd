import Imageboard.Proofs.Lifecycle.Creation
import Imageboard.Proofs.Wire.Envelope

namespace Imageboard

def Object.shownMedia (o : Object) : List Object :=
  o.shownPreview.toList ++ o.attachment

namespace Board

variable {b c : Board} {e : Entry} {now : Instant} {id actor : String} {draws : List IdSuffix}

/-- The ids that draws make below an actor and that are on no authored row. -/
def freeIds (b : Board) (actor : String) (draws : List IdSuffix) : List String :=
  (draws.map (idBelow actor)).filter fun id => !b.holds .authored id

/-- The ids that draws make for objects that are written one after the other. -/
def freshIds (b : Board) (actor : String) (draws : List IdSuffix) : List String :=
  (b.freeIds actor draws).eraseDups

/-- The ids that draws make for a post and a number of media, if they suffice. The id of the post is
the first free one, and stays free for the media. -/
def mints? (b : Board) (actor : String) (media : Nat) (draws : List IdSuffix) :
    Option (String × List String) :=
  match b.freeIds actor draws with
  | [] => none
  | own :: later =>
    if media ≤ later.eraseDups.length then some (own, later.eraseDups.take media) else none

theorem holds_authored_iff : b.holds .authored id = true ↔ ∃ r ∈ b.authored.rows, r.id = id :=
  holds_iff

theorem ne_of_mem_freeIds (h : id ∈ b.freeIds actor draws) : ∀ r ∈ b.authored.rows, r.id ≠ id := by
  intro r hr hid
  have unheld := (List.mem_filter.1 h).2
  rw [holds_authored_iff.2 ⟨r, hr, hid⟩] at unheld
  cases unheld

theorem freeIds_eq (b : Board) (actor : String) (draws : List IdSuffix) : b.freeIds actor draws =
    match b.mint? actor draws with
    | some (id, rest) => id :: b.freeIds actor rest
    | none => [] := by
  induction draws with
  | nil => rfl
  | cons draw draws ih =>
    have minted : b.mint? actor (draw :: draws) =
        if b.holds .authored (idBelow actor draw) then b.mint? actor draws
        else some (idBelow actor draw, draws) := rfl
    rw [minted, freeIds, List.map_cons]
    cases held : b.holds .authored (idBelow actor draw) with
    | true =>
      rw [List.filter_cons_of_neg (by simp [held]), if_pos rfl]
      exact ih
    | false =>
      rw [List.filter_cons_of_pos (by simp [held]), if_neg Bool.false_ne_true]
      rfl

theorem freeIds_insertAuthored (h : b.insertAuthored e now = .ok c) (actor : String)
    (draws : List IdSuffix) :
    c.freeIds actor draws = (b.freeIds actor draws).filter fun id => !id == e.id := by
  have held (id : String) : c.holds .authored id = (b.holds .authored id || id == e.id) := by
    rw [Bool.eq_iff_iff, Bool.or_eq_true, beq_iff_eq, holds_authored_iff, holds_authored_iff]
    constructor
    · rintro ⟨r, hr, rfl⟩
      rcases (mem_insertAuthored (t := .authored) h).1 hr with hr | ⟨-, rfl⟩
      · exact .inl ⟨r, hr, rfl⟩
      · exact .inr (Row.id_ofEntry e now)
    · rintro (⟨r, hr, rfl⟩ | rfl)
      · exact ⟨r, (mem_insertAuthored (t := .authored) h).2 (.inl hr), rfl⟩
      · exact ⟨_, (mem_insertAuthored (t := .authored) h).2 (.inr ⟨rfl, rfl⟩), Row.id_ofEntry e now⟩
  simp only [freeIds, List.filter_filter, held, Bool.not_or]
  exact List.filter_congr fun id _ => Bool.and_comm ..

theorem mints?_free {own : String} {media : List String} {k : Nat}
    (h : b.mints? actor k draws = some (own, media)) :
    media.Nodup ∧ ∀ id ∈ own :: media, ∀ r ∈ b.authored.rows, r.id ≠ id := by
  unfold mints? at h
  split at h
  next => cases h
  next first later ids =>
    split at h
    next enough =>
      cases h
      refine ⟨(nodup_eraseDups later).sublist (List.take_sublist _ _), fun id hid => ?_⟩
      have there : id ∈ b.freeIds actor draws := by
        rw [ids]
        rcases List.mem_cons.1 hid with rfl | hid
        · exact List.mem_cons_self
        · exact List.mem_cons_of_mem _ (List.mem_eraseDups.1 (List.mem_of_mem_take hid))
      exact ne_of_mem_freeIds there
    next => cases h

end Board

namespace Site

variable {s : Site} {now : Instant} {draft o d : Object} {b : Board} {type : ObjectType}
  {actor : String} {draws : List IdSuffix}

theorem id_cases (b : Board) (actor : String) (draws : List IdSuffix) :
    (∃ id rest, Yields (Minting.id b actor) draws id rest ∧
        b.freeIds actor draws = id :: b.freeIds actor rest) ∨
      (Fails (Minting.id b actor) draws (.refused .noFreshId) ∧ b.freeIds actor draws = []) := by
  rw [b.freeIds_eq]
  unfold Minting.id
  cases minted : b.mint? actor draws with
  | some x =>
    refine .inl ⟨x.1, x.2, yields_bind.2 ⟨draws, draws, rfl, ?_⟩, rfl⟩
    rw [minted]
    rfl
  | none =>
    refine .inr ⟨fails_bind.2 (.inr ⟨draws, draws, rfl, ?_⟩), rfl⟩
    rw [minted]
    rfl

theorem addMedia_cases (now : Instant) (type : ObjectType) (o d : Object) (b : Board)
    (draws : List IdSuffix) :
    (∃ m c rest, Yields (addMedia now type o d b) draws (m, c) rest ∧
        b.freshIds o.actor draws = m.id :: c.freshIds o.actor rest) ∨
      (Fails (addMedia now type o d b) draws (.refused .noFreshId) ∧
        b.freshIds o.actor draws = []) := by
  rcases id_cases b o.actor draws with ⟨id, rest, hid, ids⟩ | ⟨hid, ids⟩
  · let m := d.writtenFor now type o id
    have free := Board.ne_of_mem_freeIds (ids ▸ List.mem_cons_self)
    obtain ⟨c, hc⟩ : ∃ c, b.insertAuthored (.ofWire m .authored now) now = .ok c :=
      ⟨_, Board.insertAuthored_eq_ok_iff.2 ⟨free, rfl⟩⟩
    refine .inl ⟨m, c, rest, yields_bind.2 ⟨id, rest, hid, yields_bind.2 ⟨c, rest, ?_, rfl⟩⟩, ?_⟩
    · exact yields_lift.2 ⟨hc, rfl⟩
    · rw [Board.freshIds, ids, List.eraseDups_cons, Board.freshIds,
        Board.freeIds_insertAuthored hc]
      rfl
  · refine .inr ⟨fails_bind.2 (.inl hid), ?_⟩
    rw [Board.freshIds, ids]
    rfl

theorem addAllMedia_cases (now : Instant) (b : Board) (draws : List IdSuffix)
    (few : o.attachment.length ≤ 1) (beside : o.attachment = [] → o.preview = none) :
    let ids := b.freshIds o.actor draws
    (o.media.length ≤ ids.length ∧ ∃ p c rest, Yields (addAllMedia now o b) draws (p, c) rest ∧
        p.media.map Object.id = ids.take o.media.length) ∨
      (ids.length < o.media.length ∧
        Fails (addAllMedia now o b) draws (.refused .noFreshId)) := by
  intro ids
  unfold addAllMedia Object.media
  cases hattached : o.attachment with
  | nil =>
    rw [beside hattached]
    refine .inl ⟨Nat.zero_le _, o, b, draws, rfl, ?_⟩
    simp [hattached, beside hattached]
  | cons a others =>
    obtain rfl : others = [] := by
      rw [hattached, List.length_cons] at few
      exact List.length_eq_zero_iff.1 (by omega)
    cases hpreview : o.preview with
    | none =>
      rcases addMedia_cases now .attachment o a b draws with ⟨m, c, rest, hm, left⟩ | ⟨hm, left⟩
      · refine .inl ⟨?_, _, c, rest, yields_bind.2 ⟨_, _, rfl, yields_bind.2 ⟨_, _, hm, rfl⟩⟩, ?_⟩
        · simp [ids, left]
        · simp [ids, left]
      · refine .inr ⟨?_, fails_bind.2 (.inr ⟨_, _, rfl, fails_bind.2 (.inl hm)⟩)⟩
        simp [ids, left]
    | some d =>
      rcases addMedia_cases now .preview o d b draws with ⟨e, c, rest, he, left⟩ | ⟨he, left⟩
      · rcases addMedia_cases now .attachment o a c rest with
          ⟨m, c', rest', hm, left'⟩ | ⟨hm, left'⟩
        · refine .inl ⟨?_, _, c', rest', yields_bind.2 ⟨_, _, he, yields_bind.2 ⟨_, _, rfl,
            yields_bind.2 ⟨_, _, hm, rfl⟩⟩⟩, ?_⟩
          · simp [ids, left, left']
          · simp [ids, left, left']
        · refine .inr ⟨?_, fails_bind.2 (.inr ⟨_, _, he, fails_bind.2 (.inr ⟨_, _, rfl,
            fails_bind.2 (.inl hm)⟩)⟩)⟩
          simp [ids, left, left']
      · refine .inr ⟨?_, fails_bind.2 (.inl he)⟩
        simp [ids, left]

theorem post_of_media {own : String} {later rest : List IdSuffix} {p : Object} {c : Board}
    (few : o.attachment.length ≤ 1) (beside : o.attachment = [] → o.preview = none)
    (hown : Yields (Minting.id b o.actor) draws own later)
    (free : ∀ r ∈ b.authored.rows, r.id ≠ own)
    (hp : Yields (addAllMedia now { o with id := own } b) later (p, c) rest) :
    if own ∈ p.media.map Object.id then
      Fails (post now o b) draws ((Fault.broke .storage).doing (.insertingLocal own))
    else ∃ posted d, Yields (post now o b) draws (posted, d) rest ∧ posted.id = own ∧
      posted.media = p.media := by
  obtain ⟨preview, attachment, rfl, -, -, gains⟩ := addAllMedia_yields hp few beside
  let p : Object := { o with id := own, preview, attachment }
  change if own ∈ p.media.map Object.id then _ else _
  split
  next again =>
    -- the id was free when it was drawn, but a row of the media has it by now
    obtain ⟨m, hm, hid⟩ := List.mem_map.1 again
    have there : m.row now ∈ c.authored.rows := (gains.mem .authored _).2 (.inr ⟨rfl, m, hm, rfl⟩)
    have refused : c.insertAuthored (.ofWire p .authored now) now =
        .error ((Fault.broke .storage).doing (.insertingLocal own)) :=
      Board.insertAuthored_eq_error there ((m.id_row now).trans hid)
    exact fails_bind.2 (.inr ⟨own, later, hown, fails_bind.2 (.inr ⟨(p, c), rest, hp,
      fails_bind.2 (.inl (fails_lift.2 refused))⟩)⟩)
  next apart =>
    have unused : ∀ r ∈ c.authored.rows, r.id ≠ own := by
      intro r hr
      rcases (gains.mem .authored r).1 hr with hr | ⟨-, m, hm, rfl⟩
      · exact free r hr
      · rw [Object.id_row]
        exact fun hid => apart (List.mem_map.2 ⟨m, hm, hid⟩)
    obtain ⟨d, hd⟩ : ∃ d, c.insertAuthored (.ofWire p .authored now) now = .ok d :=
      ⟨_, Board.insertAuthored_eq_ok_iff.2 ⟨unused, rfl⟩⟩
    refine ⟨p.archivedIf (d.archives p), (d.link p (p.published.getD now)).1, ?_,
      Object.id_archivedIf, Object.media_archivedIf⟩
    refine yields_bind.2 ⟨own, later, hown, yields_bind.2 ⟨(p, c), rest, hp, yields_bind.2 ⟨d, rest,
      yields_lift.2 ⟨hd, rfl⟩, ?_⟩⟩⟩
    rw [← Board.link_archives d p (p.published.getD now)]
    rfl

theorem not_isUnfit_of_isOk (now : Instant) (h : (s.prepare now draft).isOk = true) :
    ¬ draft.IsUnfit s := by
  obtain ⟨p, hp⟩ := exists_of_isOk h
  exact not_isUnfit_of_prepare hp

theorem exists_prepared (fit : ¬ draft.IsUnfit s) (now : Instant) :
    ∃ p, s.prepare now draft = .ok p ∧ p.actor = draft.actor ∧ p.media = draft.shownMedia ∧
      p.attachment.length ≤ 1 ∧ (p.attachment = [] → p.preview = none) := by
  obtain ⟨p, hp⟩ := prepare_succeeds fit now
  obtain ⟨-, few, -, signed, -, rfl⟩ := prepare_eq_ok_iff.1 hp
  refine ⟨_, hp, rfl, rfl, few, fun (bare : draft.attachment = []) => ?_⟩
  show draft.shownPreview = _
  simp [Object.shownPreview, bare]

/-- What a fit draft leads to with the ids that are drawn for it. -/
theorem create_cases (fit : ¬ draft.IsUnfit s) (now : Instant) (b : Board) (draws : List IdSuffix) :
    match b.mints? draft.actor draft.shownMedia.length draws with
    | none => Fails (s.create now draft b) draws (.refused .noFreshId)
    | some (own, media) =>
      if own ∈ media then
        Fails (s.create now draft b) draws ((Fault.broke .storage).doing (.insertingLocal own))
      else ∃ o c rest, Yields (s.create now draft b) draws (o, c) rest ∧ o.id = own ∧
        o.media.map Object.id = media := by
  obtain ⟨p, hp, actor, shown, few, beside⟩ := exists_prepared fit now
  have prepared : Yields (liftM (s.prepare now draft) : Minting Object) draws p draws :=
    yields_lift.2 ⟨hp, rfl⟩
  rw [← actor, ← shown]
  unfold Board.mints?
  rcases id_cases b p.actor draws with ⟨own, later, hown, ids⟩ | ⟨hown, ids⟩
  · rw [ids]
    rcases addAllMedia_cases (o := { p with id := own }) now b later few beside with
      ⟨enough, o, c, rest, ho, written⟩ | ⟨short, ho⟩
    · have enough : p.media.length ≤ (b.freeIds p.actor later).eraseDups.length := enough
      have written : o.media.map Object.id =
          (b.freeIds p.actor later).eraseDups.take p.media.length := written
      have free := Board.ne_of_mem_freeIds (ids ▸ List.mem_cons_self)
      have posted := post_of_media few beside hown free ho
      dsimp only
      rw [if_pos enough]
      dsimp only
      rw [← written]
      split
      next again =>
        rw [if_pos again] at posted
        exact fails_bind.2 (.inr ⟨_, _, prepared, posted⟩)
      next apart =>
        rw [if_neg apart] at posted
        obtain ⟨q, d, hd, hid, same⟩ := posted
        exact ⟨q, d, rest, yields_bind.2 ⟨_, _, prepared, hd⟩, hid, by rw [same]⟩
    · have short : ¬ p.media.length ≤ (b.freeIds p.actor later).eraseDups.length :=
        Nat.not_le.2 short
      dsimp only
      rw [if_neg short]
      exact fails_bind.2 (.inr ⟨_, _, prepared, fails_bind.2 (.inr ⟨_, _, hown,
        fails_bind.2 (.inl ho)⟩)⟩)
  · rw [ids]
    exact fails_bind.2 (.inr ⟨_, _, prepared, fails_bind.2 (.inl hown)⟩)

end Site

namespace Operation

/-- A fit draft with enough draws is posted under the ids that they make, which are on no authored
row, unless one of its media draws the id of the post again: that one is on no row until the media
are written, and then the post cannot be written, and nothing is. -/
theorem create_collides_iff (s : Site) (now : Instant) (draws : List IdSuffix) (draft : Object)
    (n : Node) (fit : ¬ draft.IsUnfit s) :
    let made := ((s.create now draft n.board).run.run draws).1
    let minted := n.board.mints? draft.actor draft.shownMedia.length draws
    (minted = none → made = .error (.refused .noFreshId)) ∧
    ∀ own media, minted = some (own, media) →
      media.Nodup ∧ (∀ id ∈ own :: media, ∀ r ∈ n.board.authored.rows, r.id ≠ id) ∧
      (own ∉ media → ∃ o b, made = .ok (o, b) ∧ o.id = own ∧ o.media.map Object.id = media) ∧
      (own ∈ media → made = .error ((Fault.broke .storage).doing (.insertingLocal own)) ∧
        (create now draws draft).perform s n = n) := by
  intro made minted
  have outcome := Site.create_cases fit now n.board draws
  refine ⟨fun few => ?_, fun own media drawn => ?_⟩
  · change n.board.mints? draft.actor draft.shownMedia.length draws = none at few
    rw [few] at outcome
    exact outcome
  · change n.board.mints? draft.actor draft.shownMedia.length draws = some (own, media) at drawn
    rw [drawn] at outcome
    dsimp only at outcome
    obtain ⟨nodup, free⟩ := Board.mints?_free drawn
    refine ⟨nodup, free, fun apart => ?_, fun again => ?_⟩
    · rw [if_neg apart] at outcome
      obtain ⟨o, b, rest, ho, hid, hmedia⟩ := outcome
      exact ⟨o, b, congrArg Prod.fst ho, hid, hmedia⟩
    · rw [if_pos again] at outcome
      have failed : made = .error ((Fault.broke .storage).doing (.insertingLocal own)) := outcome
      refine ⟨failed, ?_⟩
      show n.commit made = n
      rw [failed]
      rfl

theorem create_collides_iff_of_drawn_preview :
    let s : Site := { config := {}, boardFile := "", filesRoot := "" }
    let taken : Row := { id := "u/aaaaaaaa", type := "Note", published := 1 }
    let n : Node := { board := { authored := .ofList [taken] } }
    let draft : Object :=
      { actor := "u/", attachment := [{ href := "a" }], preview := some { href := "b" } }
    let old : IdSuffix := ⟨"aaaaaaaa", rfl, rfl⟩
    let shown : IdSuffix := ⟨"cccccccc", rfl, rfl⟩
    let draws := [old, ⟨"bbbbbbbb", rfl, rfl⟩, shown, shown, old, ⟨"dddddddd", rfl, rfl⟩]
    let media := ["u/cccccccc", "u/dddddddd"]
    ¬ draft.IsUnfit s ∧
      n.board.mints? draft.actor draft.shownMedia.length draws = some ("u/bbbbbbbb", media) ∧
      ∃ o b, ((s.create .epoch draft n.board).run.run draws).1 = .ok (o, b) ∧
        o.id = "u/bbbbbbbb" ∧ o.media.map Object.id = media := by
  intro s taken n draft old shown draws media
  have fit : ¬ draft.IsUnfit s := Site.not_isUnfit_of_isOk .epoch (by decide +kernel)
  have drawn : n.board.mints? draft.actor draft.shownMedia.length draws =
      some ("u/bbbbbbbb", media) := by decide +kernel
  obtain ⟨-, outcome⟩ := create_collides_iff s .epoch draws draft n fit
  obtain ⟨-, -, posted, -⟩ := outcome _ _ drawn
  exact ⟨fit, drawn, posted (by decide)⟩

/-- A draw that comes again for the picture of a post keeps it from being posted. -/
theorem not_posted_of_repeated_draw :
    let s : Site := { config := {}, boardFile := "", filesRoot := "" }
    let draft : Object := { actor := "u", attachment := [{ href := "a" }] }
    let b : Board := {}
    let draw : IdSuffix := ⟨"aaaaaaaa", rfl, rfl⟩
    let id := "u/aaaaaaaa"
    ¬ draft.IsUnfit s ∧
      b.mints? draft.actor draft.shownMedia.length [draw, draw] = some (id, [id]) ∧
      ((s.create .epoch draft b).run.run [draw, draw]).1.map (fun x => x.1.id) =
        .error ((Fault.broke .storage).doing (.insertingLocal id)) := by
  intro s draft b draw id
  have fit : ¬ draft.IsUnfit s := Site.not_isUnfit_of_isOk .epoch (by decide +kernel)
  exact ⟨fit, by decide +kernel, by decide +kernel⟩

end Operation
end Imageboard
