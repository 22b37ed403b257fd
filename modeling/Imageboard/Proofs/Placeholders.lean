import Imageboard.Proofs.Authority
import Imageboard.Proofs.Blocking
import Imageboard.Proofs.Lifecycle.BareTombstones
import Imageboard.Proofs.Lifecycle.Creation

namespace Imageboard

def Object.IsTombstone (o : Object) : Prop :=
  o.type.map ObjectType.text = some ObjectType.tombstone.text

theorem Object.text_getD_of_not_tombstone {o : Object} {type : ObjectType} (h : ¬ o.IsTombstone)
    (ht : type.text ≠ ObjectType.tombstone.text) :
    (o.type.getD type).text ≠ ObjectType.tombstone.text := by
  unfold IsTombstone at h
  cases hd : o.type with
  | none => exact ht
  | some type => simpa [hd] using h

/-- Writes that may make a tombstone of what was none, or add one. -/
def Write.MakesTombstone : Write → Prop
  | author e _ | mirror e _ => e.type.text = ObjectType.tombstone.text
  | retype _ type => type.text = ObjectType.tombstone.text
  | bury .. => True
  | _ => False

theorem Write.Links.not_makesTombstone {w : Write} (h : w.Links) : ¬ w.MakesTombstone := by
  cases w with
  | retype id type =>
    obtain rfl : type = .archive := h
    show ObjectType.archive.text ≠ ObjectType.tombstone.text
    decide
  | author | mirror | bury => exact h.elim
  | _ => exact not_false

theorem Write.Erases.not_makesTombstone {w : Write} (h : w.Erases) : ¬ w.MakesTombstone := by
  cases w with
  | erase id => exact not_false
  | _ => exact h.elim

theorem Entry.type_ofWire (o : Object) (tier : Tier) (now : Instant) :
    (ofWire o tier now).type = o.type.getD .note := by
  unfold type ofWire
  dsimp only
  cases o.type.getD .note <;> rfl

theorem Row.type_ofEntry (e : Entry) (now : Instant) : (ofEntry e now).type = e.type.text := by
  unfold ofEntry
  split <;> rfl

theorem Write.tombstone_of_change {w : Write} {b : Board} {t : Tier} {q r : Row}
    (hw : ¬ w.MakesTombstone) (h : w.change b t q = some r) (dead : r.isTombstone = true) :
    q.isTombstone = true ∧ r.href = q.href := by
  cases w with
  | retype id type =>
    cases h
    split at dead
    next => exact absurd (beq_iff_eq.1 dead) hw
    next kept => exact ⟨dead, by rw [if_neg kept]⟩
  | setPreview | setSensitive | touch =>
    cases h
    split at dead
    next chosen => exact ⟨dead, by rw [if_pos chosen]⟩
    next kept => exact ⟨dead, by rw [if_neg kept]⟩
  | bury => exact absurd trivial hw
  | erase id =>
    rw [change, Option.ite_none_left_eq_some] at h
    cases h.2
    exact ⟨dead, rfl⟩
  | _ =>
    cases h
    exact ⟨dead, rfl⟩

theorem Write.bareTombstones {w : Write} {b : Board} {placeholder : String}
    (hw : ¬ w.MakesTombstone)
    (h : b.BareTombstones placeholder) : (w.apply b).BareTombstones placeholder := by
  intro t r hr dead
  rcases mem_apply.1 hr with ⟨q, hq, changed⟩ | added
  · obtain ⟨dead, href⟩ := tombstone_of_change hw changed dead
    rw [Row.BearsMedia, href]
    exact h t q hq dead
  · cases w with
    | author | mirror =>
      obtain ⟨-, -, rfl⟩ := added
      rw [Row.isTombstone, Row.type_ofEntry, beq_iff_eq] at dead
      exact absurd dead hw
    | _ => cases added

namespace Board

variable {b b' : Board} {placeholder : String} {now : Instant} {vs added : List Visit}

theorem Reaches.bareTombstones (h : b.Reaches (¬ ·.MakesTombstone) b')
    (hb : b.BareTombstones placeholder) : b'.BareTombstones placeholder :=
  h.related (R := fun b b' => b.BareTombstones placeholder → b'.BareTombstones placeholder)
    (fun _ h => h) (fun _ _ _ h h' hb => h' (h hb)) (fun _ _ hw => Write.bareTombstones hw) hb

theorem exists_media_of_mem_mediaEntries {o : Object} {e : Entry} (he : e ∈ mediaEntries o now) :
    ∃ m ∈ o.media, ∃ type, (type = .preview ∨ type = .attachment) ∧
      e = mediaEntry m type o now := by
  unfold mediaEntries at he
  split at he
  next => cases he
  next a rest attached =>
    split at he
    next => cases he
    next =>
      rcases List.mem_append.1 he with he | he
      · obtain ⟨p, hp, rfl⟩ := List.mem_map.1 he
        have shown := (Option.mem_filter_iff.1 (Option.mem_toList.1 hp)).1
        exact ⟨p, List.mem_append_left _ (Option.mem_toList.2 shown), _, .inl rfl, rfl⟩
      · have first : a ∈ o.attachment := attached ▸ List.mem_cons_self
        exact ⟨a, List.mem_append_right _ first, _, .inr rfl, List.mem_singleton.1 he⟩

theorem type_of_mem_entries {v : Visit} {e : Entry} (he : e ∈ v.entries now)
    (hv : ∀ o ∈ v.object :: v.object.media, ¬ o.IsTombstone) :
    e.type.text ≠ ObjectType.tombstone.text := by
  rcases List.mem_append.1 he with he | he
  · obtain ⟨m, hm, type, htype, rfl⟩ := exists_media_of_mem_mediaEntries he
    have typed : (mediaEntry m type v.object now).type = m.type.getD type := Entry.type_ofWire ..
    rw [typed]
    refine Object.text_getD_of_not_tombstone (hv m (List.mem_cons_of_mem _ hm)) ?_
    rcases htype with rfl | rfl <;> decide
  · obtain rfl := List.mem_singleton.1 he
    rw [Entry.type_ofWire]
    exact Object.text_getD_of_not_tombstone (hv v.object List.mem_cons_self) (by decide)

theorem Turns.reaches {P : Write → Prop} (h : Turns now b vs added b')
    (hv : ∀ v ∈ vs, ∀ e ∈ v.entries now, P (.mirror e now)) (hP : ∀ w : Write, w.Links → P w) :
    b.Reaches P b' := by
  induction h with
  | done b => exact .refl b
  | @add b b' v vs added new rest ih =>
    have written : b.Reaches P (b.insertAll (v.entries now) now) :=
      Reaches.foldl _ _ (fun e he _ => .single (.mirror e now) (hv v List.mem_cons_self e he)) b
    have turn : b.insertAll (v.entries now) now =
        ((b.withMedia v.object now).insertReplica (.ofWire v.object .replica now) now).1 :=
      insertAll_append ..
    rw [turn] at written
    exact (written.trans (link_reaches hP _ _ _)).trans
      (ih fun u hu => hv u (List.mem_cons_of_mem v hu))
  | @pass b b' v vs added old rest ih =>
    have media : b.Reaches P (b.withMedia v.object now) :=
      Reaches.foldl _ _ (fun e he _ =>
        .single (.mirror e now) (hv v List.mem_cons_self e (List.mem_append_left _ he))) b
    exact media.trans (ih fun u hu => hv u (List.mem_cons_of_mem v hu))

end Board

theorem Site.bareTombstones_replicate {s : Site} {now : Instant} {o : Object} {b : Board}
    {placeholder : String}
    (hv : ∀ v ∈ Visit.all s.blocks o, ∀ x ∈ v.object :: v.object.media, ¬ x.IsTombstone)
    (h : b.BareTombstones placeholder) : (s.replicate now o b).1.BareTombstones placeholder := by
  obtain ⟨added, turns⟩ := s.replicate_turns now o b
  have writes : b.Reaches (¬ ·.MakesTombstone) (s.replicate now o b).1 :=
    turns.reaches (fun v hmem e he => Board.type_of_mem_entries he (hv v hmem))
      fun _ links => links.not_makesTombstone
  exact writes.bareTombstones h

theorem Object.IsPostOf.exists_draft {o draft m : Object} {s : Site} {now : Instant}
    (h : o.IsPostOf s now draft) (hm : m ∈ o.media) : ∃ d ∈ draft.media, ∃ type,
      (type = .preview ∨ type = .attachment) ∧ m = d.writtenFor now type o m.id := by
  rcases List.mem_append.1 hm with hm | hm
  · obtain ⟨d, shown, he⟩ := h.preview.exists_draft hm
    have given : d ∈ draft.preview.toList := by
      unfold shownPreview at shown
      split at shown
      · cases shown
      · exact Option.mem_toList.2 (Option.mem_filter_iff.1 (Option.mem_toList.1 shown)).1
    exact ⟨d, List.mem_append_left _ given, _, .inl rfl, he⟩
  · obtain ⟨d, given, he⟩ := h.attachment.exists_draft hm
    exact ⟨d, List.mem_append_right _ given, _, .inr rfl, he⟩

theorem Object.IsPostOf.isTombstone_row {o draft x : Object} {s : Site} {now : Instant}
    (h : o.IsPostOf s now draft) (hd : ∀ m ∈ draft.media, ¬ m.IsTombstone)
    (hx : x ∈ o.media ++ [o]) : (x.row now).isTombstone = false := by
  have typed : (x.row now).type = (x.type.getD .note).text :=
    (Row.type_ofEntry _ now).trans (congrArg ObjectType.text (Entry.type_ofWire x .authored now))
  rw [Row.isTombstone, typed]
  refine beq_false_of_ne ?_
  rcases List.mem_append.1 hx with hm | hx
  · obtain ⟨d, given, type, htype, he⟩ := h.exists_draft hm
    rw [he]
    show (d.type.getD type).text ≠ ObjectType.tombstone.text
    refine text_getD_of_not_tombstone (hd d given) ?_
    rcases htype with rfl | rfl <;> decide
  · obtain rfl := List.mem_singleton.1 hx
    rcases h.post with post | post <;> rw [post] <;> decide

theorem Site.bareTombstones_create {s : Site} {now : Instant} {draft o : Object} {b b' : Board}
    {draws draws' : List IdSuffix} {placeholder : String}
    (h : Yields (s.create now draft b) draws (o, b') draws')
    (hd : ∀ m ∈ draft.media, ¬ m.IsTombstone) (hb : b.BareTombstones placeholder) :
    b'.BareTombstones placeholder := by
  obtain ⟨posted, c, isPost, -, gains, -, -, rfl⟩ := create_written h
  have written : c.BareTombstones placeholder := by
    intro t r hr dead
    rcases (gains.mem t r).1 hr with hr | ⟨-, x, hx, rfl⟩
    · exact hb t r hr dead
    · rw [isPost.isTombstone_row hd hx] at dead
      cases dead
  have links : c.Reaches (¬ ·.MakesTombstone) (c.link posted (posted.published.getD now)).1 :=
    Board.link_reaches (fun _ links => links.not_makesTombstone) _ _ c
  exact links.bareTombstones written

def Activity.deleted? (a : Activity) (b : Board) : Option String :=
  if a.verb? = some .delete then
    (a.object.map ObjectRef.target).filter (Site.ownsReplica b · a.actorId)
  else none

namespace Operation

variable {s : Site} {n : Node} {op : Operation}

/-- The ids that an operation buries, in the order in which it does. -/
def buries (s : Site) (n : Node) : Operation → List String
  | tombstone _ id => [id]
  | tombstoneThread _ id => (n.board.subtree id).reverse
  | receive _ _ _ _ a => (a.deleted? n.board).toList
  | inbox around time log _ r body cache =>
    let checked := (s.authenticate around.web time n r body cache).run log
    match checked.1.1.bind (Site.readActivity · body) with
    | .error _ => []
    | .ok a => (a.deleted? n.board).toList
  | _ => []

/-- Something that an operation posts or replicates calls itself a tombstone, or has a tombstone as
its media. -/
def BringsTombstone (s : Site) (n : Node) : Operation → Prop
  | create _ _ draft | publish _ _ _ _ draft => ∃ x ∈ draft :: draft.media, x.IsTombstone
  | op => ∃ now o, op.replicated? s n = some (now, o) ∧
      ∃ v ∈ Visit.all s.blocks o, ∃ x ∈ v.object :: v.object.media, x.IsTombstone

theorem receive_makesNoTombstone {around : Surroundings} {now : Instant} {log : Log}
    {resident : String} {a : Activity} (hc : a.verb? ≠ some .create) (hd : a.verb? ≠ some .delete) :
    n.board.Reaches (¬ ·.MakesTombstone)
      ((receive around now log resident a).perform s n).board := by
  suffices h : Serving.Ends (s.apply around now resident a) n fun _ n' =>
    n.board.Reaches (¬ ·.MakesTombstone) n'.board from h log
  refine Site.apply_ends.mono fun _ _ applied => ?_
  cases applied with
  | failed | ignored | notAdmitted => exact .refl n.board
  | replicated _ hv => exact absurd hv hc
  | tombstoned _ hv => exact absurd hv hd
  | updated o => exact .single (.touch o.id _) not_false
  | followed => exact .single (.follow resident a.actorId true) not_false
  | unfollowed => exact .single (.follow resident a.actorId false) not_false

theorem receive_bareTombstones_iff {around : Surroundings} {now : Instant} {log : Log}
    {resident : String} {a : Activity}
    (hb : ¬ (receive around now log resident a).BringsTombstone s n)
    (h : n.board.BareTombstones s.config.placeholderHref) :
    ((receive around now log resident a).perform s n).board.BareTombstones
        s.config.placeholderHref ↔
      ¬ n.board.LeavesMedia s.config.placeholderHref (a.deleted? n.board).toList := by
  unfold Activity.deleted?
  by_cases hv : a.verb? = some .delete
  · rw [receive_delete hv, if_pos hv]
    cases a.object with
    | none => exact iff_of_true h Board.not_leavesMedia_nil
    | some target =>
      by_cases own : Site.ownsReplica n.board target.target a.actorId = true
      · simpa [own, Option.filter_some] using Board.bareTombstones_bury_iff h _ _
      · simpa [own, Option.filter_some] using iff_of_true h Board.not_leavesMedia_nil
  · rw [if_neg hv]
    refine iff_of_true ?_ Board.not_leavesMedia_nil
    cases admitted : Site.admitted? around n.board log resident a with
    | some o =>
      rw [perform_receive_admitted admitted]
      refine Site.bareTombstones_replicate (fun v hmem x hx dead => hb ?_) h
      exact ⟨now, o, by rw [replicated?, admitted]; rfl, v, hmem, x, hx, dead⟩
    | none =>
      by_cases hc : a.verb? = some .create
      · rw [perform_receive_create hc, admitted]
        exact h
      · exact (receive_makesNoTombstone hc hv).bareTombstones h

/-- An operation that brings in no tombstone leaves all of them bare exactly if it buries nothing
that bears media otherwise than as media. -/
theorem perform_bareTombstones_iff (hb : ¬ op.BringsTombstone s n)
    (h : n.board.BareTombstones s.config.placeholderHref) :
    (op.perform s n).board.BareTombstones s.config.placeholderHref ↔
      ¬ n.board.LeavesMedia s.config.placeholderHref (op.buries s n) := by
  have others (hw : ∀ w, op.Allows s w → ¬ w.MakesTombstone) (none : op.buries s n = []) :
      (op.perform s n).board.BareTombstones s.config.placeholderHref ↔
        ¬ n.board.LeavesMedia s.config.placeholderHref (op.buries s n) := by
    rw [none]
    exact iff_of_true (((perform_reaches s op n).mono hw).bareTombstones h)
      Board.not_leavesMedia_nil
  cases op with
  | create now draws draft =>
    refine iff_of_true ?_ Board.not_leavesMedia_nil
    rcases made : ((s.create now draft n.board).run.run draws).1 with f | ⟨o, b⟩
    · rw [perform, made]
      exact h
    · rw [perform, made]
      exact Site.bareTombstones_create (yields_of_run made)
        (fun m hm dead => hb ⟨m, List.mem_cons_of_mem _ hm, dead⟩) h
  | publish around now log draws draft =>
    refine iff_of_true ?_ Board.not_leavesMedia_nil
    rcases made : ((s.publish around now draft n draws).run log).1.1 with f | ⟨p, n'⟩
    · rw [perform, made]
      exact h
    · obtain ⟨actor, suffixes, -, yields, -⟩ := Site.publish_eq_ok made
      rw [perform, made]
      exact Site.bareTombstones_create yields
        (fun m hm dead => hb ⟨m, List.mem_cons_of_mem _ hm, dead⟩) h
  | replicate now o =>
    refine iff_of_true ?_ Board.not_leavesMedia_nil
    exact Site.bareTombstones_replicate
      (fun v hv x hx dead => hb ⟨now, o, rfl, v, hv, x, hx, dead⟩) h
  | tombstone now id => exact Board.bareTombstones_bury_iff h _ _
  | tombstoneThread now id =>
    have buried : ((tombstoneThread now id).perform s n).board = n.board.buryAll
        s.config.placeholderHref now.clockMillis (n.board.subtree id).reverse :=
      s.board_cascade_bury ..
    rw [buried]
    exact Board.bareTombstones_buryAll_iff h
  | receive around now log resident a => exact receive_bareTombstones_iff hb h
  | inbox around time log resident r body cache =>
    rw [perform_inbox]
    cases read : ((s.authenticate around.web time n r body cache).run log).1.1.bind
        (Site.readActivity · body) with
    | error f =>
      simp only [buries, read]
      exact iff_of_true h Board.not_leavesMedia_nil
    | ok a =>
      simp only [buries, read]
      refine receive_bareTombstones_iff ?_ h
      rintro ⟨now, o, ho, brought⟩
      exact hb ⟨now, o, by simp only [replicated?, read]; exact ho, brought⟩
  | setThreadType id type =>
    refine others (fun w hw => ?_) rfl
    obtain ⟨post, x, rfl⟩ := hw
    intro (dead : type.text = ObjectType.tombstone.text)
    cases type with
    | note | archive => exact absurd dead (by decide)
    | tombstone | preview | attachment | other => cases post
  | delete | deleteThread | deleteAll =>
    exact others (fun w (hw : w.Erases) => hw.not_makesTombstone) rfl
  | update now id time =>
    refine others ?_ rfl
    rintro _ ⟨time, rfl⟩
    exact not_false
  | mark | markSensitive | updatePreview | report =>
    refine others ?_ rfl
    rintro _ rfl
    exact not_false

/-- In a run from an empty board that brings in no tombstones, all tombstones are bare at all times
exactly if no operation of the run buries, under its own id, what bears media and was not met as
media before. -/
theorem run_bareTombstones_iff (s : Site) (ops : List Operation) (files : Files)
    (h : ∀ before op, before ++ [op] <+: ops → ¬ op.BringsTombstone s (run s before { files })) :
    (∀ before, before <+: ops →
        (run s before { files }).board.BareTombstones s.config.placeholderHref) ↔
      ∀ before op, before ++ [op] <+: ops →
        ¬ (run s before { files }).board.LeavesMedia s.config.placeholderHref
          (op.buries s (run s before { files })) := by
  constructor
  · intro bare before op hop
    have after := bare _ hop
    rw [run_concat] at after
    exact (perform_bareTombstones_iff (h before op hop)
      (bare before ((List.prefix_append ..).trans hop))).1 after
  · intro none before
    induction before using List.reverseRecOn with
    | nil =>
      intro _ t r hr
      cases t <;> cases hr
    | append_singleton before op ih =>
      intro hop
      rw [run_concat]
      exact (perform_bareTombstones_iff (h before op hop)
        (ih ((List.prefix_append ..).trans hop))).2
        (none before op hop)

theorem run_bareTombstones_iff_of_picture :
    let s : Site := { config := {}, boardFile := "", filesRoot := "" }
    let draft : Object := { actor := "u", attachment := [{ href := "a" }] }
    let draws : List IdSuffix := [⟨"aaaaaaaa", rfl, rfl⟩, ⟨"bbbbbbbb", rfl, rfl⟩]
    let ops := [create .epoch draws draft, tombstone .epoch "u/aaaaaaaa"]
    (∀ before op, before ++ [op] <+: ops → ¬ op.BringsTombstone s (run s before {})) ∧
      ((∀ before, before <+: ops →
        (run s before {}).board.BareTombstones s.config.placeholderHref) ↔
        ∀ before op, before ++ [op] <+: ops →
          ¬ (run s before {}).board.LeavesMedia s.config.placeholderHref
            (op.buries s (run s before {}))) := by
  intro s draft draws ops
  have h : ∀ before op, before ++ [op] <+: ops → ¬ op.BringsTombstone s (run s before {}) := by
    intro before op hop
    have here : op ∈ ops := hop.subset (List.mem_append_right before (List.mem_singleton_self op))
    simp only [ops, List.mem_cons, List.not_mem_nil, or_false] at here
    rcases here with rfl | rfl
    · simp [BringsTombstone, draft, Object.media, Object.IsTombstone]
    · rintro ⟨_, _, none, -⟩
      cases none
  exact ⟨h, run_bareTombstones_iff s ops {} h⟩

/-- A picture whose own id is that of the burial keeps its address. -/
theorem not_bareTombstones_of_named_picture :
    let s : Site := { config := {}, boardFile := "", filesRoot := "" }
    let draft : Object := { actor := "u", attachment := [{ href := "a" }] }
    let draws : List IdSuffix := [⟨"aaaaaaaa", rfl, rfl⟩, ⟨"bbbbbbbb", rfl, rfl⟩]
    let ops := [create .epoch draws draft, tombstone .epoch "u/bbbbbbbb"]
    (∀ x ∈ draft :: draft.media, ¬ x.IsTombstone) ∧
      ¬ (run s ops {}).board.BareTombstones s.config.placeholderHref := by
  intro s draft draws ops
  refine ⟨by simp [draft, Object.media, Object.IsTombstone], fun bare => ?_⟩
  let picture : Row :=
    { id := "u/bbbbbbbb", type := "Tombstone", attributedTo := "deleted", actor := "u",
      published := 0, updated := some 0, deleted := some 0, href := "a" }
  have left : picture ∈ ((run s ops {}).board.tier .authored).rows := by decide +kernel
  refine bare .authored picture left rfl ⟨?_, ?_⟩ <;> decide +kernel

end Operation
end Imageboard
