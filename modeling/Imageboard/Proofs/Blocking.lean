import Imageboard.Proofs.Federation.Admission
import Imageboard.Proofs.Lifecycle.Contents
import Mathlib.Data.List.Induction

namespace Imageboard

/-- Each row of one table has the content of a row of another, or none. -/
def Table.AddsNoContent (t u : Table Row) : Prop :=
  ∀ r ∈ u.rows, r.content = "" ∨ ∃ q ∈ t.rows, q.content = r.content

namespace Table.AddsNoContent

variable {t u v : Table Row}

theorem refl (t : Table Row) : t.AddsNoContent t :=
  fun r hr => .inr ⟨r, hr, rfl⟩

theorem trans (h : t.AddsNoContent u) (h' : u.AddsNoContent v) : t.AddsNoContent v := by
  intro r hr
  rcases h' r hr with he | ⟨q, hq, he⟩
  · exact .inl he
  · exact he ▸ h q hq

end Table.AddsNoContent

/-- A row has the content that it had before a write, or none. -/
theorem Write.content_of_change {w : Write} {b : Board} {t : Tier} {q r : Row}
    (h : w.change b t q = some r) : r.content = "" ∨ r.content = q.content := by
  cases w with
  | retype | setPreview | setSensitive | touch =>
    cases h
    split <;> exact .inr rfl
  | bury =>
    cases h
    unfold Row.buried
    repeat' split
    · exact .inr rfl
    · exact .inl rfl
    · exact .inl rfl
    · exact .inr rfl
  | erase id =>
    rw [change, Option.ite_none_left_eq_some] at h
    cases h.2
    exact .inr rfl
  | _ =>
    cases h
    exact .inr rfl

theorem Write.addsNoContent {w : Write} (h : ¬ w.AddsReplica) (b : Board) :
    (b.tier .replica).AddsNoContent ((w.apply b).tier .replica) := by
  intro r hr
  rcases mem_apply.1 hr with ⟨q, hq, changed⟩ | added
  · exact (content_of_change changed).imp_right fun he => ⟨q, hq, he.symm⟩
  · cases w with
    | author => cases added.1
    | mirror => exact absurd trivial h
    | _ => cases added

theorem Board.Reaches.addsNoContent {b b' : Board} (h : b.Reaches (¬ ·.AddsReplica) b') :
    (b.tier .replica).AddsNoContent (b'.tier .replica) :=
  h.related (R := fun b b' => (b.tier .replica).AddsNoContent (b'.tier .replica))
    (fun _ => .refl _) (fun _ _ _ => .trans) fun _ b hw => Write.addsNoContent hw b

def Board.Unblocked (b : Board) (blocks : String → Bool) : Prop :=
  ∀ r ∈ b.replicas.rows, r.isPost = true → blocks r.content = false

namespace Operation

variable {s : Site} {n : Node} {op : Operation} {now : Instant} {o : Object}

/-- The object that an operation replicates, and the moment of it. -/
def replicated? (s : Site) (n : Node) : Operation → Option (Instant × Object)
  | replicate now o => some (now, o)
  | receive around now log resident a =>
    (Site.admitted? around n.board log resident a).map (now, ·)
  | inbox around time log resident r body cache =>
    let checked := (s.authenticate around.web time n r body cache).run log
    match checked.1.1.bind (Site.readActivity · body) with
    | .error _ => none
    | .ok a => (Site.admitted? around n.board checked.2 resident a).map (time.now, ·)
  | _ => none

theorem perform_inbox {around : Surroundings} {time : Time} {log : Log} {resident : String}
    {r : RequestHead} {body : Bytes} {cache : KeyCache} :
    (inbox around time log resident r body cache).perform s n =
      let checked := (s.authenticate around.web time n r body cache).run log
      match checked.1.1.bind (Site.readActivity · body) with
      | .error _ => n
      | .ok a => (receive around time.now checked.2 resident a).perform s n := by
  simp only [perform, Site.serve_run]
  generalize (s.authenticate around.web time n r body cache).run log = checked
  cases checked.1.1.bind (Site.readActivity · body) <;> rfl

theorem perform_receive_admitted {around : Surroundings} {log : Log} {resident : String}
    {a : Activity} (h : Site.admitted? around n.board log resident a = some o) :
    ((receive around now log resident a).perform s n).board = (s.replicate now o n.board).1 := by
  rw [perform_receive_create (Site.admitted?_eq_some h).1, h]

theorem receive_addsNoReplica {around : Surroundings} {log : Log} {resident : String}
    {a : Activity} (h : Site.admitted? around n.board log resident a = none) :
    n.board.Reaches (¬ ·.AddsReplica) ((receive around now log resident a).perform s n).board := by
  by_cases hv : a.verb? = some .create
  · rw [perform_receive_create hv, h]
    exact .refl n.board
  · exact applied_reaches (Site.apply_ends log) fun _ _ create adds => hv (create adds)

theorem perform_of_replicated (h : op.replicated? s n = some (now, o)) :
    (op.perform s n).board = (s.replicate now o n.board).1 := by
  cases op with
  | replicate now' o' =>
    cases h
    rfl
  | receive around now' log resident a =>
    obtain ⟨_, admitted, he⟩ := Option.map_eq_some_iff.1 h
    cases he
    exact perform_receive_admitted admitted
  | inbox around time log resident r body cache =>
    rw [perform_inbox]
    dsimp only [replicated?] at h ⊢
    split at h
    next => cases h
    next a _ =>
      obtain ⟨_, admitted, he⟩ := Option.map_eq_some_iff.1 h
      cases he
      exact perform_receive_admitted admitted
  | _ => cases h

theorem addsNoReplica (h : op.replicated? s n = none) :
    n.board.Reaches (¬ ·.AddsReplica) (op.perform s n).board := by
  cases op with
  | replicate => cases h
  | receive around now log resident a =>
    exact receive_addsNoReplica (Option.map_eq_none_iff.1 h)
  | inbox around time log resident r body cache =>
    rw [perform_inbox]
    dsimp only [replicated?] at h ⊢
    split at h
    next => exact .refl n.board
    next => exact receive_addsNoReplica (Option.map_eq_none_iff.1 h)
  | _ =>
    refine (perform_reaches s _ n).mono fun w hw => ?_
    cases w with
    | mirror => simp [Allows, Write.Posts, Write.Links, Write.Buries, Write.Erases] at hw
    | _ => exact not_false

/-- An operation brings in blocked content. Something that is visited in what it replicates has a
piece of media with such content that calls itself a post, and nothing is written under its id
before it. -/
def Smuggles (s : Site) (n : Node) (op : Operation) : Prop :=
  ∃ now o, op.replicated? s n = some (now, o) ∧
    ∃ v ∈ Visit.all s.blocks o, ∃ e ∈ Board.mediaEntries v.object now,
      e.isPost = true ∧ s.blocks e.content = true ∧ ¬ n.board.Mirrors e.id ∧
        ((Visit.all s.blocks o).flatMap (Visit.entries now)).find? (·.id == e.id) = some e

theorem Smuggles.not_unblocked (h : op.Smuggles s n) :
    ¬ (op.perform s n).board.Unblocked s.blocks := by
  obtain ⟨now, o, ho, v, -, e, -, post, blocked, new, first⟩ := h
  obtain ⟨added, turns⟩ := s.replicate_turns now o n.board
  rw [perform_of_replicated ho]
  obtain ⟨r, hr, kept⟩ :=
    turns.keepsReplicas.kept _ (Board.mem_insertAll.2 (.inr ⟨e, first, new, rfl⟩))
  intro unblocked
  have content : r.content = e.content := kept.content.trans (Row.content_ofEntry e now)
  have allowed := unblocked r hr (kept.isPost (Row.isPost_ofEntry post now))
  rw [content, blocked] at allowed
  cases allowed

/-- An operation that smuggles nothing in leaves no blocked content where there was none. -/
theorem content_perform (hempty : s.blocks "" = false) (hclean : ¬ op.Smuggles s n)
    (hn : ∀ r ∈ n.board.replicas.rows, s.blocks r.content = false) :
    ∀ r ∈ (op.perform s n).board.replicas.rows, s.blocks r.content = false := by
  intro r hr
  rcases ho : op.replicated? s n with _ | ⟨now, o⟩
  · rcases (addsNoReplica ho).addsNoContent r hr with none | ⟨q, hq, same⟩
    · rw [none, hempty]
    · rw [← same, hn q hq]
  obtain ⟨added, turns⟩ := s.replicate_turns now o n.board
  rw [perform_of_replicated ho] at hr
  obtain ⟨q, hq, kept⟩ := turns.keepsReplicas.noOthers r hr
  rw [kept.content]
  rcases Board.mem_insertAll.1 hq with hq | ⟨e, first, new, rfl⟩
  · exact hn q hq
  rw [Row.content_ofEntry]
  obtain ⟨v, hv, he⟩ := List.mem_flatMap.1 (List.mem_of_find?_eq_some first)
  rcases List.mem_append.1 he with media | own
  · by_contra blocked
    have blocked : s.blocks e.content = true := by simpa using blocked
    refine hclean ⟨now, o, ho, v, hv, e, media, ?_, blocked, new, first⟩
    by_contra other
    rw [Entry.content_of_not_post (Bool.eq_false_iff.2 other), hempty] at blocked
    cases blocked
  · rw [List.mem_singleton.1 own]
    rcases Entry.content_ofWire v.object .replica now with he | he
    · rw [he, (Visit.mem_all hv).1.allowed]
    · rw [he, hempty]

/-- From an empty board on there is blocked content at no point of a run if and only if no operation
of the run smuggles some in. -/
theorem run_unblocked_iff (s : Site) (ops : List Operation) (files : Files)
    (hempty : s.blocks "" = false) :
    (∀ before, before <+: ops → (run s before { files }).board.Unblocked s.blocks) ↔
      ∀ before op, before ++ [op] <+: ops → ¬ op.Smuggles s (run s before { files }) := by
  constructor
  · intro h before op hop smuggles
    refine smuggles.not_unblocked ?_
    rw [← run_concat]
    exact h _ hop
  · intro h
    suffices contents : ∀ before, before <+: ops →
        ∀ r ∈ (run s before { files }).board.replicas.rows, s.blocks r.content = false from
      fun before hbefore r hr _ => contents before hbefore r hr
    intro before
    induction before using List.reverseRecOn with
    | nil => exact fun _ r hr => absurd hr List.not_mem_nil
    | append_singleton before op ih =>
      intro hop
      rw [run_concat]
      exact content_perform hempty (h before op hop) (ih ((List.prefix_append ..).trans hop))

theorem run_unblocked_iff_of_blocked_reply :
    let s : Site := { config := {}, boardFile := "", filesRoot := "", blocks := (· == "spam") }
    let reply : Object := { id := "q", content := "spam" }
    let ops := [replicate .epoch { id := "p", replies := some { orderedItems := [reply] } }]
    s.blocks "" = false ∧
      ((∀ before, before <+: ops → (run s before {}).board.Unblocked s.blocks) ↔
        ∀ before op, before ++ [op] <+: ops → ¬ op.Smuggles s (run s before {})) := by
  intro s reply ops
  have hempty : s.blocks "" = false := by decide
  exact ⟨hempty, run_unblocked_iff s ops {} hempty⟩

/-- An attachment that calls itself a note, and says what no note may say. -/
theorem not_unblocked_of_attached_note :
    let s : Site := { config := {}, boardFile := "", filesRoot := "", blocks := (· == "spam") }
    let note : Object := { type := some .note, id := "m", content := "spam" }
    let ops := [replicate .epoch { id := "p", content := "hello", attachment := [note] }]
    s.blocks "" = false ∧ ¬ (run s ops {}).board.Unblocked s.blocks := by
  intro s note ops
  refine ⟨by decide, fun unblocked => ?_⟩
  let r : Row :=
    { id := "m", type := "Note", content := "spam", published := 0, updated := some 0 }
  have written : r ∈ (run s ops {}).board.replicas.rows := by decide +kernel
  have allowed : s.blocks "spam" = false := unblocked r written rfl
  exact absurd allowed (by decide)

end Operation
end Imageboard
