import Imageboard.Proofs.Board.Selection
import Imageboard.Proofs.Board.Tiers
import Imageboard.Proofs.Operation

namespace Imageboard

namespace Board

variable {b : Board} {t : Tier} {r : Row} {id : String}

/-- What is not an actor's to change is as before: the authored rows, and the posts of others among
the replicas. -/
structure Spares (b b' : Board) (actor : String) : Prop where
  authored : ∀ r ∈ b.authored.rows, r ∈ b'.authored.rows
  replicas : ∀ r ∈ b.replicas.rows, r.isPost = true → r.actor ≠ actor → r ∈ b'.replicas.rows

theorem Spares.refl (b : Board) (actor : String) : b.Spares b actor :=
  ⟨fun _ hr => hr, fun _ hr _ _ => hr⟩

/-- No authored row of an id gets another time from an update of that id. -/
def UpdateStays (b : Board) (id : String) (time : Instant) : Prop :=
  ∀ r ∈ b.authored.rows, r.id = id → r.updated = some time.millis

/-- A burial of an id meets nothing alive among the authored rows, and no post of another actor
that stands as media among the replicas. -/
structure BurialStays (b : Board) (id actor : String) : Prop where
  authored : ∀ r ∈ b.authored.rows, r.isTombstone = false →
    r.id ≠ id ∧ isMediaOf b.authored id r = false
  replicas : ∀ r ∈ b.replicas.rows, r.isPost = true → r.actor ≠ actor →
    isMediaOf b.replicas id r = false

/-- Within the rights of its sender an activity stays if it is refused or has nothing else in its
reach. -/
def Confines (b : Board) (now : Instant) (a : Activity) : Prop :=
  match a.verb? with
  | some .update => ∀ o, a.object? = some o → Site.ownsReplica b o.id a.actorId = true →
    b.UpdateStays o.id (o.updated.getD now)
  | some .delete => ∀ target, a.object = some target →
    Site.ownsReplica b target.target a.actorId = true → b.BurialStays target.target a.actorId
  | _ => True

theorem actor_of_ownsReplica {actor : String} (h : Site.ownsReplica b id actor = true)
    (hr : r ∈ b.replicas.rows) (hid : r.id = id) : r.actor = actor := by
  have he : b.getIn .replica id = some (r.entry .replica) := hid ▸ getIn_of_mem (t := .replica) hr
  unfold Site.ownsReplica at h
  rw [he] at h
  exact eq_of_beq h

theorem mem_touch_iff {time : Instant} (hr : r ∈ (b.tier t).rows) :
    r ∈ ((b.touch id time).1.tier t).rows ↔ (r.id = id → r.updated = some time.millis) := by
  rw [touch, tier_updateRows, Table.mem_update_self_iff hr, beq_iff_eq]
  refine imp_congr_right fun _ => ⟨fun h => ?_, fun h => ?_⟩
  · exact (congrArg Row.updated h).symm
  · rw [← h]

theorem mem_bury_iff {placeholder : String} {time : Int} (hr : r ∈ (b.tier t).rows) :
    r ∈ ((b.bury placeholder time id).1.tier t).rows ↔
      (r.isTombstone = false → r.id ≠ id ∧ isMediaOf (b.tier t) id r = false) := by
  cases hd : r.isTombstone with
  | true => exact iff_of_true (mem_bury.2 ⟨r, hr, Row.buried_of_tombstone hd⟩) nofun
  | false =>
    rw [mem_bury_of_alive hd, and_iff_right hr]
    exact ⟨fun h _ => h, fun h => h rfl⟩

theorem spares_touch_iff {actor : String} {time : Instant}
    (hown : Site.ownsReplica b id actor = true) :
    b.Spares (b.touch id time).1 actor ↔ b.UpdateStays id time := by
  constructor
  · intro h r hr hid
    exact (mem_touch_iff (t := .authored) hr).1 (h.authored r hr) hid
  · intro h
    refine ⟨fun r hr => (mem_touch_iff (t := .authored) hr).2 (h r hr), ?_⟩
    intro r hr _ hne
    refine (mem_touch_iff (t := .replica) hr).2 fun hid => ?_
    exact absurd (actor_of_ownsReplica hown hr hid) hne

theorem spares_bury_iff {actor placeholder : String} {time : Int}
    (hown : Site.ownsReplica b id actor = true) :
    b.Spares (b.bury placeholder time id).1 actor ↔ b.BurialStays id actor := by
  constructor
  · intro h
    refine ⟨fun r hr => (mem_bury_iff (t := .authored) hr).1 (h.authored r hr), ?_⟩
    intro r hr hp hne
    exact ((mem_bury_iff (t := .replica) hr).1 (h.replicas r hr hp hne)
      (Row.isTombstone_of_isPost hp)).2
  · intro h
    refine ⟨fun r hr => (mem_bury_iff (t := .authored) hr).2 (h.authored r hr), ?_⟩
    intro r hr hp hne
    refine (mem_bury_iff (t := .replica) hr).2 fun _ => ⟨fun hid => ?_, h.replicas r hr hp hne⟩
    exact absurd (actor_of_ownsReplica hown hr hid) hne

end Board

namespace Operation

variable {s : Site} {around : Surroundings} {now : Instant} {log : Log} {resident : String}
  {a : Activity} {n : Node}

open Serving

theorem receive_update (hv : a.verb? = some .update) :
    ((receive around now log resident a).perform s n).board =
      match a.object? with
      | none => n.board
      | some o =>
        if Site.ownsReplica n.board o.id a.actorId then
          (n.board.touch o.id (o.updated.getD now)).1
        else n.board := by
  suffices h : Ends (s.apply around now resident a) n fun _ n' => n'.board = _ from h log
  unfold Site.apply
  rw [hv]
  cases a.object? with
  | none => exact ends_pure.2 rfl
  | some o =>
    dsimp only
    rw [ends_board_bind]
    by_cases hown : Site.ownsReplica n.board o.id a.actorId = true
    · simp only [if_pos hown]
      exact .map (ends_changeBoard.2 rfl)
    · simp only [if_neg hown]
      exact ends_pure.2 rfl

/-- A deletion is passed over, or it buries what it names and takes down the files of its media. -/
theorem perform_receive_delete (hv : a.verb? = some .delete) :
    (receive around now log resident a).perform s n =
      match a.object with
      | none => n
      | some target =>
        if Site.ownsReplica n.board target.target a.actorId then
          (s.tombstone now target.target n).1
        else n := by
  suffices h : Ends (s.apply around now resident a) n fun _ n' => n' = _ from h log
  unfold Site.apply
  rw [hv]
  cases a.object with
  | none => exact ends_pure.2 rfl
  | some target =>
    dsimp only
    rw [ends_board_bind]
    by_cases hown : Site.ownsReplica n.board target.target a.actorId = true
    · simp only [if_pos hown]
      exact .map (ends_change.2 rfl)
    · simp only [if_neg hown]
      exact ends_pure.2 rfl

theorem receive_delete (hv : a.verb? = some .delete) :
    ((receive around now log resident a).perform s n).board =
      match a.object with
      | none => n.board
      | some target =>
        if Site.ownsReplica n.board target.target a.actorId then
          (n.board.bury s.config.placeholderHref now.clockMillis target.target).1
        else n.board := by
  rw [perform_receive_delete hv]
  cases a.object with
  | none => rfl
  | some target => exact apply_ite Node.board ..

/-- Updates and deletions leave what is not their sender's as it was exactly where the board
confines them. -/
theorem receive_spares_iff (s : Site) (n : Node) (around : Surroundings) (now : Instant)
    (log : Log) (resident : String) (a : Activity)
    (hv : a.verb? = some .update ∨ a.verb? = some .delete) :
    n.board.Spares ((receive around now log resident a).perform s n).board a.actorId ↔
      n.board.Confines now a := by
  unfold Board.Confines
  rcases hv with hv | hv
  · rw [receive_update hv, hv]
    cases a.object? with
    | none => exact iff_of_true (.refl _ _) nofun
    | some o =>
      simp only [Option.some.injEq, forall_eq']
      by_cases hown : Site.ownsReplica n.board o.id a.actorId = true
      · rw [if_pos hown, Board.spares_touch_iff hown]
        exact ⟨fun h _ => h, fun h => h hown⟩
      · rw [if_neg hown]
        exact iff_of_true (.refl _ _) fun h => absurd h hown
  · rw [receive_delete hv, hv]
    cases a.object with
    | none => exact iff_of_true (.refl _ _) nofun
    | some target =>
      simp only [Option.some.injEq, forall_eq']
      by_cases hown : Site.ownsReplica n.board target.target a.actorId = true
      · rw [if_pos hown, Board.spares_bury_iff hown]
        exact ⟨fun h _ => h, fun h => h hown⟩
      · rw [if_neg hown]
        exact iff_of_true (.refl _ _) fun h => absurd h hown

theorem receive_spares_iff_of_shared_id :
    let s : Site := { config := {}, boardFile := "", filesRoot := "" }
    let around : Surroundings :=
      { web := fun _ _ => .dropped, graph := .hosted, sender := fun _ _ _ => return {} }
    let row (actor : String) : Row := { id := "p", type := "Note", actor, published := 1 }
    let n : Node := { board := { authored := .ofList [row "u"], replicas := .ofList [row "v"] } }
    let a : Activity :=
      { type := "Update", actor := some (.bare "v"), object := some (.object { id := "p" }) }
    (a.verb? = some .update ∨ a.verb? = some .delete) ∧
      (n.board.Spares ((receive around .epoch [] "u" a).perform s n).board a.actorId ↔
        n.board.Confines .epoch a) := by
  intro s around row n a
  have hv : a.verb? = some .update ∨ a.verb? = some .delete := .inl (by decide)
  exact ⟨hv, receive_spares_iff s n around .epoch [] "u" a hv⟩

/-- Someone else who sends an object under the id of a post made here, and then deletes that object,
turns the post into a tombstone. -/
theorem not_spares_of_squatted_id :
    let s : Site := { config := {}, boardFile := "", filesRoot := "" }
    let around : Surroundings :=
      { web := fun _ _ => .dropped
        graph := ⟨fun _ _ _ => return ["http://b/u"]⟩
        sender := fun _ _ _ => return {} }
    let sends (type : String) (o : ObjectRef) : Activity :=
      { type, actor := some (.bare "http://v"), object := some o }
    let squats := sends "Create" (.object { id := "http://b/u/aaaaaaaa", actor := "http://v" })
    let n := run s [create .epoch [⟨"aaaaaaaa", rfl, rfl⟩] { actor := "http://b/u" },
      receive around .epoch [] "http://b/u" squats] {}
    let a := sends "Delete" (.bare "http://b/u/aaaaaaaa")
    ¬ n.board.Spares ((receive around .epoch [] "http://b/u" a).perform s n).board a.actorId := by
  intro s around sends squats n a h
  let post : Row :=
    { id := "http://b/u/aaaaaaaa", type := "Note", actor := "http://b/u", published := 0,
      updated := some 0 }
  have before : post ∈ n.board.authored.rows := by decide +kernel
  have after :
      post ∉ ((receive around .epoch [] "http://b/u" a).perform s n).board.authored.rows := by
    decide +kernel
  exact after (h.authored post before)

end Operation
end Imageboard
