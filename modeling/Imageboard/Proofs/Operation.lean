import Imageboard.Lifecycle.Retype
import Imageboard.Proofs.Board.Writes
import Imageboard.Proofs.Federation.Inbox
import Imageboard.Proofs.Federation.Outbox

namespace Imageboard

namespace Node

/-- What a node holds after work that may have failed: a failure leaves it as it was. -/
def after {α : Type} (n : Node) : Except Fault (α × Node) → Node
  | .ok (_, n') => n'
  | .error _ => n

def commit {α : Type} (n : Node) : Except Fault (α × Board) → Node
  | .ok (_, board) => { n with board }
  | .error _ => n

end Node

/-- An operation with all it is given: its arguments, the clock, the drawn ids, the record of what
went out before it, and the world around. -/
inductive Operation where
  | create (now : Instant) (draws : List IdSuffix) (draft : Object)
  | replicate (now : Instant) (o : Object)
  | update (now : Instant) (id : String) (time : Option Instant)
  | tombstone (now : Instant) (id : String)
  | tombstoneThread (now : Instant) (id : String)
  | delete (id : String)
  | deleteThread (id : String)
  | mark (f : Flag) (actor id : String)
  | setThreadType (id : String) (type : ObjectType)
  | markSensitive (id : String) (sensitive : Bool)
  | updatePreview (attachment preview : String)
  | report (id reason : String)
  | receive (around : Surroundings) (now : Instant) (log : Log) (resident : String) (a : Activity)
  | inbox (around : Surroundings) (time : Time) (log : Log) (resident : String) (r : RequestHead)
      (body : Bytes) (cache : KeyCache)
  | publish (around : Surroundings) (now : Instant) (log : Log) (draws : Draws) (draft : Object)
  | deleteAll (around : Surroundings) (log : Log) (draws : Draws) (id : String)

namespace Operation

def perform (s : Site) (n : Node) : Operation → Node
  | create now draws draft => n.commit ((s.create now draft n.board).run.run draws).1
  | replicate now o => { n with board := (s.replicate now o n.board).1 }
  | update now id time => { n with board := (n.board.touch id (time.getD now)).1 }
  | tombstone now id => (s.tombstone now id n).1
  | tombstoneThread now id => (s.tombstoneThread now id n).1
  | delete id => (s.delete id n).1
  | deleteThread id => (s.deleteThread id n).1
  | mark f actor id => { n with board := (n.board.switchFlag f actor id).1 }
  | setThreadType id type => n.commit ((n.board.setThreadType id type).map Prod.swap)
  | markSensitive id sensitive => { n with board := (n.board.setSensitive id sensitive).1 }
  | updatePreview attachment preview =>
    { n with board := (n.board.setPreviewOf attachment preview).1 }
  | report id reason => { n with board := n.board.report id reason }
  | receive around now log resident a => ((s.apply around now resident a).run.run (n, log)).2.1
  | inbox around time log resident r body cache =>
    ((s.serve around time resident r body cache).run (n, log)).2.1
  | publish around now log draws draft =>
    n.after ((s.publish around now draft n draws).run log).1.1
  | deleteAll around log draws id => n.after ((s.deleteAll around id n draws).run log).1.1

def run (s : Site) (ops : List Operation) (n : Node) : Node :=
  ops.foldl (perform s) n

theorem run_concat (s : Site) (ops : List Operation) (op : Operation) (n : Node) :
    run s (ops ++ [op]) n = op.perform s (run s ops n) := by
  simp [run]

end Operation

namespace Write

def Links : Write → Prop
  | edge .. | touch .. => True
  | retype _ type => type = .archive
  | _ => False

def Posts : Write → Prop
  | author .. => True
  | w => w.Links

def Replicates : Write → Prop
  | mirror .. => True
  | w => w.Links

theorem Links.posts {w : Write} (h : w.Links) : w.Posts := by
  cases w with
  | author => trivial
  | _ => exact h

theorem Links.replicates {w : Write} (h : w.Links) : w.Replicates := by
  cases w with
  | mirror => trivial
  | _ => exact h

def Buries (s : Site) (now : Instant) : Write → Prop
  | bury placeholder time _ => placeholder = s.config.placeholderHref ∧ time = now.clockMillis
  | _ => False

def Erases : Write → Prop
  | erase _ => True
  | _ => False

def AddsReplica : Write → Prop
  | mirror .. => True
  | _ => False

theorem Buries.not_addsReplica {s : Site} {now : Instant} {w : Write} (h : w.Buries s now) :
    ¬ w.AddsReplica := by
  cases w with
  | bury => exact not_false
  | _ => exact h.elim

/-- The writes that an activity can cause. -/
def Receives (s : Site) (now : Instant) : Write → Prop
  | follow .. => True
  | w => w.Replicates ∨ w.Buries s now

theorem Replicates.receives {s : Site} {now : Instant} {w : Write} (h : w.Replicates) :
    w.Receives s now := by
  cases w with
  | follow => trivial
  | _ => exact .inl h

theorem Buries.receives {s : Site} {now : Instant} {w : Write} (h : w.Buries s now) :
    w.Receives s now := by
  cases w with
  | follow => trivial
  | _ => exact .inr h

end Write

def Operation.Allows (s : Site) : Operation → Write → Prop
  | create .., w | publish .., w => w.Posts
  | replicate .., w => w.Replicates
  | update _ id _, w => ∃ time, w = .touch id time
  | tombstone now _, w | tombstoneThread now _, w => w.Buries s now
  | delete _, w | deleteThread _, w | deleteAll .., w => w.Erases
  | mark f actor id, w => w = .flag f actor id
  | setThreadType _ type, w => type.isPost = true ∧ ∃ id, w = .retype id type
  | markSensitive id sensitive, w => w = .setSensitive id sensitive
  | updatePreview attachment preview, w => w = .setPreview attachment preview
  | report id reason, w => w = .report id reason
  | receive _ now .., w => w.Receives s now
  | inbox _ time .., w => w.Receives s time.now

namespace Board

variable {P : Write → Prop} {b b' : Board}

theorem link_reaches (hP : ∀ w : Write, w.Links → P w) (o : Object) (published : Instant)
    (b : Board) :
    b.Reaches P (b.link o published).1 := by
  unfold link
  split
  · exact .single (.edge o.id "") (hP _ trivial)
  next parent _ =>
    -- the promotion, the edge and the renewal of the parent, in this order
    dsimp only
    have promoted (c : Bool) (b : Board) :
        b.Reaches P (if c then (b.setType o.id .archive).1 else b) := by
      split
      · exact .single (.retype o.id .archive) (hP _ rfl)
      · exact .refl b
    have renewed (c : Bool) (b : Board) :
        b.Reaches P (if c then b else (b.touch parent published).1) := by
      split
      · exact .refl b
      · exact .single (.touch parent published) (hP _ trivial)
    exact ((promoted _ b).trans (.single (.edge o.id parent) (hP _ trivial))).trans (renewed _ _)

theorem insertWithMedia_reaches (hP : ∀ e now, P (.mirror e now)) (o : Object) (now : Instant)
    (b : Board) : b.Reaches P (b.insertWithMedia o now).1 := by
  have media : b.Reaches P ((mediaEntries o now).foldl (fun b e => (b.insertReplica e now).1) b) :=
    Reaches.foldl _ _ (fun e _ _ => .single (.mirror e now) (hP e now)) b
  exact media.trans (.single (.mirror (.ofWire o .replica now) now) (hP _ _))

theorem replicateOne_reaches (hP : ∀ w : Write, w.Replicates → P w) (o : Object) (now : Instant)
    (b : Board) : b.Reaches P (b.replicateOne o now).1 := by
  have written := insertWithMedia_reaches (P := P) (fun _ _ => hP _ trivial) o now b
  unfold replicateOne
  rcases hb : b.insertWithMedia o now with ⟨c, new⟩
  rw [hb] at written
  cases new with
  | true => exact written.trans (link_reaches (fun w hw => hP w hw.replicates) o _ c)
  | false => exact written

theorem replicateAll_reaches (hP : ∀ w : Write, w.Replicates → P w) (blocks : String → Bool)
    (now : Instant) (queue : List Object) (met : List String) (written : Nat) (b : Board) :
    b.Reaches P (b.replicateAll blocks now queue met written).1 := by
  fun_induction replicateAll blocks now queue met written b with
  | case1 met written b => exact .refl b
  | case2 met written b o queue h ih => exact ih
  | case3 met written b o queue h hb ih => exact ih
  | case4 met written b o queue h hb b' new heq ih =>
    have one := replicateOne_reaches hP { o with replies := none } now b
    rw [heq] at one
    exact one.trans ih

theorem cascade_reaches (s : Site) (f : Board → String → Board × Nat) (ids : List String) (n : Node)
    (hf : ∀ b id, Board.Reaches P b (f b id).1) :
    n.board.Reaches P (s.cascade f ids n).1.board := by
  have step (c : Site.Cascade) :
      c.board.Reaches P (ids.foldl (s.cascadeStep f) c).board := by
    induction ids generalizing c with
    | nil => exact .refl c.board
    | cons id ids ih =>
      have one : c.board.Reaches P (s.cascadeStep f c id).board := hf c.board id
      exact one.trans (ih _)
  exact step { board := n.board }

theorem setThreadType_reaches {id : String} {type : ObjectType} {k : Nat}
    (h : b.setThreadType id type = .ok (b', k))
    (hP : type.isPost = true → ∀ id, P (.retype id type)) :
    b.Reaches P b' := by
  unfold setThreadType at h
  split at h
  next hp =>
    let retype (c : Board × Nat) (e : Entry) : Board × Nat :=
      ((c.1.setType e.id type).1, c.2 + (c.1.setType e.id type).2)
    have fold (es : List Entry) (c : Board × Nat) : c.1.Reaches P (es.foldl retype c).1 := by
      induction es generalizing c with
      | nil => exact .refl c.1
      | cons e es ih =>
        have one : c.1.Reaches P (retype c e).1 := .single (.retype e.id type) (hP hp e.id)
        exact one.trans (ih _)
    have first : b.Reaches P (b.setType id type).1 := .single (.retype id type) (hP hp id)
    have he : (((b.setType id type).1.children id).foldl retype (b.setType id type)).1 = b' :=
      congrArg Prod.fst (Except.ok.inj h)
    rw [← he]
    exact first.trans (fold _ (b.setType id type))
  next => cases h

end Board

section Minting

variable {P : Write → Prop} {b b' : Board} {draws draws' : List IdSuffix}

theorem addMedia_reaches {now : Instant} {type : ObjectType} {owner media media' : Object}
    (h : Yields (Site.addMedia now type owner media b) draws (media', b') draws')
    (hP : ∀ e now, P (.author e now)) : b.Reaches P b' := by
  obtain ⟨id, ds, -, h⟩ := yields_bind.1 h
  obtain ⟨c, ds₁, hc, h⟩ := yields_bind.1 h
  obtain ⟨he, -⟩ := yields_pure.1 h
  cases he
  exact .insertAuthored (yields_lift.1 hc).1 (hP _ _)

theorem addAllMedia_reaches {now : Instant} {o o' : Object}
    (h : Yields (Site.addAllMedia now o b) draws (o', b') draws')
    (hP : ∀ e now, P (.author e now)) : b.Reaches P b' := by
  have attached {c : Board} {ds : List IdSuffix} {a : Object} {f : Object × Board → Object}
      (h : Yields (do let x ← Site.addMedia now .attachment o a c; pure (f x, x.2)) ds (o', b')
        draws') : c.Reaches P b' := by
    obtain ⟨⟨a, d⟩, ds, hd, h⟩ := yields_bind.1 h
    obtain ⟨he, -⟩ := yields_pure.1 h
    cases he
    exact addMedia_reaches hd hP
  unfold Site.addAllMedia at h
  split at h
  · obtain ⟨he, -⟩ := yields_pure.1 h
    cases he
    exact .refl b
  · dsimp only at h
    split at h
    · obtain ⟨_, ds, hp, h⟩ := yields_bind.1 h
      obtain ⟨rfl, -⟩ := yields_pure.1 hp
      exact attached h
    · obtain ⟨⟨p, c⟩, ds, hp, h⟩ := yields_bind.1 h
      obtain ⟨_, ds₁, hp', h⟩ := yields_bind.1 h
      obtain ⟨rfl, -⟩ := yields_pure.1 hp'
      exact (addMedia_reaches hp hP).trans (attached h)

theorem create_reaches {s : Site} {now : Instant} {draft o : Object}
    (h : Yields (s.create now draft b) draws (o, b') draws') (hP : ∀ w : Write, w.Posts → P w) :
    b.Reaches P b' := by
  obtain ⟨prepared, ds, -, h⟩ := yields_bind.1 h
  obtain ⟨id, ds₁, -, h⟩ := yields_bind.1 h
  obtain ⟨⟨o', c⟩, ds₂, hm, h⟩ := yields_bind.1 h
  obtain ⟨d, ds₃, hd, h⟩ := yields_bind.1 h
  obtain ⟨he, -⟩ := yields_pure.1 h
  cases he
  have media := addAllMedia_reaches hm (fun e now => hP (.author e now) trivial)
  have authored : c.Reaches P d := .insertAuthored (yields_lift.1 hd).1 (hP _ trivial)
  exact (media.trans authored).trans (Board.link_reaches (fun w hw => hP w hw.posts) _ _ d)

end Minting

section Federated

variable {P : Write → Prop} {s : Site} {n n' : Node} {around : Surroundings} {log log' : Log}

theorem replicate_reaches (hP : ∀ w : Write, w.Replicates → P w) (s : Site) (now : Instant)
    (o : Object)
    (b : Board) : b.Reaches P (s.replicate now o b).1 := by
  unfold Site.replicate
  split
  · exact .refl b
  · exact Board.replicateAll_reaches hP s.blocks now [o] [] 0 b

theorem delete_reaches (hP : ∀ id, P (.erase id)) (ids : List String) (n : Node) :
    n.board.Reaches P (s.cascade Board.erase ids n).1.board :=
  Board.cascade_reaches s Board.erase ids n fun _ id => .single (.erase id) (hP id)

theorem tombstone_reaches {now : Instant} (hP : ∀ w : Write, w.Buries s now → P w)
    (ids : List String) (n : Node) : n.board.Reaches P (s.cascade
      (fun b id => b.bury s.config.placeholderHref now.clockMillis id) ids n).1.board :=
  Board.cascade_reaches s _ ids n fun _ id => .single (.bury _ _ id) (hP _ ⟨rfl, rfl⟩)

theorem applied_reaches {now : Instant} {resident : String} {a : Activity}
    {r : Except Fault Outcome} (h : Site.Applied s now resident a n r n')
    (hP : ∀ w : Write, w.Receives s now → (w.AddsReplica → a.verb? = some .create) → P w) :
    n.board.Reaches P n'.board := by
  cases h with
  | failed | ignored | notAdmitted => exact .refl _
  | replicated o hv =>
    exact replicate_reaches (fun w hw => hP w hw.receives fun _ => hv) s now
      (Site.sentObject a.actorId o) n.board
  | updated o => exact .single (.touch o.id _) (hP _ (.inl trivial) False.elim)
  | tombstoned target =>
    refine tombstone_reaches (fun w hw => ?_) [target.target] n
    exact hP w hw.receives fun adds => absurd adds hw.not_addsReplica
  | followed => exact .single (.follow resident a.actorId true) (hP _ trivial False.elim)
  | unfollowed => exact .single (.follow resident a.actorId false) (hP _ trivial False.elim)

theorem serve_reaches {time : Time} {resident : String} {r : RequestHead} {body : Bytes}
    {cache : KeyCache} (hP : ∀ w : Write, w.Receives s time.now → P w) (n : Node) (log : Log) :
    n.board.Reaches P ((s.serve around time resident r body cache).run (n, log)).2.1.board := by
  rcases Site.serve_cases s around time resident r body cache n log with ⟨f, -, h⟩ | ⟨a, -, -, h⟩
  · rw [h]
    exact .refl n.board
  · exact applied_reaches h fun w hw _ => hP w hw

theorem publish_reaches {now : Instant} {draft : Object} {draws : Draws} {published : Published}
    (h : ((s.publish around now draft n draws).run log).1.1 = .ok (published, n'))
    (hP : ∀ w : Write, w.Posts → P w) : n.board.Reaches P n'.board := by
  obtain ⟨actor, suffixes, -, hc, -⟩ := Site.publish_eq_ok h
  exact create_reaches hc hP

end Federated

theorem Node.commit_reaches {P : Write → Prop} {n : Node} {α : Type} {x : Except Fault (α × Board)}
    (h : ∀ a b, x = .ok (a, b) → n.board.Reaches P b) : n.board.Reaches P (n.commit x).board := by
  rcases x with f | ⟨a, b⟩
  · exact .refl n.board
  · exact h a b rfl

theorem Node.after_reaches {P : Write → Prop} {n : Node} {α : Type} {x : Except Fault (α × Node)}
    (h : ∀ a n', x = .ok (a, n') → n.board.Reaches P n'.board) :
    n.board.Reaches P (n.after x).board := by
  rcases x with f | ⟨a, n'⟩
  · exact .refl n.board
  · exact h a n' rfl

namespace Operation

/-- An operation changes the tables by writes that it may make. -/
theorem perform_reaches (s : Site) (op : Operation) (n : Node) :
    n.board.Reaches (op.Allows s) (op.perform s n).board := by
  cases op with
  | create now draws draft =>
    refine Node.commit_reaches fun o b h => ?_
    exact create_reaches (yields_of_run h) fun _ hw => hw
  | replicate now o => exact replicate_reaches (fun _ hw => hw) s now o n.board
  | update now id time => exact .single (.touch id _) ⟨_, rfl⟩
  | tombstone now id => exact tombstone_reaches (fun _ hw => hw) [id] n
  | tombstoneThread now id => exact tombstone_reaches (fun _ hw => hw) _ n
  | delete id => exact delete_reaches (fun _ => trivial) [id] n
  | deleteThread id => exact delete_reaches (fun _ => trivial) _ n
  | mark f actor id => exact .single (.flag f actor id) rfl
  | setThreadType id type =>
    refine Node.commit_reaches fun k b h => ?_
    rcases hs : n.board.setThreadType id type with f | ⟨b', k'⟩
    · rw [hs] at h
      cases h
    · rw [hs] at h
      cases h
      exact Board.setThreadType_reaches hs fun hp id => ⟨hp, id, rfl⟩
  | markSensitive id sensitive => exact .single (.setSensitive id sensitive) rfl
  | updatePreview attachment preview => exact .single (.setPreview attachment preview) rfl
  | report id reason => exact .single (.report id reason) rfl
  | receive around now log resident a =>
    exact applied_reaches (Site.apply_ends log) fun _ hw _ => hw
  | inbox around time log resident r body cache => exact serve_reaches (fun _ hw => hw) n log
  | publish around now log draws draft =>
    exact Node.after_reaches fun p n' h => publish_reaches h fun _ hw => hw
  | deleteAll around log draws id =>
    refine Node.after_reaches fun report n' h => ?_
    have he : (s.delete id n).1 = n' := congrArg Prod.fst (Site.deleteAll_eq_ok h).2
    exact he ▸ delete_reaches (fun _ => trivial) [id] n

/-- A run changes the tables by writes that one of its operations may make. -/
theorem run_reaches {P : Write → Prop} (s : Site) (ops : List Operation)
    (hP : ∀ op ∈ ops, ∀ w, op.Allows s w → P w) (n : Node) :
    n.board.Reaches P (run s ops n).board := by
  induction ops generalizing n with
  | nil => exact .refl n.board
  | cons op ops ih =>
    have first := (perform_reaches s op n).mono (hP op List.mem_cons_self)
    exact first.trans (ih (fun op' h => hP op' (List.mem_cons_of_mem op h)) _)

end Operation

end Imageboard
