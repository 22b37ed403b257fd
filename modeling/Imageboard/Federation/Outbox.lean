import Imageboard.Federation.Inbox
import Imageboard.Lifecycle.Create
import Imageboard.Wire.Envelope

namespace Imageboard

/-- Suffixes for new ids and bytes for the ids of activities, as they are drawn. -/
structure Draws where
  suffixes : List IdSuffix := []
  activities : List Bytes := []

structure Published where
  post : Object
  delivery : DeliveryReport

namespace Site

/-- Tells the audience of an actor. Without an audience the recipients of the activity itself are
told; where nothing can be sent, all of them count as failed. -/
def broadcast (around : Surroundings) (n : Node) (a : Activity) (actor : String) :
    StateM Log DeliveryReport := do
  let a := match ← (around.graph.audience n.board actor).run with
    | .ok more => a.addRecipients more
    | .error _ => a
  match ← (around.sender n a a.addressees).run with
  | .ok report => return report
  | .error _ => return { failed := a.addressees }

/-- Tells the staff of a post; a failure is of no consequence. -/
def notify (around : Surroundings) (b : Board) (post : Object) : StateM Log Unit := do
  match around.notifier with
  | none => return ()
  | some tell =>
    let staff := b.staffAddresses
    if staff.isEmpty then return ()
    else
      let _ ← (tell staff post).run
      return ()

def Draws.next (d : Draws) : Bytes × Draws :=
  (d.activities.headD [], { d with activities := d.activities.tail })

def publish (s : Site) (around : Surroundings) (now : Instant) (draft : Object) (n : Node)
    (draws : Draws) : StateM Log (Except Fault (Published × Node) × Draws) := do
  match n.actor draft.actor with
  | .error f => return (.error f, draws)
  | .ok none => return (.error (.refused (.notProvisioned draft.actor)), draws)
  | .ok (some actor) =>
    let (created, suffixes) := (s.create now draft n.board).run.run draws.suffixes
    let draws := { draws with suffixes }
    match created with
    | .error f => return (.error f, draws)
    | .ok (post, board) =>
      let n := { n with board }
      let (drawn, draws) := Draws.next draws
      let delivery ← broadcast around n (.wrap .create post actor drawn) actor.id
      notify around n.board post
      return (.ok ({ post, delivery }, n), draws)

/-- Tells the audience of its author that an object is gone, if the author is hosted here, and takes
it out. -/
def deleteAll (s : Site) (around : Surroundings) (id : String) (n : Node) (draws : Draws) :
    StateM Log (Except Fault (CascadeReport × Node) × Draws) := do
  match n.board.get id with
  | none => return (.error (.refused (.nothingToDelete id)), draws)
  | some e =>
    let draws ← match n.actor e.actor with
      | .ok (some actor) => do
        let (drawn, draws) := Draws.next draws
        let _ ← broadcast around n (.wrap .delete e.toWire actor drawn) actor.id
        pure draws
      | _ => pure draws
    let (n, report) := s.delete id n
    return (.ok (report, n), draws)

end Site
end Imageboard
