import Imageboard.Lifecycle.Linking
import Imageboard.Site
import Imageboard.Tripcode

namespace Imageboard

/-- Work that draws fresh ids and may fail; what was drawn stays drawn. -/
abbrev Minting := ExceptT Fault (StateM (List IdSuffix))

namespace Minting

def id (b : Board) (actor : String) : Minting String := do
  match b.mint? actor (← get) with
  | some (id, draws) =>
    set draws
    return id
  | none =>
    set ([] : List IdSuffix)
    throw (.refused .noFreshId)

end Minting

namespace Site

/-- A draft that can be posted: with an actor, at most one attachment and the type of a post; its
name split into name and tripcode, its dates set, its preview only beside an attachment. -/
def prepare (s : Site) (now : Instant) (draft : Object) : Except Fault Object := do
  if Text.isBlankText draft.actor then .error (.refused .createWithoutActor)
  else if 1 < draft.attachment.length then
    .error (.refused (.createAttachments draft.attachment.length))
  else
    let type := draft.type.getD .note
    if !type.isPost then .error (.refused (.createNotPost type.text))
    else
      let signed ← if draft.tripcode = "" then Tripcode.ofName draft.name s.config.tripcodeSalt
        else .ok ⟨draft.name, draft.tripcode⟩
      let published := draft.published.getD now
      return { draft with
        type := some type
        name := signed.name
        tripcode := signed.trip
        published := some published
        updated := some published
        preview := if draft.attachment.isEmpty then none
          else draft.preview.filter fun p => p.href != "" }

def addMedia (now : Instant) (type : ObjectType) (owner : Object) (media : Object) (b : Board) :
    Minting (Object × Board) := do
  let id ← Minting.id b owner.actor
  let media := { media with
    id
    type := some (media.type.getD type)
    actor := owner.actor
    published := some now
    updated := some now
    attributedTo := owner.id }
  let b ← b.insertAuthored (.ofWire media .authored now) now
  return (media, b)

def addAllMedia (now : Instant) (o : Object) (b : Board) : Minting (Object × Board) := do
  match o.attachment with
  | [] => return (o, b)
  | a :: rest =>
    let (preview, b) ← match o.preview with
      | none => pure (none, b)
      | some p => do
        let (p, b) ← addMedia now .preview o p b
        pure (some p, b)
    let (a, b) ← addMedia now .attachment o a b
    return ({ o with preview, attachment := a :: rest }, b)

def post (now : Instant) (o : Object) (b : Board) : Minting (Object × Board) := do
  let id ← Minting.id b o.actor
  let (o, b) ← addAllMedia now { o with id } b
  let b ← b.insertAuthored (.ofWire o .authored now) now
  let (b, archived) := b.link o (o.published.getD now)
  return (if archived then { o with type := some .archive } else o, b)

def create (s : Site) (now : Instant) (draft : Object) (b : Board) : Minting (Object × Board) := do
  post now (← s.prepare now draft) b

end Site
end Imageboard
