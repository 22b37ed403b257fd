import Imageboard.Federation.Audience
import Imageboard.Federation.Delivery
import Imageboard.Federation.KeyResolver
import Imageboard.Federation.Serving
import Imageboard.Lifecycle.Cascade
import Imageboard.Lifecycle.Replicate

namespace Imageboard

abbrev Notifier := List String → Object → Outward Unit

structure Surroundings where
  web : Web
  graph : SocialGraph
  sender : Sender
  notifier : Option Notifier := none

/-- The clock, and a count of milliseconds that never goes back. -/
structure Time where
  now : Instant
  tick : Int := 0

inductive Outcome where
  | replicated (what : Replication)
  | notAdmitted
  | updated (rows : Nat)
  | tombstoned (report : CascadeReport)
  | followed (added : Bool)
  | unfollowed (removed : Bool)
  | ignored
deriving DecidableEq, Repr

namespace Site

/-- All of a request that can be checked without its key: the signature header and the text that it
covers, with the key if that is registered here. -/
def examine (s : Site) (now : Instant) (n : Node) (r : RequestHead) (body : Bytes) :
    Except Fault (SignatureHeader × String × Option PublicKey) := do
  (RequestHead.checkDigest r.headers body).doing .checkingDigest
  (RequestHead.checkDate r.headers s.config.dateSkew now).doing .checkingDate
  let header := SignatureHeader.parse (← r.signatureText)
  header.check.doing .checkingSignature
  let text ← (r.signingString header.signedHeaders).doing .checkingSignedHeaders
  return (header, text, ← n.publicKey header.keyId)

def vouch (header : SignatureHeader) (text actor pem : String) : Except Fault String := do
  let signature ← header.bytes
  (verifySignature pem text signature).doing (.verifyingFor header.keyId)
  return actor

/-- The actor who signed a request, and the keys known after it. The key is one that is registered
here, or else the one that the actor publishes. -/
def authenticate (s : Site) (web : Web) (time : Time) (n : Node) (r : RequestHead) (body : Bytes)
    (cache : KeyCache) : StateM Log (Except Fault String × KeyCache) := do
  match s.examine time.now n r body with
  | .error f => return (.error f, cache)
  | .ok (header, text, some key) => return (vouch header text key.owner key.pem, cache)
  | .ok (header, text, none) =>
    match ← resolveKey web time.tick header.keyId cache with
    | (.error f, cache) => return (.error (f.doing (.resolvingKey header.keyId)), cache)
    | (.ok key, cache) => return (vouch header text key.actorUrl key.pem, cache)

def ownsReplica (b : Board) (id actor : String) : Bool :=
  match b.getIn .replica id with
  | some e => e.actor == actor
  | none => false

def setFollower (resident actor : String) (follows : Bool) : Serving Bool := do
  if Text.isBlankText actor then throw (.refused .followWithoutActor)
  else if !(← Serving.board).hosts resident then throw (.refused (.notHosted resident))
  else if follows then Serving.changeBoard (·.addContact .follower resident actor)
  else Serving.changeBoard (·.removeContact .follower resident actor)

/-- An object that an actor sends, by the sender if it names no actor. -/
def sentObject (sender : String) (o : Object) : Object :=
  if o.actor = "" then { o with actor := sender } else o

/-- A new object that an actor sends for a resident. It has to be the actor's own. -/
def applyCreate (s : Site) (around : Surroundings) (now : Instant) (resident sender : String)
    (a : Activity) : Serving Outcome := do
  match a.object? with
  | none => throw (.refused (.createWithoutObject a.id))
  | some o =>
    let o := sentObject sender o
    if o.actor ≠ sender then return .ignored
    else if ← Serving.outward (around.graph.admits (← Serving.board) o resident) then
      return .replicated (← Serving.changeBoard (s.replicate now o))
    else return .notAdmitted

def apply (s : Site) (around : Surroundings) (now : Instant) (resident : String) (a : Activity) :
    Serving Outcome := do
  let sender := a.actorId
  match a.verb? with
  | some .create => s.applyCreate around now resident sender a
  | some .update =>
    match a.object? with
    | none => return .ignored
    | some o =>
      if ownsReplica (← Serving.board) o.id sender then
        return .updated (← Serving.changeBoard (·.touch o.id (o.updated.getD now)))
      else return .ignored
  | some .delete =>
    match a.object with
    | none => return .ignored
    | some target =>
      if ownsReplica (← Serving.board) target.target sender then
        return .tombstoned (← Serving.change (s.tombstone now target.target))
      else return .ignored
  | some .follow =>
    if (a.object.map ObjectRef.target) = some resident then
      return .followed (← setFollower resident sender true)
    else return .ignored
  | some .undo =>
    if ((a.object?.bind Object.type).map ObjectType.text) = some "Follow" then
      return .unfollowed (← setFollower resident sender false)
    else return .ignored
  | some .accept | some .reject | none => return .ignored

def readActivity (signer : String) (body : Bytes) : Except Fault Activity := do
  let a ← (((Json.ofBytes? body).bind (Activity.decode? maxDepth)).orBreak .json).doing
    .parsingActivity
  if a.actorId = signer then return a else throw (.refused (.actorMismatch a.actorId signer))

def serve (s : Site) (around : Surroundings) (time : Time) (resident : String) (r : RequestHead)
    (body : Bytes) (cache : KeyCache) : StateM (Node × Log) (Except Fault Outcome × KeyCache) := do
  let (n, log) ← get
  let ((signer, cache), log) := (s.authenticate around.web time n r body cache).run log
  set (n, log)
  match signer.bind (readActivity · body) with
  | .error f => return (.error f, cache)
  | .ok a => return (← (s.apply around time.now resident a).run, cache)

def receive (s : Site) (around : Surroundings) (now : Instant) (resident : String) (a : Activity)
    (n : Node) : Outward (Outcome × Node) :=
  Serving.settle (s.apply around now resident a) n

def inbox (s : Site) (around : Surroundings) (time : Time) (resident : String) (r : RequestHead)
    (body : Bytes) (n : Node) (cache : KeyCache) :
    StateM Log (Except Fault (Outcome × Node) × KeyCache) := fun log =>
  let ((result, cache), n, log) := (s.serve around time resident r body cache).run (n, log)
  ((result.map (·, n), cache), log)

end Site
end Imageboard
