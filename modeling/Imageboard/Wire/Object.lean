import Imageboard.Json.Value
import Imageboard.Text.Blank
import Imageboard.Time.Instant
import Imageboard.Wire.ObjectType

namespace Imageboard

def vocabulary : String := "https://www.w3.org/ns/activitystreams"

def everyone : String := "https://www.w3.org/ns/activitystreams#Public"

structure PublicKey where
  id : String := ""
  owner : String := ""
  pem : String := ""
deriving DecidableEq, Repr

structure Actor where
  type : String := ""
  id : String := ""
  inbox : String := ""
  outbox : String := ""
  following : String := ""
  followers : String := ""
  name : String := ""
  preferredUsername : String := ""
  publicKey : Option PublicKey := none
  summary : String := ""
  restricted : Bool := false
deriving DecidableEq, Repr

namespace Actor

def board (domain name summary : String) : Actor :=
  let id := Text.trimEndOf '/' domain ++ "/" ++ name
  { type := "Group"
    id
    inbox := id ++ "/inbox"
    outbox := id ++ "/outbox"
    following := id ++ "/following"
    followers := id ++ "/followers"
    name
    preferredUsername := name
    summary }

def mainKey (actorId : String) : String :=
  actorId ++ "#main-key"

def keyId (a : Actor) : String :=
  mainKey a.id

end Actor

structure Listing (α : Type) where
  actor : Option Actor := none
  summary : String := ""
  type : String := ""
  totalItems : UInt64 := 0
  totalImages : UInt64 := 0
  orderedItems : List α := []
  items : List α := []

/-- A post, a piece of media, or what is left of one. A bare reference carries its id alone. -/
structure Object where
  type : Option ObjectType := none
  id : String := ""
  name : String := ""
  /-- Wishes of the poster such as `sage`. They stay on the board that they were made on. -/
  options : List String := []
  attributedTo : String := ""
  tripcode : String := ""
  actor : String := ""
  content : String := ""
  inReplyTo : List Object := []
  preview : Option Object := none
  published : Option Instant := none
  updated : Option Instant := none
  attachment : List Object := []
  replies : Option (Listing Object) := none
  summary : String := ""
  href : String := ""
  addressees : List String := []
  cc : List String := []
  mediaType : String := ""
  size : Int64 := 0
  sensitive : Bool := false
  sticky : Bool := false
  locked : Bool := false

namespace Object

instance : Inhabited Object := ⟨{}⟩

def reference (id : String) : Object :=
  { id }

/-- The trimmed id of the first entry of `inReplyTo`, if it is not blank. -/
def replyParent? (o : Object) : Option String :=
  match o.inReplyTo with
  | [] => none
  | p :: _ =>
    let id := Text.trim p.id
    if id = "" then none else some id

def hasOption (o : Object) (wish : String) : Bool :=
  o.options.any (Text.sameLetters wish)

end Object

structure Collection where
  context : Option Json.Value := none
  listing : Listing Object := {}

def Collection.of (listing : Listing Object) : Collection :=
  { context := some (.str vocabulary), listing }

inductive ActorRef where
  | bare (id : String)
  | actor (a : Actor)

def ActorRef.target : ActorRef → String
  | .bare id => id
  | .actor a => a.id

inductive ObjectRef where
  | bare (id : String)
  | object (o : Object)

namespace ObjectRef

def target : ObjectRef → String
  | .bare id => id
  | .object o => o.id

def object? : ObjectRef → Option Object
  | .bare _ => none
  | .object o => some o

end ObjectRef

structure Activity where
  context : Option Json.Value := none
  type : String := ""
  id : String := ""
  actor : Option ActorRef := none
  name : String := ""
  summary : String := ""
  addressees : List String := []
  cc : List String := []
  published : Option Instant := none
  object : Option ObjectRef := none

namespace Activity

def verb? (a : Activity) : Option Verb :=
  Verb.ofText? a.type

/-- The id of the actor; empty where none is named. -/
def actorId (a : Activity) : String :=
  match a.actor with
  | some r => r.target
  | none => ""

def object? (a : Activity) : Option Object :=
  a.object.bind ObjectRef.object?

end Activity
end Imageboard
