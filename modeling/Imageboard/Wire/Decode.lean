import Imageboard.Json.Parser
import Imageboard.Json.Record
import Imageboard.Time.Rfc3339
import Imageboard.Wire.Object

namespace Imageboard

open Json (Value Members)

def maxDepth : Nat := 127

namespace Json.Value

def instant? : Value → Option (Option Instant) :=
  nullable? fun v => v.text?.bind Rfc3339.parse?

def objectType? : Value → Option (Option ObjectType)
  | .null => some none
  | .str s => some (if Text.isBlankText s then none else some (.ofText s))
  | _ => none

end Json.Value

open Json.Value

def PublicKey.fields : List String := ["id", "owner", "publicKeyPem"]

def PublicKey.decode? (depth : Nat) (v : Value) : Option PublicKey := do
  if depth = 0 then none
  else
    let ms ← v.members? PublicKey.fields
    return {
      id := ← ms.text "id"
      owner := ← ms.text "owner"
      pem := ← ms.text "publicKeyPem" }

def Actor.fields : List String :=
  ["type", "id", "inbox", "outbox", "following", "followers", "name", "preferredUsername",
   "publicKey", "summary", "restricted"]

def Actor.decode? (depth : Nat) (v : Value) : Option Actor := do
  if depth = 0 then none
  else
    let ms ← v.members? Actor.fields
    return {
      type := ← ms.text "type"
      id := ← ms.text "id"
      inbox := ← ms.text "inbox"
      outbox := ← ms.text "outbox"
      following := ← ms.text "following"
      followers := ← ms.text "followers"
      name := ← ms.text "name"
      preferredUsername := ← ms.text "preferredUsername"
      publicKey := ← ms.read "publicKey" none (nullable? (PublicKey.decode? (depth - 1)))
      summary := ← ms.text "summary"
      restricted := ← ms.flag "restricted" }

def Json.Members.texts (ms : Members) (depth : Nat) (field : String) : Option (List String) :=
  ms.read field [] fun v => if depth = 0 then none else v.texts?

def Object.fields : List String :=
  ["type", "id", "name", "attributedTo", "tripcode", "actor", "content", "inReplyTo", "preview",
   "published", "updated", "attachment", "replies", "summary", "href", "to", "cc", "mediatype",
   "size", "sensitive", "sticky", "locked"]

def Listing.fields : List String :=
  ["actor", "summary", "type", "totalItems", "totalImgs", "orderedItems", "items"]

mutual

def Object.decode? : Nat → Value → Option Object
  | 0, _ => none
  | depth + 1, v => do
    let ms ← v.members? Object.fields
    return {
      type := ← ms.read "type" none objectType?
      id := ← ms.text "id"
      name := ← ms.text "name"
      attributedTo := ← ms.text "attributedTo"
      tripcode := ← ms.text "tripcode"
      actor := ← ms.text "actor"
      content := ← ms.text "content"
      inReplyTo := ← ms.read "inReplyTo" [] (Object.decodeAll? depth)
      preview := ← ms.read "preview" none (nullable? (Object.decode? depth))
      published := ← ms.read "published" none instant?
      updated := ← ms.read "updated" none instant?
      attachment := ← ms.read "attachment" [] (Object.decodeAll? depth)
      replies := ← ms.read "replies" none (nullable? (Object.decodeListing? depth))
      summary := ← ms.text "summary"
      href := ← ms.text "href"
      addressees := ← ms.texts depth "to"
      cc := ← ms.texts depth "cc"
      mediaType := ← ms.text "mediatype"
      size := ← ms.read "size" 0 int64?
      sensitive := ← ms.flag "sensitive"
      sticky := ← ms.flag "sticky"
      locked := ← ms.flag "locked" }

def Object.decodeAll? : Nat → Value → Option (List Object)
  | depth + 1, .arr vs => vs.mapM (Object.decode? depth)
  | _, _ => none

def Object.decodeListing? : Nat → Value → Option (Listing Object)
  | 0, _ => none
  | depth + 1, v => do
    let ms ← v.members? Listing.fields
    return {
      actor := ← ms.read "actor" none (nullable? (Actor.decode? depth))
      summary := ← ms.text "summary"
      type := ← ms.text "type"
      totalItems := ← ms.read "totalItems" 0 word64?
      totalImages := ← ms.read "totalImgs" 0 word64?
      orderedItems := ← ms.read "orderedItems" [] (Object.decodeAll? depth)
      items := ← ms.read "items" [] (Object.decodeAll? depth) }

end

/-- Context and listing share one object, which cannot be written as an array; the members of
other names are held to the same bounds. -/
def Collection.decode? (depth : Nat) (v : Value) : Option Collection := do
  match v with
  | .obj members =>
    if depth = 0 then none
    else
      let ms ← v.members? ("@context" :: Listing.fields)
      let context ← ms.read "@context" none (any? (depth - 1))
      if fitsMembers (members.filter fun m => m.1 != "@context") (depth - 1) then
        return { context, listing := ← Object.decodeListing? depth v }
      else none
  | _ => none

/-- A text is an id; all else is an actor, and all of it has to be usable. -/
def ActorRef.decode? (depth : Nat) (v : Value) : Option ActorRef :=
  match v with
  | .str s => some (.bare s)
  | v => if v.fits depth then (Actor.decode? depth v).map .actor else none

def ObjectRef.decode? (depth : Nat) (v : Value) : Option ObjectRef :=
  match v with
  | .str s => some (.bare s)
  | v => if v.fits depth then (Object.decode? depth v).map .object else none

def Activity.fields : List String :=
  ["@context", "type", "id", "actor", "name", "summary", "to", "cc", "published", "object"]

def Activity.decode? (depth : Nat) (v : Value) : Option Activity := do
  if depth = 0 then none
  else
    let depth := depth - 1
    let ms ← v.members? Activity.fields
    return {
      context := ← ms.read "@context" none (any? depth)
      type := ← ms.required "type" text?
      id := ← ms.text "id"
      actor := ← ms.read "actor" none (nullable? (ActorRef.decode? depth))
      name := ← ms.text "name"
      summary := ← ms.text "summary"
      addressees := ← ms.texts depth "to"
      cc := ← ms.texts depth "cc"
      published := ← ms.read "published" none instant?
      object := ← ms.read "object" none (nullable? (ObjectRef.decode? depth)) }

def Object.parse? (s : String) : Option Object :=
  (Json.parse? s).bind (Object.decode? maxDepth)

def Collection.parse? (s : String) : Option Collection :=
  (Json.parse? s).bind (Collection.decode? maxDepth)

def Actor.parse? (s : String) : Option Actor :=
  (Json.parse? s).bind (Actor.decode? maxDepth)

def Activity.parse? (s : String) : Option Activity :=
  (Json.parse? s).bind (Activity.decode? maxDepth)

end Imageboard
