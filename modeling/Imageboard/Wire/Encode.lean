import Imageboard.Json.Printer
import Imageboard.Time.Rfc3339
import Imageboard.Wire.Object

namespace Imageboard

open Json (Value Members)

namespace Json.Members

def ofText (name s : String) : Members :=
  if s = "" then [] else [(name, .str s)]

def ofFlag (name : String) (b : Bool) : Members :=
  if b then [(name, .bool true)] else []

def ofTexts (name : String) (ss : List String) : Members :=
  if ss.isEmpty then [] else [(name, .arr (ss.map .str))]

def ofInstant (name : String) : Option Instant → Members
  | none => []
  | some t => [(name, .str (Rfc3339.render t))]

def ofWord (name : String) (n : UInt64) : Members :=
  if n = 0 then [] else [(name, .num (.int n.toNat))]

def ofInt64 (name : String) (n : Int64) : Members :=
  if n = 0 then [] else [(name, .num (.int n.toInt))]

def ofValues (name : String) (vs : List Value) : Members :=
  if vs.isEmpty then [] else [(name, .arr vs)]

def ofValue? (name : String) : Option Value → Members
  | none => []
  | some v => [(name, v)]

end Json.Members

open Json.Members

def PublicKey.encode (k : PublicKey) : Value :=
  .obj (ofText "id" k.id ++ ofText "owner" k.owner ++ ofText "publicKeyPem" k.pem)

/-- `restricted` is always written. -/
def Actor.encode (a : Actor) : Value :=
  .obj (ofText "type" a.type ++ ofText "id" a.id ++ ofText "inbox" a.inbox ++
    ofText "outbox" a.outbox ++ ofText "following" a.following ++
    ofText "followers" a.followers ++ ofText "name" a.name ++
    ofText "preferredUsername" a.preferredUsername ++
    ofValue? "publicKey" (a.publicKey.map PublicKey.encode) ++ ofText "summary" a.summary ++
    [("restricted", .bool a.restricted)])

mutual

def Object.encode : Object → Value
  | { type, id, name, options := _, attributedTo, tripcode, actor, content, inReplyTo, preview,
      published, updated, attachment, replies, summary, href, addressees, cc, mediaType, size,
      sensitive, sticky, locked } =>
    .obj (ofValue? "type" (type.map fun t => .str t.text) ++ ofText "id" id ++
      ofText "name" name ++ ofText "attributedTo" attributedTo ++ ofText "tripcode" tripcode ++
      ofText "actor" actor ++ ofText "content" content ++
      ofValues "inReplyTo" (Object.encodeAll inReplyTo) ++
      (match preview with
        | none => []
        | some p => [("preview", Object.encode p)]) ++
      ofInstant "published" published ++ ofInstant "updated" updated ++
      ofValues "attachment" (Object.encodeAll attachment) ++
      (match replies with
        | none => []
        | some l => [("replies", .obj (Object.encodeListing l))]) ++
      ofText "summary" summary ++ ofText "href" href ++ ofTexts "to" addressees ++
      ofTexts "cc" cc ++ ofText "mediatype" mediaType ++ ofInt64 "size" size ++
      ofFlag "sensitive" sensitive ++ ofFlag "sticky" sticky ++ ofFlag "locked" locked)

def Object.encodeAll : List Object → List Value
  | [] => []
  | o :: os => Object.encode o :: Object.encodeAll os

def Object.encodeListing : Listing Object → Members
  | { actor, summary, type, totalItems, totalImages, orderedItems, items } =>
    ofValue? "actor" (actor.map Actor.encode) ++ ofText "summary" summary ++
      ofText "type" type ++ ofWord "totalItems" totalItems ++ ofWord "totalImgs" totalImages ++
      ofValues "orderedItems" (Object.encodeAll orderedItems) ++
      ofValues "items" (Object.encodeAll items)

end

/-- The listing's members follow the context on the same level. -/
def Collection.encode (c : Collection) : Value :=
  .obj (ofValue? "@context" c.context ++ Object.encodeListing c.listing)

def ActorRef.encode : ActorRef → Value
  | .bare id => .str id
  | .actor a => a.encode

def ObjectRef.encode : ObjectRef → Value
  | .bare id => .str id
  | .object o => o.encode

def Activity.encode (a : Activity) : Value :=
  .obj (ofValue? "@context" a.context ++ [("type", .str a.type)] ++ ofText "id" a.id ++
    ofValue? "actor" (a.actor.map ActorRef.encode) ++ ofText "name" a.name ++
    ofText "summary" a.summary ++ ofTexts "to" a.addressees ++ ofTexts "cc" a.cc ++
    ofInstant "published" a.published ++ ofValue? "object" (a.object.map ObjectRef.encode))

end Imageboard
