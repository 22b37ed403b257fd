import Imageboard.Board.Table
import Imageboard.Wire.Object

namespace Imageboard

/-- Where a copy comes from: written here, or a replica from another node. -/
inductive Tier where
  | authored
  | replica
deriving DecidableEq, Repr

/-- All columns of an object. Times are milliseconds since 1970; an empty `attachment` or `preview`
means none. -/
structure Row where
  id : String
  type : String
  name : String := ""
  content : String := ""
  attributedTo : String := ""
  tripcode : String := ""
  actor : String := ""
  published : Int
  updated : Option Int := none
  deleted : Option Int := none
  attachment : String := ""
  preview : String := ""
  href : String := ""
  mediaType : String := ""
  size : Int64 := 0
  sensitive : Bool := false
deriving DecidableEq, Repr

instance : Keyed Row := ⟨fun r => [r.id]⟩

namespace Row

def isPost (r : Row) : Bool :=
  r.type == "Note" || r.type == "Archive"

def isTombstone (r : Row) : Bool :=
  r.type == "Tombstone"

def activity (r : Row) : Int :=
  r.updated.getD r.published

/-- The ids of the media of a row; empty ones among them. -/
def media (r : Row) : List String :=
  [r.attachment, r.preview]

end Row

inductive Payload where
  | post (archived : Bool) (name content attributedTo tripcode : String)
  | media (type : ObjectType) (name href mediaType : String) (size : Int64) (attributedTo : String)
  | tombstone (deleted : Option Instant) (href mediaType : String)
deriving DecidableEq

structure Entry where
  tier : Tier
  id : String
  actor : String
  published : Instant
  updated : Option Instant
  attachment : Option String
  preview : Option String
  sensitive : Bool
  payload : Payload
deriving DecidableEq

def nonEmpty? (s : String) : Option String :=
  if s = "" then none else some s

namespace Entry

def type (e : Entry) : ObjectType :=
  match e.payload with
  | .post true .. => .archive
  | .post false .. => .note
  | .media type .. => type
  | .tombstone .. => .tombstone

def isPost (e : Entry) : Bool :=
  e.payload matches .post ..

def isTombstone (e : Entry) : Bool :=
  e.payload matches .tombstone ..

def href? (e : Entry) : Option String :=
  match e.payload with
  | .post .. => none
  | .media _ _ href .. | .tombstone _ href _ => nonEmpty? href

/-- The entry for a wire object. An object without a type is a note, one without a date is of
now. -/
def ofWire (o : Object) (tier : Tier) (now : Instant) : Entry :=
  let published := o.published.getD now
  { tier
    id := o.id
    actor := o.actor
    published
    updated := some (o.updated.getD published)
    attachment := o.attachment.head?.bind fun a => nonEmpty? a.id
    preview := o.preview.bind fun p => nonEmpty? p.id
    sensitive := o.sensitive
    payload :=
      match o.type.getD .note with
      | .tombstone => .tombstone o.updated o.href o.mediaType
      | .note => .post false o.name o.content o.attributedTo o.tripcode
      | .archive => .post true o.name o.content o.attributedTo o.tripcode
      | type => .media type o.name o.href o.mediaType o.size o.attributedTo }

/-- The wire object of an entry, with its media as bare references. The date of a removal stands as
the last change. -/
def toWire (e : Entry) : Object :=
  let base : Object :=
    { type := some e.type
      id := e.id
      actor := e.actor
      published := some e.published
      updated := e.updated
      attachment := e.attachment.toList.map Object.reference
      preview := e.preview.map Object.reference
      sensitive := e.sensitive }
  match e.payload with
  | .post _ name content attributedTo tripcode =>
    { base with name, content, attributedTo, tripcode }
  | .media _ name href mediaType size attributedTo =>
    { base with name, href, mediaType, size, attributedTo }
  | .tombstone deleted href mediaType =>
    { base with href, mediaType, updated := deleted.orElse fun _ => e.updated }

end Entry

def removedAuthor : String := "deleted"

def Row.ofEntry (e : Entry) (now : Instant) : Row :=
  let base : Row :=
    { id := e.id
      type := e.type.text
      actor := e.actor
      published := e.published.millis
      updated := e.updated.map Instant.millis
      attachment := e.attachment.getD ""
      preview := e.preview.getD ""
      sensitive := e.sensitive }
  match e.payload with
  | .post _ name content attributedTo tripcode =>
    { base with name, content, attributedTo, tripcode }
  | .media _ name href mediaType size attributedTo =>
    { base with name, href, mediaType, size, attributedTo }
  | .tombstone deleted href mediaType =>
    { base with
      href, mediaType
      attributedTo := removedAuthor
      deleted := some ((deleted.map Instant.millis).getD now.clockMillis) }

/-- The entry that a row of a tier shows. A date out of range counts as none, or as 1970. -/
def Row.entry (r : Row) (tier : Tier) : Entry :=
  { tier
    id := r.id
    actor := r.actor
    published := (Instant.ofMillis? r.published).getD .epoch
    updated := r.updated.bind Instant.ofMillis?
    attachment := nonEmpty? r.attachment
    preview := nonEmpty? r.preview
    sensitive := r.sensitive
    payload :=
      match ObjectType.ofText r.type with
      | .tombstone => .tombstone (r.deleted.bind Instant.ofMillis?) r.href r.mediaType
      | .note => .post false r.name r.content r.attributedTo r.tripcode
      | .archive => .post true r.name r.content r.attributedTo r.tripcode
      | type => .media type r.name r.href r.mediaType r.size r.attributedTo }

end Imageboard
