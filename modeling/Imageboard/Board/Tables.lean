import Imageboard.Board.Basic
import Imageboard.Json.Printer
import Imageboard.Json.Parser

namespace Imageboard.Board

open Json (Value Members)

def textColumn (name s : String) : Members :=
  [(name, .str s)]

def numberColumn (name : String) (n : Int) : Members :=
  [(name, .num (.int n))]

def timeColumn (name : String) : Option Int → Members
  | some n => numberColumn name n
  | none => [(name, .null)]

def rowColumns (r : Row) : Members :=
  textColumn "id" r.id ++ textColumn "type" r.type ++ textColumn "name" r.name ++
    textColumn "content" r.content ++ textColumn "attributedto" r.attributedTo ++
    textColumn "tripcode" r.tripcode ++ textColumn "actor" r.actor ++
    numberColumn "published_ms" r.published ++ timeColumn "updated_ms" r.updated ++
    timeColumn "deleted_ms" r.deleted ++ textColumn "attachment" r.attachment ++
    textColumn "preview" r.preview ++ textColumn "href" r.href ++
    textColumn "mediatype" r.mediaType ++ numberColumn "size" r.size.toInt ++
    numberColumn "sensitive" (if r.sensitive then 1 else 0)

def edgeColumns (e : Edge) : Members :=
  textColumn "id" e.child ++ textColumn "inreplyto" e.parent

def markColumns (m : Mark) : Members :=
  textColumn "actor_id" m.actor ++ textColumn "activity_id" m.target

def reportColumns (r : Report) : Members :=
  textColumn "id" r.id ++ numberColumn "count" r.count ++ textColumn "reason" r.reason

def keyColumns (k : KeyRecord) : Members :=
  textColumn "id" k.id ++ textColumn "owner" k.owner ++ textColumn "file" k.file

def residentColumns (r : Resident) : Members :=
  let a := r.actor
  textColumn "id" a.id ++ textColumn "type" a.type ++ textColumn "name" a.name ++
    textColumn "preferredusername" a.preferredUsername ++ textColumn "summary" a.summary ++
    textColumn "inbox" a.inbox ++ textColumn "outbox" a.outbox ++
    textColumn "following" a.following ++ textColumn "followers" a.followers ++
    textColumn "publickeypem" r.keyId ++ numberColumn "restricted" (if a.restricted then 1 else 0)

def contactColumns (name : String) (c : Contact) : Members :=
  textColumn "id" c.actor ++ textColumn name c.other

def accountColumns (a : Account) : Members :=
  textColumn "username" a.username ++ [("email", (a.email.map Value.str).getD .null)] ++
    numberColumn "type" a.rank

def namedTable [Keyed α] (name : String) (t : Table α) (columns : α → Members) : Members :=
  [(name, .arr (t.rows.map fun a => .obj (columns a)))]

def encode (b : Board) : Value :=
  .obj (namedTable "activitystream" b.authored rowColumns ++
    namedTable "cacheactivitystream" b.replicas rowColumns ++
    namedTable "replies" b.edges edgeColumns ++ namedTable "sticky" b.sticky markColumns ++
    namedTable "locked" b.locked markColumns ++ namedTable "reported" b.reports reportColumns ++
    namedTable "publickeypem" b.keys keyColumns ++ namedTable "actor" b.residents residentColumns ++
    namedTable "follower" b.followers (contactColumns "follower") ++
    namedTable "following" b.following (contactColumns "following") ++
    namedTable "accounts" b.accounts accountColumns)

def textAt (v : Value) (name : String) : String :=
  match v.get? name with
  | some (.str s) => s
  | _ => ""

def numberAt? (v : Value) (name : String) : Option Int :=
  match v.get? name with
  | some (.num (.int n)) => some n
  | _ => none

def numberAt (v : Value) (name : String) : Int :=
  (numberAt? v name).getD 0

def rowOf (v : Value) : Row :=
  { id := textAt v "id"
    type := textAt v "type"
    name := textAt v "name"
    content := textAt v "content"
    attributedTo := textAt v "attributedto"
    tripcode := textAt v "tripcode"
    actor := textAt v "actor"
    published := numberAt v "published_ms"
    updated := numberAt? v "updated_ms"
    deleted := numberAt? v "deleted_ms"
    attachment := textAt v "attachment"
    preview := textAt v "preview"
    href := textAt v "href"
    mediaType := textAt v "mediatype"
    size := Int64.ofInt (numberAt v "size")
    sensitive := numberAt v "sensitive" != 0 }

def residentOf (v : Value) : Resident :=
  { actor :=
      { id := textAt v "id"
        type := textAt v "type"
        name := textAt v "name"
        preferredUsername := textAt v "preferredusername"
        summary := textAt v "summary"
        inbox := textAt v "inbox"
        outbox := textAt v "outbox"
        following := textAt v "following"
        followers := textAt v "followers"
        restricted := numberAt v "restricted" != 0 }
    keyId := textAt v "publickeypem" }

def accountOf (v : Value) : Account :=
  { username := textAt v "username"
    email := (v.get? "email").bind fun e => match e with
      | .str s => some s
      | _ => none
    rank := numberAt v "type" }

def tableAt [Keyed α] (v : Value) (name : String) (row : Value → α) : Table α :=
  match v.get? name with
  | some (.arr vs) => .ofList (vs.map row)
  | _ => {}

def decode (v : Value) : Board :=
  let mark (v : Value) : Mark := ⟨textAt v "activity_id", textAt v "actor_id"⟩
  let contact (name : String) (v : Value) : Contact := ⟨textAt v "id", textAt v name⟩
  { authored := tableAt v "activitystream" rowOf
    replicas := tableAt v "cacheactivitystream" rowOf
    edges := tableAt v "replies" fun v => ⟨textAt v "id", textAt v "inreplyto"⟩
    sticky := tableAt v "sticky" mark
    locked := tableAt v "locked" mark
    reports := tableAt v "reported" fun v =>
      ⟨textAt v "id", (numberAt v "count").toNat, textAt v "reason"⟩
    keys := tableAt v "publickeypem" fun v => ⟨textAt v "id", textAt v "owner", textAt v "file"⟩
    residents := tableAt v "actor" residentOf
    followers := tableAt v "follower" (contact "follower")
    following := tableAt v "following" (contact "following")
    accounts := tableAt v "accounts" accountOf }

def render (b : Board) : String :=
  b.encode.render

/-- The board of a text; a text without anything is an empty board. -/
def parse? (s : String) : Option Board :=
  if s = "" then some {}
  else
    match Json.parse? s with
    | some (.obj ms) => some (decode (.obj ms))
    | _ => none

end Imageboard.Board
