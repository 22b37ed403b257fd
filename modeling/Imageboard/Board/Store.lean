import Imageboard.Board.Basic
import Imageboard.Text.Blank

namespace Imageboard

/-- What is drawn for the end of a new id: eight letters and digits. -/
structure IdSuffix where
  text : String
  length_eq : text.length = 8
  alphanumeric : text.toList.all Text.isAlphanumeric = true
deriving DecidableEq, Repr

namespace Board

def getIn (b : Board) (t : Tier) (id : String) : Option Entry :=
  ((b.tier t).get? [id]).map (·.entry t)

def get (b : Board) (id : String) : Option Entry :=
  (b.getIn .authored id).orElse fun _ => b.getIn .replica id

def typeOf (b : Board) (id : String) : Option ObjectType :=
  (b.get id).map Entry.type

def holds (b : Board) (t : Tier) (id : String) : Bool :=
  (b.tier t).contains [id]

/-- The rows with a property, one for each id. The property is asked of each tier by itself, so a
replica shows where it alone has it. -/
def select (b : Board) (p : Row → Bool) : List (Tier × Row) :=
  let own := b.authored.rows.filter p
  let other := (b.replicas.rows.filter p).filter fun r => !own.any fun o => o.id == r.id
  own.map (Tier.authored, ·) ++ other.map (Tier.replica, ·)

/-- A character as beginnings are compared: ASCII letters in lower case, and the last two numbers of
the first plane, which are no characters, as the sign for an unreadable one. -/
def likeChar (c : Char) : Char :=
  if c.toNat = 0xFFFE ∨ c.toNat = 0xFFFF then '\uFFFD' else Text.lowerChar c

/-- Whether an id starts with a text, up to the case of ASCII letters; a NUL ends both. -/
def startsLike : List Char → List Char → Bool
  | [], _ => true
  | c :: cs, id =>
    if c = '\x00' then id.head?.all (· == '\x00')
    else
      match id with
      | [] => false
      | d :: ds => likeChar c == likeChar d && startsLike cs ds

/-- Whether `x` precedes `y` among posts by their last activity, the latest first; of posts active
at the same time the greatest id is first. -/
def isLater (x y : Tier × Row) : Bool :=
  y.2.activity < x.2.activity || (x.2.activity == y.2.activity && y.2.id ≤ x.2.id)

def getByStart (b : Board) (start : String) : Option Entry :=
  let found := b.select fun r => r.isPost && startsLike start.toList r.id.toList
  ((found.mergeSort isLater).head?).map fun (t, r) => r.entry t

def insertAuthored (b : Board) (e : Entry) (now : Instant) : Except Fault Board :=
  match b.authored.insert? (Row.ofEntry e now) with
  | some authored => .ok { b with authored }
  | none => .error ((Fault.broke .storage).doing (.insertingLocal e.id))

def insertReplica (b : Board) (e : Entry) (now : Instant) : Board × Bool :=
  let (replicas, added) := b.replicas.insertNew (Row.ofEntry e now)
  ({ b with replicas }, added)

def setType (b : Board) (id : String) (type : ObjectType) : Board × Nat :=
  b.updateRows (fun r => r.id == id && !r.isTombstone) fun r => { r with type := type.text }

def setPreviewOf (b : Board) (attachment preview : String) : Board × Nat :=
  b.updateRows (fun r => r.attachment == attachment) fun r => { r with preview }

def setSensitive (b : Board) (id : String) (sensitive : Bool) : Board × Nat :=
  b.updateRows (fun r => r.id == id) fun r => { r with sensitive }

def touch (b : Board) (id : String) (time : Instant) : Board × Nat :=
  b.updateRows (fun r => r.id == id) fun r => { r with updated := some time.millis }

/-- The first of the drawn suffixes that makes a free id below an actor, and the draws after it. -/
def mint? (b : Board) (actor : String) : List IdSuffix → Option (String × List IdSuffix)
  | [] => none
  | draw :: draws =>
    let id := Text.trimEndOf '/' actor ++ "/" ++ draw.text
    if b.holds .authored id then mint? b actor draws else some (id, draws)

def isMediaOf (t : Table Row) (id : String) (r : Row) : Bool :=
  match t.get? [id] with
  | some owner => owner.media.contains r.id
  | none => false

def mediaOf (b : Board) (id : String) : List Entry :=
  (b.authored.rows.filter (isMediaOf b.authored id)).map (·.entry .authored) ++
    (b.replicas.rows.filter (isMediaOf b.replicas id)).map (·.entry .replica)

/-- Turns the media of an id into tombstones that show the placeholder. -/
def buryMedia (b : Board) (id placeholder : String) (moment : Int) : Board × Nat :=
  b.eachTier fun t =>
    t.update (fun r => !r.isTombstone && isMediaOf t id r)
      (fun r => { r with
        type := ObjectType.tombstone.text
        mediaType := "image/png"
        href := placeholder
        name := ""
        content := ""
        attributedTo := removedAuthor
        size := 0
        deleted := some moment })
      fun _ => rfl

def buryRow (b : Board) (id : String) (moment : Int) : Board × Nat :=
  b.updateRows (fun r => r.id == id && !r.isTombstone) fun r => { r with
    type := ObjectType.tombstone.text
    name := ""
    content := ""
    attributedTo := removedAuthor
    tripcode := ""
    deleted := some moment }

def removeMedia (b : Board) (id : String) : Board × Nat :=
  b.eachTier fun t => t.remove (isMediaOf t id)

def removeRow (b : Board) (id : String) : Board × Nat :=
  b.eachTier fun t => t.remove fun r => r.id == id

def report (b : Board) (id reason : String) : Board :=
  let count := match b.reports.get? [id] with
    | some r => r.count
    | none => 0
  { b with reports := b.reports.put ⟨id, count + 1, reason⟩ }

def reportOf (b : Board) (id : String) : Option Report :=
  b.reports.get? [id]

def removeReports (b : Board) (id : String) : Board × Nat :=
  let (reports, n) := b.reports.remove fun r => r.id == id
  ({ b with reports }, n)

def staffAddresses (b : Board) : List String :=
  let found := b.accounts.rows.filterMap fun a =>
    if 1 ≤ a.rank then a.email.bind nonEmpty? else none
  found.mergeSort (· ≤ ·)

end Board
end Imageboard
