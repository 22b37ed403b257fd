import Imageboard.Board.Replies

namespace Imageboard.Board

def orderedType : String := "OrderedCollection"

/-- The wire object of an entry with its media in full; media that are not here are left out. -/
def expand (b : Board) (e : Entry) : Object :=
  let wire := e.toWire
  { wire with
    attachment := e.attachment.toList.filterMap fun id => (b.get id).map Entry.toWire
    preview := e.preview.bind fun id => (b.get id).map Entry.toWire }

def replyTo (o : Object) (parent : String) : Object :=
  { o with inReplyTo := [.reference parent] }

def listing (b : Board) (parent : String) (replies : List Object) : Listing Object :=
  let (total, images) := b.replyCounts parent
  { type := orderedType
    totalItems := UInt64.ofNat total
    totalImages := UInt64.ofNat images
    orderedItems := replies }

def replyWith (b : Board) (parent : String) (nested : List (String × List Entry)) (e : Entry) :
    Object :=
  let below := ((nested.lookup e.id).getD []).map fun g => replyTo (b.expand g) e.id
  let wire := replyTo (b.expand e) parent
  if (b.replyCounts e.id).1 = 0 then wire
  else { wire with replies := some (b.listing e.id below) }

def assemble (b : Board) (e : Entry) (replies : List Entry) : Collection :=
  let nested := b.grandchildren e.id
  let wire := b.expand e
  let head := { wire with
    sticky := b.hasFlag .sticky e.id
    locked := b.hasFlag .locked e.id
    inReplyTo := (b.parentOf e.id).toList.map Object.reference
    replies := some (b.listing e.id (replies.map (b.replyWith e.id nested))) }
  .of
    { actor := some { id := e.actor }
      type := orderedType
      totalItems := 1
      orderedItems := [head] }

def getPost (b : Board) (id : String) : Option Entry :=
  (b.get id).filter Entry.isPost

def thread (b : Board) (id : String) : Option Collection :=
  (b.getPost id).map fun e => b.assemble e (b.children e.id)

def recentThread (b : Board) (id : String) (n : UInt64) : Option Collection :=
  (b.getPost id).map fun e => b.assemble e (b.newestChildren e.id n)

def threadByStart (b : Board) (start : String) : Option Collection :=
  (b.getByStart start).map fun e => b.assemble e (b.children e.id)

end Imageboard.Board
