import Imageboard.Lifecycle.Linking
import Imageboard.Site

namespace Imageboard

mutual

def Object.weight : Object → Nat
  | { replies := none, .. } => 1
  | { replies := some l, .. } => 1 + Object.listingWeight l

def Object.listingWeight : Listing Object → Nat
  | { orderedItems, .. } => Object.allWeights orderedItems

def Object.allWeights : List Object → Nat
  | [] => 0
  | o :: os => Object.weight o + Object.allWeights os

end

namespace Object

def nested (o : Object) : List Object :=
  match o.replies with
  | none => []
  | some l => l.orderedItems

/-- The replies in an object; one that names no parent answers the object. -/
def nestedReplies (o : Object) : List Object :=
  o.nested.map fun r => if r.inReplyTo.isEmpty then { r with inReplyTo := [.reference o.id] } else r

theorem weight_eq (o : Object) : o.weight = 1 + allWeights o.nested := by
  rcases o with ⟨⟩
  rename_i replies _ _ _ _ _ _ _ _ _
  cases replies with
  | none => simp [weight, nested, allWeights]
  | some l => cases l; simp [weight, nested, listingWeight]

theorem weight_inReplyTo (o : Object) (ps : List Object) :
    { o with inReplyTo := ps }.weight = o.weight := by
  rw [weight_eq, weight_eq]
  rfl

theorem allWeights_append (os ps : List Object) :
    allWeights (os ++ ps) = allWeights os + allWeights ps := by
  induction os with
  | nil => simp [allWeights]
  | cons o os ih => simp [allWeights, ih, Nat.add_assoc]

theorem allWeights_nestedReplies (o : Object) :
    allWeights o.nestedReplies = allWeights o.nested := by
  unfold nestedReplies
  induction o.nested with
  | nil => rfl
  | cons r rs ih =>
    simp only [List.map_cons, allWeights, ih]
    split
    · rw [weight_inReplyTo]
    · rfl

end Object

inductive Replication where
  /-- How many objects were new, nested ones among them. -/
  | written (count : Nat)
  | alreadyThere
  | blocked
deriving DecidableEq, Repr

namespace Board

/-- The entry for a piece of media of a replica, which has the object's actor if it names none. -/
def mediaEntry (media : Object) (type : ObjectType) (owner : Object) (now : Instant) : Entry :=
  .ofWire
    { media with
      type := some (media.type.getD type)
      actor := if media.actor = "" then owner.actor else media.actor }
    .replica now

/-- The entries that come with an object: its preview, if it has an address and there is an
attachment, and its first attachment. -/
def mediaEntries (o : Object) (now : Instant) : List Entry :=
  match o.attachment with
  | [] => []
  | a :: _ =>
    if a.id = "" then []
    else
      let preview := o.preview.filter fun p => p.id != "" && p.href != ""
      preview.toList.map (mediaEntry · .preview o now) ++ [mediaEntry a .attachment o now]

def insertWithMedia (b : Board) (o : Object) (now : Instant) : Board × Bool :=
  ((mediaEntries o now).foldl (fun b e => (b.insertReplica e now).1) b).insertReplica
    (.ofWire o .replica now) now

def replicateOne (b : Board) (o : Object) (now : Instant) : Board × Bool :=
  let (b, new) := b.insertWithMedia o now
  if new then ((b.link o (o.published.getD now)).1, true) else (b, false)

/-- Replicates the objects of a queue and what is nested in them. An object with a blank id, with
one met before, or with blocked content is passed over with all that is nested in it. -/
def replicateAll (blocks : String → Bool) (now : Instant) (queue : List Object)
    (met : List String) (written : Nat) (b : Board) : Board × Nat :=
  match queue with
  | [] => (b, written)
  | o :: queue =>
    if Text.isBlankText o.id ∨ o.id ∈ met then replicateAll blocks now queue met written b
    else if blocks o.content then replicateAll blocks now queue (o.id :: met) written b
    else
      let (b, new) := b.replicateOne { o with replies := none } now
      replicateAll blocks now (queue ++ o.nestedReplies) (o.id :: met)
        (if new then written + 1 else written) b
termination_by Object.allWeights queue
decreasing_by
  all_goals simp_all [Object.allWeights, Object.weight_eq, Object.allWeights_append,
    Object.allWeights_nestedReplies]
  all_goals omega

end Board

namespace Site

def replicate (s : Site) (now : Instant) (o : Object) (b : Board) : Board × Replication :=
  if s.blocks o.content then (b, .blocked)
  else
    let (b, written) := b.replicateAll s.blocks now [o] [] 0
    (b, if written = 0 then .alreadyThere else .written written)

end Site
end Imageboard
