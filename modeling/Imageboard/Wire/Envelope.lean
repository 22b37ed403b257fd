import Imageboard.Text.Bytes
import Imageboard.Wire.Object

namespace Imageboard

open Text

def activityId (actor : String) (drawn : Bytes) : String :=
  trimEndOf '/' actor ++ "/activities/" ++ hexOf drawn

/-- The trimmed recipients of a list that are neither blank nor excluded, each once, after those
that were met before. -/
def recipients (excluded : List String) (met : List String) : List String → List String
  | [] => []
  | r :: rs =>
    let r := trim r
    if r = "" ∨ r ∈ excluded ∨ r ∈ met then recipients excluded met rs
    else r :: recipients excluded (r :: met) rs

namespace Activity

/-- The activity of an actor on an object. Its recipients are those of the object, without the actor
and the author. -/
def wrap (verb : Verb) (o : Object) (actor : Actor) (drawn : Bytes) : Activity :=
  let excluded := [actor.id, o.actor]
  { context := some (.str vocabulary)
    type := verb.text
    id := activityId actor.id drawn
    actor := some (.actor actor)
    addressees := recipients excluded [] o.addressees
    cc := recipients excluded [] o.cc
    published := o.published
    object := some (.object o) }

/-- Adds recipients; who is told directly is not told in copy. -/
def addRecipients (a : Activity) (more : List String) : Activity :=
  let addressees := recipients [a.actorId] [] (a.addressees ++ more)
  { a with addressees, cc := a.cc.filter fun c => !addressees.contains c }

end Activity
end Imageboard
