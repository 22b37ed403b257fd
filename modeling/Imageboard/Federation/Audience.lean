import Imageboard.Board.Replies
import Imageboard.Federation.SocialGraph

namespace Imageboard.SocialGraph

/-- Whether an object that came for an actor is kept. One by someone the actor follows is; else
only a reply is, and only if the actor follows one of the author's followers. -/
def admits (g : SocialGraph) (b : Board) (o : Object) (localActor : String) : Outward Bool := do
  let followers ← (g.followers b o.actor).doing (.followersOf o.actor)
  if followers.contains localActor then return true
  else if o.replyParent?.isNone || 0 < b.rootEdges o.id then return false
  else
    let following ← (g.following b localActor).doing (.followingOf localActor)
    return followers.any following.contains

/-- Followers and following of an actor, each once and without the actor. -/
def audience (g : SocialGraph) (b : Board) (actor : String) : Outward (List String) := do
  let followers ← g.followers b actor
  let following ← g.following b actor
  return ((followers ++ following).filter (· != actor)).eraseDups

end Imageboard.SocialGraph
