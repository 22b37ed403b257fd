import Imageboard.Board.Replies

namespace Imageboard.Board

/-- Records the edge of a new object, or the root edge. A reply below an archived root is archived,
and a reply renews its parent unless its poster wished otherwise. Tells whether it was archived. -/
def link (b : Board) (o : Object) (published : Instant) : Board × Bool :=
  match o.replyParent? with
  | none => ((b.recordEdge o.id "").1, false)
  | some parent =>
    let archived := b.typeOf (b.rootOf parent) == some .archive
    let b := if archived then (b.setType o.id .archive).1 else b
    let b := (b.recordEdge o.id parent).1
    let b := if o.hasOption "sage" || o.hasOption "nokosage" then b
      else (b.touch parent published).1
    (b, archived)

end Imageboard.Board
