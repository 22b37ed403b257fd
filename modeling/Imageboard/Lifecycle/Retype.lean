import Imageboard.Board.Replies

namespace Imageboard.Board

/-- Retypes an object and the posts that reply to it; the new type has to be that of a post. -/
def setThreadType (b : Board) (id : String) (type : ObjectType) : Except Fault (Board × Nat) :=
  if type.isPost then
    let (b, n) := b.setType id type
    .ok ((b.children id).foldl
      (fun (b, n) e =>
        let (b, m) := b.setType e.id type
        (b, n + m))
      (b, n))
  else .error (.refused (.retypeNotPost type.text))

end Imageboard.Board
