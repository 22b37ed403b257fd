import Imageboard.Federation.Web
import Imageboard.Site

namespace Imageboard

/-- Work on a node that may fail. What was changed or sent before a failure is not taken back. -/
abbrev Serving := ExceptT Fault (StateM (Node × Log))

namespace Serving

def board : Serving Board := do
  return (← get).1.board

def outward (x : Outward α) : Serving α :=
  ExceptT.mk fun (n, log) =>
    let (result, log) := x.run log
    (result, n, log)

/-- One change of the node, made as a whole. -/
def change (f : Node → Node × α) : Serving α :=
  modifyGet fun (n, log) =>
    let (n, a) := f n
    (a, n, log)

def changeBoard (f : Board → Board × α) : Serving α :=
  change fun n =>
    let (board, a) := f n.board
    ({ n with board }, a)

def settle (x : Serving α) (n : Node) : Outward (α × Node) :=
  ExceptT.mk fun log =>
    let (result, n, log) := x.run (n, log)
    (result.map (·, n), log)

end Serving
end Imageboard
