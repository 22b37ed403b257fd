import Imageboard.Board.Replies
import Imageboard.Site

namespace Imageboard

structure CascadeReport where
  rows : Nat
  filesRemoved : Nat
deriving DecidableEq, Repr

namespace Board

/-- The ids of a queue and of all replies below them, level by level, each once. `ahead` holds the
ids not met so far. -/
def walk (b : Board) (ahead queue : List String) : List String :=
  match queue with
  | [] => []
  | id :: queue =>
    if id ∈ ahead then
      let ahead' := without ahead id
      id :: b.walk ahead' (queue ++ (b.childIds id).filter (ahead'.contains ·))
    else b.walk ahead queue
termination_by (ahead.length, queue.length)
decreasing_by
  · exact .left _ _ (length_without_lt ‹_›)
  · exact .right _ (Nat.lt_succ_self _)

def subtree (b : Board) (root : String) : List String :=
  b.walk (root :: b.edges.rows.map (·.child)) [root]

/-- Forgets the complaints about an object and turns its media and itself into tombstones. -/
def bury (b : Board) (placeholder : String) (time : Int) (id : String) : Board × Nat :=
  let (b, n) := (b.removeReports id).1.buryMedia id placeholder time
  let (b, m) := b.buryRow id time
  (b, n + m)

/-- Takes an object out with its media, its edges to parents, its flags and the complaints about
it. Replies keep their edges to it. -/
def erase (b : Board) (id : String) : Board × Nat :=
  let (b, n) := (b.removeReports id).1.removeMedia id
  let (b, m) := b.removeRow id
  (((b.removeEdgesOf id).1.clearFlags id), n + m)

end Board

namespace Site

def mediaFiles (s : Site) (b : Board) (id : String) : List String :=
  (b.mediaOf id).filterMap fun e => e.href?.bind s.fileOf?

/-- A board on the way through a cascade, the rows it changed and the files it leaves behind. -/
structure Cascade where
  board : Board
  rows : Nat := 0
  files : List String := []

/-- One object of a cascade: its files are taken down before its rows change. -/
def cascadeStep (s : Site) (f : Board → String → Board × Nat) (c : Cascade) (id : String) :
    Cascade :=
  let (board, n) := f c.board id
  { board, rows := c.rows + n, files := c.files ++ s.mediaFiles c.board id }

def cascade (s : Site) (f : Board → String → Board × Nat) (ids : List String) (n : Node) :
    Node × CascadeReport :=
  let c := ids.foldl (s.cascadeStep f) { board := n.board }
  let (files, filesRemoved) := n.files.removeAll c.files
  ({ board := c.board, files }, { rows := c.rows, filesRemoved })

def tombstone (s : Site) (now : Instant) (id : String) (n : Node) : Node × CascadeReport :=
  s.cascade (fun b id => b.bury s.config.placeholderHref now.clockMillis id) [id] n

def tombstoneThread (s : Site) (now : Instant) (id : String) (n : Node) : Node × CascadeReport :=
  s.cascade (fun b id => b.bury s.config.placeholderHref now.clockMillis id)
    (n.board.subtree id).reverse n

def delete (s : Site) (id : String) (n : Node) : Node × CascadeReport :=
  s.cascade Board.erase [id] n

def deleteThread (s : Site) (id : String) (n : Node) : Node × CascadeReport :=
  s.cascade Board.erase (n.board.subtree id).reverse n

end Site
end Imageboard
