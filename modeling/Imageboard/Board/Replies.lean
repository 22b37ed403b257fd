import Imageboard.Board.Store

namespace Imageboard

inductive Flag where
  | sticky
  | locked
deriving DecidableEq, Repr

inductive FlagSwitch where
  | set
  | cleared
  /-- The object is not the root of a thread, and nothing changed. -/
  | notRoot
deriving DecidableEq, Repr

abbrev Groups (α : Type) := List (String × List α)

namespace Groups

variable {α : Type}

def push (key : String) (a : α) : Groups α → Groups α
  | [] => [(key, [a])]
  | (k, as) :: groups => if k = key then (k, as ++ [a]) :: groups else (k, as) :: push key a groups

def ofPairs (pairs : List (String × α)) : Groups α :=
  pairs.foldl (fun groups p => push p.1 p.2 groups) []

def under (groups : Groups α) (key : String) : List α :=
  (groups.lookup key).getD []

end Groups

namespace Board

def recordEdge (b : Board) (child parent : String) : Board × Bool :=
  let (edges, added) := b.edges.insertNew ⟨child, parent⟩
  ({ b with edges }, added)

/-- The least of the ids that an object replies to. -/
def parentOf (b : Board) (id : String) : Option String :=
  (b.edges.rows.find? fun e => e.child == id && e.parent != "").map (·.parent)

def parents (b : Board) : List String :=
  b.edges.rows.map (·.parent)

def without (ids : List String) (id : String) : List String :=
  ids.filter (· != id)

theorem length_without_lt {ids : List String} {id : String} (h : id ∈ ids) :
    (without ids id).length < ids.length :=
  List.length_filter_lt_length_iff_exists.2 ⟨id, h, by simp⟩

/-- Goes up from parent to parent among those not met so far; each step strikes one out. -/
def climb (b : Board) (ahead : List String) (id : String) : String :=
  match b.parentOf id with
  | none => id
  | some p => if p ∈ ahead then b.climb (without ahead p) p else id
termination_by ahead.length
decreasing_by exact length_without_lt ‹_›

def rootOf (b : Board) (id : String) : String :=
  b.climb (without b.parents id) id

def isTop (b : Board) (id : String) : Bool :=
  (b.parentOf id).isNone

def rootEdges (b : Board) (id : String) : Nat :=
  b.edges.count fun e => e.child == id && e.parent == ""

def childIds (b : Board) (parent : String) : List String :=
  (b.edges.rows.filter fun e => e.parent == parent).map (·.child)

def isChild (b : Board) (parent id : String) : Bool :=
  b.edges.contains [id, parent]

def isEarlier (x y : Tier × Row) : Bool :=
  x.2.published < y.2.published || (x.2.published == y.2.published && x.2.id ≤ y.2.id)

def posts (b : Board) (p : String → Bool) : List (Tier × Row) :=
  (b.select fun r => r.isPost && p r.id).mergeSort isEarlier

/-- The posts that reply to an object, the oldest first. -/
def children (b : Board) (parent : String) : List Entry :=
  (b.posts (b.isChild parent)).map fun (t, r) => r.entry t

/-- The newest `n` replies, the oldest of them first. A number of 64 bits that reads as negative is
no bound. -/
def newestChildren (b : Board) (parent : String) (n : UInt64) : List Entry :=
  let newestFirst :=
    (b.select fun r => r.isPost && b.isChild parent r.id).mergeSort fun x y => isEarlier y x
  let kept := if n.toNat < 0x8000000000000000 then newestFirst.take n.toNat else newestFirst
  kept.reverse.map fun (t, r) => r.entry t

def edgesBelow (b : Board) (parent : String) : List Edge :=
  b.edges.rows.filter fun e => b.isChild parent e.parent

/-- The replies to the replies of an object, under the id of the reply that they answer. They are
found all at once, and put under each reply that their edges name. -/
def grandchildren (b : Board) (parent : String) : Groups Entry :=
  let edges := b.edgesBelow parent
  let answered := Groups.ofPairs (edges.map fun e => (e.child, e.parent))
  let found := b.posts fun id => edges.any (·.child == id)
  Groups.ofPairs (found.flatMap fun (t, r) => (answered.under r.id).map fun v => (v, r.entry t))

/-- How many posts reply to an object, and how many of these have an attachment in either tier. -/
def replyCounts (b : Board) (parent : String) : Nat × Nat :=
  let isReply (r : Row) := r.isPost && b.isChild parent r.id
  let found := (b.select isReply).map (·.2.id)
  let withMedia (t : Table Row) (id : String) : Bool :=
    t.rows.any fun r => r.id == id && isReply r && r.attachment != ""
  (found.length, found.countP fun id => withMedia b.authored id || withMedia b.replicas id)

def removeEdgesOf (b : Board) (id : String) : Board × Nat :=
  let (edges, n) := b.edges.remove fun e => e.child == id
  ({ b with edges }, n)

/-- Takes out the edges from children to an object, root edges never. -/
def removeEdgesTo (b : Board) (parent : String) : Board × Nat :=
  let (edges, n) := b.edges.remove fun e => e.parent == parent && e.parent != ""
  ({ b with edges }, n)

def flagged (b : Board) : Flag → Table Mark
  | .sticky => b.sticky
  | .locked => b.locked

def withFlagged (b : Board) (f : Flag) (marks : Table Mark) : Board :=
  match f with
  | .sticky => { b with sticky := marks }
  | .locked => { b with locked := marks }

def hasFlag (b : Board) (f : Flag) (id : String) : Bool :=
  (b.flagged f).contains [id]

/-- Switches a flag of a thread; only the root of one can have it. -/
def switchFlag (b : Board) (f : Flag) (actor id : String) : Board × FlagSwitch :=
  if b.rootEdges id = 1 then
    if b.hasFlag f id then
      (b.withFlagged f ((b.flagged f).filter fun m => m.target != id), .cleared)
    else (b.withFlagged f ((b.flagged f).put ⟨id, actor⟩), .set)
  else (b, .notRoot)

def clearFlags (b : Board) (id : String) : Board :=
  { b with
    sticky := b.sticky.filter fun m => m.target != id
    locked := b.locked.filter fun m => m.target != id }

end Board
end Imageboard
