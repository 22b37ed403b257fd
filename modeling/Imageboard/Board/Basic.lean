import Imageboard.Board.Row
import Imageboard.Fault

namespace Imageboard

/-- A reply; the root of a thread replies to the empty id. -/
structure Edge where
  child : String
  parent : String
deriving DecidableEq, Repr

instance : Keyed Edge := ⟨fun e => [e.child, e.parent]⟩

structure Mark where
  target : String
  actor : String
deriving DecidableEq, Repr

instance : Keyed Mark := ⟨fun m => [m.target]⟩

structure Report where
  id : String
  count : Nat
  reason : String
deriving DecidableEq, Repr

instance : Keyed Report := ⟨fun r => [r.id]⟩

structure KeyRecord where
  id : String
  owner : String
  file : String
deriving DecidableEq, Repr

instance : Keyed KeyRecord := ⟨fun k => [k.id]⟩

structure Resident where
  actor : Actor
  keyId : String := ""
deriving DecidableEq, Repr

instance : Keyed Resident := ⟨fun r => [r.actor.id]⟩

structure Contact where
  actor : String
  other : String
deriving DecidableEq, Repr

instance : Keyed Contact := ⟨fun c => [c.actor, c.other]⟩

/-- Someone who runs the board; ranks from one on are told of new posts. -/
structure Account where
  username : String
  email : Option String
  rank : Int
deriving DecidableEq, Repr

instance : Keyed Account := ⟨fun a => [a.username]⟩

structure Board where
  authored : Table Row := {}
  replicas : Table Row := {}
  edges : Table Edge := {}
  sticky : Table Mark := {}
  locked : Table Mark := {}
  reports : Table Report := {}
  keys : Table KeyRecord := {}
  residents : Table Resident := {}
  followers : Table Contact := {}
  following : Table Contact := {}
  accounts : Table Account := {}

instance : Inhabited Board := ⟨{}⟩

namespace Board

def tier (b : Board) : Tier → Table Row
  | .authored => b.authored
  | .replica => b.replicas

/-- Does the same to both tiers, and adds up how many rows it touched. -/
def eachTier (b : Board) (f : Table Row → Table Row × Nat) : Board × Nat :=
  let (authored, n) := f b.authored
  let (replicas, m) := f b.replicas
  ({ b with authored, replicas }, n + m)

def updateRows (b : Board) (p : Row → Bool) (f : Row → Row)
    (keeps : ∀ r, Keyed.key (f r) = Keyed.key r := by intros; rfl) : Board × Nat :=
  b.eachTier fun t => t.update p f keeps

end Board
end Imageboard
