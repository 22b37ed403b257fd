import Imageboard.Board.Basic

namespace Imageboard

inductive Relation where
  | follower
  | following
deriving DecidableEq, Repr

def Relation.text : Relation → String
  | follower => "follower"
  | following => "following"

namespace Board

def contacts (b : Board) : Relation → Table Contact
  | .follower => b.followers
  | .following => b.following

def withContacts (b : Board) (r : Relation) (t : Table Contact) : Board :=
  match r with
  | .follower => { b with followers := t }
  | .following => { b with following := t }

def addContact (b : Board) (r : Relation) (actor other : String) : Board × Bool :=
  let (t, added) := (b.contacts r).insertNew ⟨actor, other⟩
  (b.withContacts r t, added)

def removeContact (b : Board) (r : Relation) (actor other : String) : Board × Bool :=
  let (t, n) := (b.contacts r).remove fun c => c.actor == actor && c.other == other
  (b.withContacts r t, 0 < n)

def contactsOf (b : Board) (r : Relation) (actor : String) : List String :=
  ((b.contacts r).rows.filter fun c => c.actor == actor).map (·.other)

def hosts (b : Board) (actor : String) : Bool :=
  b.residents.contains [actor]

def residentNamed (b : Board) (name : String) : Option Resident :=
  b.residents.rows.find? fun r => r.actor.name == name

def addResident (b : Board) (r : Resident) : Option Board :=
  if (b.residentNamed r.actor.name).isSome then none
  else (b.residents.insert? r).map fun residents => { b with residents }

def addAccount (b : Board) (a : Account) : Option Board :=
  (b.accounts.insert? a).map fun accounts => { b with accounts }

end Board
end Imageboard
