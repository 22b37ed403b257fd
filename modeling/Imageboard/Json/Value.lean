import Imageboard.Json.Binary64

namespace Imageboard.Json

/-- Whole numbers between `-2 ^ 63` and `2 ^ 64 - 1` are kept as such, all others as floating-point
numbers, among them the negative zero. -/
inductive Number where
  | int (n : Int)
  | float (x : Binary64)
deriving DecidableEq, Repr

/-- A value. A `malformed` one has the form of a string, a number or an object and stands for
nothing: it names half of a surrogate pair or is too large. It may be passed over, not used. -/
inductive Value where
  | null
  | bool (b : Bool)
  | num (n : Number)
  | str (s : String)
  | arr (items : List Value)
  | obj (members : List (String × Value))
  | malformed
deriving Repr, Inhabited

abbrev Members := List (String × Value)

namespace Value

mutual

/-- Whether a value can be used with at most `depth` containers inside one another. -/
def fits : Value → Nat → Bool
  | .malformed, _ => false
  | .arr items, depth => 0 < depth && fitsAll items (depth - 1)
  | .obj members, depth => 0 < depth && fitsMembers members (depth - 1)
  | _, _ => true

def fitsAll : List Value → Nat → Bool
  | [], _ => true
  | v :: vs, depth => fits v depth && fitsAll vs depth

def fitsMembers : List (String × Value) → Nat → Bool
  | [], _ => true
  | (_, v) :: ms, depth => fits v depth && fitsMembers ms depth

end

def insertMember (name : String) (v : Value) : List (String × Value) → List (String × Value)
  | [] => [(name, v)]
  | (n, w) :: ms =>
    if name < n then (name, v) :: (n, w) :: ms
    else if name = n then (name, v) :: ms
    else (n, w) :: insertMember name v ms

mutual

/-- The value with the members of each object in the order of their names; of several with one name
the last stays. -/
def sorted : Value → Value
  | .arr items => .arr (sortedAll items)
  | .obj members => .obj (sortedMembers [] members)
  | v => v

def sortedAll : List Value → List Value
  | [] => []
  | v :: vs => sorted v :: sortedAll vs

def sortedMembers (done : List (String × Value)) :
    List (String × Value) → List (String × Value)
  | [] => done
  | (n, v) :: ms => sortedMembers (insertMember n (sorted v) done) ms

end

def get? (name : String) : Value → Option Value
  | .obj members => (members.reverse.find? fun m => m.1 == name).map (·.2)
  | _ => none

end Value
end Imageboard.Json
