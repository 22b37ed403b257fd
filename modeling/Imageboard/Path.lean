import Imageboard.Text.Blank

namespace Imageboard.Path

open Text

def isAbsolute (p : String) : Bool :=
  startsWith "/" p

def join (base rest : String) : String :=
  if isAbsolute rest || base = "" then rest
  else if base.toList.getLast? = some '/' then base ++ rest
  else base ++ "/" ++ rest

def parts (p : String) : List String :=
  (pieces '/' p.toList).map String.ofList

inductive Component where
  | root
  | here
  | up
  | name (text : String)
deriving DecidableEq, Repr

/-- The components of a path. Repeated slashes and dots count for nothing, but for a dot that starts
a relative path. -/
def components (p : String) : List Component :=
  let named := (parts p).filterMap fun s =>
    if s = "" ∨ s = "." then none else if s = ".." then some .up else some (.name s)
  if isAbsolute p then .root :: named
  else if (parts p).head? = some "." then .here :: named
  else named

def isPlain (p : String) : Bool :=
  (components p).all fun c => c matches .name _

def fileName? (p : String) : Option String :=
  match (components p).getLast? with
  | some (.name s) => some s
  | _ => none

/-- A path and the paths above it, nearest first: what is left when its components are taken off its
end one by one, but neither the root nor the empty path. -/
def ancestors (p : String) : List String :=
  let ps := parts p
  let ends := (List.range ps.length).filter fun i =>
    match ps[i]? with
    | some s => s != "" && (s != "." || i == 0)
    | none => false
  match ends.reverse with
  | [] => []
  | _ :: above => p :: above.map fun i => Text.join "/" (ps.take (i + 1))

/-- The path above a path; none for a root, empty for a bare name. -/
def parent? (p : String) : Option String :=
  match ancestors p with
  | [] => none
  | [_] => some (if isAbsolute p then "/" else "")
  | _ :: above :: _ => some above

def withFileName (p name : String) : String :=
  join ((parent? p).getD "") name

def start (p : String) : List String :=
  if isAbsolute p then ["/"] else []

def steps (p : String) : List String :=
  (parts p).filter (· != "")

/-- Where a step leads from the end of some names. The root lies above itself. -/
def step (names : List String) (s : String) : List String :=
  if s = "." then names
  else if s = ".." then (if names = ["/"] then names else names.dropLast)
  else names ++ [s]

/-- The names from the start of a path to its end, with the root as one of them. -/
def names (p : String) : List String :=
  (steps p).foldl step (start p)

def spell : List String → String
  | "/" :: names => "/" ++ Text.join "/" names
  | names => Text.join "/" names

end Imageboard.Path
