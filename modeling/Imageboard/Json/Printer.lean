import Imageboard.Json.Value
import Imageboard.Text.Quoted

namespace Imageboard.Json

def escapeChar (c : Char) : List Char :=
  if c = '"' then ['\\', '"']
  else if c = '\\' then ['\\', '\\']
  else if c = '\x08' then ['\\', 'b']
  else if c = '\x0c' then ['\\', 'f']
  else if c = '\n' then ['\\', 'n']
  else if c = '\r' then ['\\', 'r']
  else if c = '\t' then ['\\', 't']
  else if c.toNat < 0x20 then ['\\', 'u'] ++ Text.hex 4 c.toNat
  else [c]

def renderString (s : String) : String :=
  String.ofList ('"' :: s.toList.flatMap escapeChar ++ ['"'])

def Number.render : Number → String
  | .int n => toString n
  | .float x => x.render

namespace Value

mutual

/-- The text of a value; a malformed one is written as `null`. -/
def render : Value → String
  | .null => "null"
  | .bool b => if b then "true" else "false"
  | .num n => n.render
  | .str s => renderString s
  | .arr items => "[" ++ renderItems items ++ "]"
  | .obj members => "\x7b" ++ renderMembers members ++ "\x7d"
  | .malformed => "null"

def renderItems : List Value → String
  | [] => ""
  | [v] => render v
  | v :: vs => render v ++ "," ++ renderItems vs

def renderMembers : List (String × Value) → String
  | [] => ""
  | [(n, v)] => renderString n ++ ":" ++ render v
  | (n, v) :: ms => renderString n ++ ":" ++ render v ++ "," ++ renderMembers ms

end

end Value
end Imageboard.Json
