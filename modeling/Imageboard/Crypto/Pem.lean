import Imageboard.Crypto.Base64
import Imageboard.Text.Blank

namespace Imageboard.Pem

open Text

def width : Nat := 64

def rows : Nat → List Char → List (List Char)
  | 0, _ => []
  | fuel + 1, cs =>
    if cs.length ≤ width then (if cs.isEmpty then [] else [cs])
    else cs.take width :: rows fuel (cs.drop width)

def opening (label : String) : List Char :=
  ("-----BEGIN " ++ label ++ "-----").toList

def closing (label : String) : List Char :=
  ("-----END " ++ label ++ "-----").toList

def encode (label : String) (bs : Bytes) : String :=
  let body := Base64.encodeList bs
  String.ofList (opening label ++ ['\n'] ++
    (rows (body.length + 1) body).flatMap (· ++ ['\n']) ++ closing label ++ ['\n'])

def lineEnd? : List Char → Option (List Char)
  | '\r' :: '\n' :: cs => some cs
  | '\n' :: cs => some cs
  | '\r' :: cs => some cs
  | _ => none

/-- What follows the text before the opening line, which holds no NUL. -/
def body? : List Char → Option (List Char)
  | [] => none
  | c :: cs =>
    if c = '\x00' then none
    else if c = '\n' && startsWithOpening cs then some cs
    else body? cs
where
  startsWithOpening (cs : List Char) : Bool :=
    (after? "-----BEGIN ".toList cs).isSome

def chomp? (cs : List Char) : Option (List Char) :=
  match cs.reverse with
  | '\n' :: '\r' :: r => some r.reverse
  | '\n' :: r => some r.reverse
  | '\r' :: r => some r.reverse
  | _ => none

/-- Joins lines of base64, each but the last of full width. A line end may follow the last one, and
an empty line a full one that has no padding. -/
def unrows? : Nat → List Char → Option (List Char)
  | 0, _ => none
  | fuel + 1, cs =>
    if width < cs.length then do
      let row := cs.take width
      let rest ← lineEnd? (cs.drop width)
      if rest.isEmpty then some row
      else if row.getLast? = some '=' then none
      else return row ++ (← unrows? fuel rest)
    else some ((chomp? cs).getD cs)

def decode? (label : String) (text : String) : Option Bytes := do
  let cs := text.toList
  let cs ← if body?.startsWithOpening cs then some cs else body? cs
  let cs ← lineEnd? (← after? (opening label) cs)
  let cs := (chomp? cs).getD cs
  let cs := (← after? (closing label).reverse cs.reverse).reverse
  Base64.decodeList? (← unrows? (cs.length + 1) (← chomp? cs))

end Imageboard.Pem
