import Imageboard.Text.Blank

namespace Imageboard

def Uri.isSchemeChar (c : Char) : Bool :=
  Text.isAlphanumeric c || c == '+' || c == '-' || c == '.' || c == '~'

def Uri.isAuthorityChar (c : Char) : Bool :=
  Text.isAlphanumeric c || "!$&'()*+,-.:;=@[]_~".toList.contains c

def Uri.isPathChar (c : Char) : Bool :=
  let n := c.toNat
  n == 0x21 || (0x24 ≤ n && n ≤ 0x3B) || n == 0x3D || (0x40 ≤ n && n ≤ 0x5F) ||
    (0x61 ≤ n && n ≤ 0x7E) || 0x80 ≤ n || c == '"'

def Uri.isQueryChar (c : Char) : Bool :=
  let n := c.toNat
  n == 0x21 || (0x24 ≤ n && n ≤ 0x3B) || n == 0x3D || (0x3F ≤ n && n ≤ 0x7E) || 0x80 ≤ n

/-- Characters that a target may hold: neither controls nor blanks of ASCII. -/
def Uri.isTargetChar (c : Char) : Bool :=
  0x20 < c.toNat && c.toNat != 0x7F

structure Uri where
  /-- Whether a scheme precedes the authority. -/
  absolute : Bool
  authority : String
  resource : String
  authority_ok : authority.toList.all (fun c => Uri.isTargetChar c && c.toNat < 0x7F) = true
  resource_ok : resource.toList.all Uri.isTargetChar = true

namespace Uri

def maxLength : Nat := 65534
def maxSchemeLength : Nat := 64
def maxColons : Nat := 8

/-- The target with which a request is made and signed. An authority alone has none. -/
def target (u : Uri) : String :=
  if u.absolute || u.authority == "" then (if u.resource = "" then "/" else u.resource) else ""

def afterScheme? (cs : List Char) : Option (Bool × List Char) :=
  let lowered (n : Nat) := (cs.take n).map Text.lowerChar
  if lowered 7 = "http://".toList then some (true, cs.drop 7)
  else if lowered 8 = "https://".toList then some (true, cs.drop 8)
  else
    let scheme := cs.takeWhile isSchemeChar
    match Text.after? "://".toList (cs.drop scheme.length) with
    | some rest =>
      if cs.length ≤ 3 then some (false, cs)
      else if maxSchemeLength < scheme.length then none
      else some (true, rest)
    | none => some (false, cs)

structure Scan where
  colons : Nat := 0
  opened : Bool := false
  closed : Bool := false
  percent : Bool := false
  endsInAt : Bool := false

/-- Takes a character of an authority. A closing bracket ends an address in brackets and an at sign
the name of a user; colons and percent signs before them do not count. -/
def Scan.step (s : Scan) (c : Char) : Option Scan :=
  let s := { s with endsInAt := c == '@' }
  if c = ':' then if maxColons ≤ s.colons then none else some { s with colons := s.colons + 1 }
  else if c = '[' then if s.percent || s.opened then none else some { s with opened := true }
  else if c = ']' then
    if !s.opened || s.closed then none
    else some { s with closed := true, colons := 0, percent := false }
  else if c = '@' then some { s with colons := 0, percent := false }
  else if c = '%' then some { s with percent := true }
  else if isAuthorityChar c then some s
  else none

def endsAuthority (c : Char) : Bool :=
  c == '/' || c == '?' || c == '#'

def authority? (cs : List Char) : Option (List Char × List Char) := do
  let part := cs.takeWhile fun c => !endsAuthority c
  let s ← part.foldlM Scan.step {}
  if s.opened == s.closed && s.colons ≤ 1 && !s.endsInAt && !s.percent then
    some (part, cs.drop part.length)
  else none

def resource? (cs : List Char) : Option (List Char) :=
  let cs := cs.takeWhile (· != '#')
  let path := cs.takeWhile (· != '?')
  let query := cs.drop path.length
  if path.all isPathChar && query.all isQueryChar then some cs else none

def make? (absolute : Bool) (authority resource : List Char) : Option Uri :=
  let a := String.ofList authority
  let r := String.ofList resource
  if h : a.toList.all (fun c => isTargetChar c && c.toNat < 0x7F) = true ∧
      r.toList.all isTargetChar = true then
    some ⟨absolute, a, r, h.1, h.2⟩
  else none

def parse? (s : String) : Option Uri := do
  let cs := s.toList
  if cs.isEmpty || maxLength < s.utf8ByteSize then none
  else if cs = ['*'] then make? false [] cs
  else if cs.head? = some '/' then make? false [] (← resource? cs)
  else
    let (absolute, cs) ← afterScheme? cs
    let (authority, rest) ← authority? cs
    if authority.isEmpty then none
    else if absolute then make? true authority (← resource? rest)
    else if rest.isEmpty then make? false authority []
    else none

end Uri
end Imageboard
