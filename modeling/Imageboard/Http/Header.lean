import Imageboard.Text.Blank

namespace Imageboard

def isTokenChar (c : Char) : Bool :=
  Text.isAlphanumeric c || "!#$%&'*+-.^_|~".toList.contains c || c.toNat == 0x60

structure Method where
  text : String
  text_ok : text.toList.all isTokenChar = true

def Method.of? (s : String) : Option Method :=
  if s = "" then none
  else if h : s.toList.all isTokenChar = true then some ⟨s, h⟩
  else none

def Method.post : Method :=
  ⟨"POST", by decide⟩

def Method.get : Method :=
  ⟨"GET", by decide⟩

structure HeaderName where
  text : String
  text_ok : text.toList.all isTokenChar = true
deriving DecidableEq

namespace HeaderName

def maxLength : Nat := 65535

def of? (s : String) : Option HeaderName :=
  let s := Text.lower s
  if s = "" ∨ maxLength < s.length then none
  else if h : s.toList.all isTokenChar = true then some ⟨s, h⟩
  else none

def date : HeaderName := ⟨"date", by decide⟩
def digest : HeaderName := ⟨"digest", by decide⟩
def host : HeaderName := ⟨"host", by decide⟩
def signature : HeaderName := ⟨"signature", by decide⟩
def accept : HeaderName := ⟨"accept", by decide⟩
def contentType : HeaderName := ⟨"content-type", by decide⟩

end HeaderName

def isValueChar (c : Char) : Bool :=
  c == '\t' || (0x20 ≤ c.toNat && c.toNat != 0x7F)

/-- Characters of header values that read as text. -/
def isPlainChar (c : Char) : Bool :=
  c == '\t' || (0x20 ≤ c.toNat && c.toNat < 0x7F)

structure HeaderValue where
  text : String
  text_ok : text.toList.all isValueChar = true
deriving DecidableEq

namespace HeaderValue

def of? (s : String) : Option HeaderValue :=
  if h : s.toList.all isValueChar = true then some ⟨s, h⟩ else none

def plain? (v : HeaderValue) : Option String :=
  if v.text.toList.all isPlainChar then some v.text else none

end HeaderValue

/-- A name may stand several times; readers see the first. -/
abbrev Headers := List (HeaderName × HeaderValue)

namespace Headers

def get? (hs : Headers) (name : HeaderName) : Option HeaderValue :=
  (hs.find? fun h => h.1 == name).map (·.2)

def contains (hs : Headers) (name : HeaderName) : Bool :=
  (get? hs name).isSome

def insert (hs : Headers) (name : HeaderName) (value : HeaderValue) : Headers :=
  hs.filter (fun h => h.1 != name) ++ [(name, value)]

def erase (hs : Headers) (name : HeaderName) : Headers :=
  hs.filter fun h => h.1 != name

end Headers
end Imageboard
