import Imageboard.Crypto.Md5Crypt
import Imageboard.Fault
import Imageboard.Text.ShiftJis

namespace Imageboard.Tripcode

open Text

def escape (b : UInt8) : Bytes :=
  if b = 0x26 then ofLatin "&amp;".toList
  else if b = 0x22 then ofLatin "&quot;".toList
  else if b = 0x3C then ofLatin "&lt;".toList
  else if b = 0x3E then ofLatin "&gt;".toList
  else [b]

def convert (secret : String) : Bytes :=
  (shiftJis secret).flatMap escape

/-- A digit of a salt for each byte. Digits and letters stand for themselves, the signs between them
for letters, and all other bytes for a dot. -/
def saltTable : List Char :=
  List.replicate 46 '.' ++
    "./0123456789ABCDEFGABCDEFGHIJKLMNOPQRSTUVWXYZabcdefabcdefghijklmnopqrstuvwxyz".toList ++
    List.replicate 133 '.'

theorem length_saltTable : saltTable.length = 256 := by
  decide +kernel

def saltDigit (c : Char) : Char :=
  have bound : c.toNat % 256 < saltTable.length := by
    rw [length_saltTable]
    exact Nat.mod_lt _ (by decide)
  saltTable[c.toNat % 256]

/-- The second and third character of the password, filled up by `H..`. -/
def saltChars (password : Bytes) : List Char :=
  (decodeWith ['\uFFFD'] 3 (password ++ ofLatin ['H', '.', '.'])).drop 1

def plainSalt (password : Bytes) : List Char :=
  (saltChars password).map saltDigit

def hashTail (password : Bytes) (salt : String) : Except Fault String :=
  match Md5Crypt.hash? password salt with
  | some hash => .ok (String.ofList (hash.drop (hash.length - 10)))
  | none => .error (Fault.broke .salt |>.doing (.hashing salt))

def plain (secret : String) : Except Fault String :=
  let password := convert secret
  hashTail password (String.ofList (plainSalt password))

def secure (secret salt : String) : Except Fault String :=
  hashTail (convert secret) salt

structure Signed where
  name : String
  trip : String
deriving DecidableEq, Repr

def secret? (mark : List Char) (cs : List Char) : Option (List Char) :=
  match cs with
  | [] => none
  | c :: rest =>
    match after? mark (c :: rest) with
    | some tail => some (tail.takeWhile (· != '\n'))
    | none => secret? mark rest

/-- Each line cut at its first mark; `keep` tells whether the line is still uncut. -/
def withoutSecrets (mark : List Char) (keep : Bool) : List Char → List Char
  | [] => []
  | c :: cs =>
    if c = '\n' then c :: withoutSecrets mark true cs
    else if keep && (after? mark (c :: cs)).isNone then c :: withoutSecrets mark true cs
    else withoutSecrets mark false cs

/-- Splits a poster's name. Two marks win over one and need the salt of the board. -/
def ofName (input : String) (salt : Option String) : Except Fault Signed :=
  let cs := input.toList
  match secret? ['#', '#'] cs with
  | some secret =>
    match salt with
    | none | some "" => .error (Fault.refused .noTripcodeSalt)
    | some salt => do
      let trip ← secure (String.ofList secret) salt
      return ⟨String.ofList (withoutSecrets ['#', '#'] true cs), "!!" ++ trip⟩
  | none =>
    match secret? ['#'] cs with
    | some secret => do
      let trip ← plain (String.ofList secret)
      return ⟨String.ofList (withoutSecrets ['#'] true cs), "!" ++ trip⟩
    | none => .ok ⟨input, ""⟩

end Imageboard.Tripcode
