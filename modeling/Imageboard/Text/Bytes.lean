import Imageboard.Text.Quoted

namespace Imageboard

abbrev Bytes := List UInt8

namespace Text

def utf8 (s : String) : Bytes :=
  s.toUTF8.toList

/-- How many bytes the UTF-8 form of a character has that starts with these, and its number. -/
def scalar? : Bytes → Option (Nat × Nat)
  | [] => none
  | a :: rest =>
    let tail (i : Nat) : Option Nat :=
      match rest[i]? with
      | some b => if 0x80 ≤ b ∧ b < 0xC0 then some (b.toNat - 0x80) else none
      | none => none
    let n := a.toNat
    if n < 0x80 then some (1, n)
    else if 0xC2 ≤ n ∧ n < 0xE0 then do
      let b ← tail 0
      return (2, (n - 0xC0) * 64 + b)
    else if 0xE0 ≤ n ∧ n < 0xF0 then do
      let v := ((n - 0xE0) * 64 + (← tail 0)) * 64 + (← tail 1)
      if 0x800 ≤ v ∧ ¬ (0xD800 ≤ v ∧ v < 0xE000) then some (3, v) else none
    else if 0xF0 ≤ n ∧ n < 0xF5 then do
      let v := (((n - 0xF0) * 64 + (← tail 0)) * 64 + (← tail 1)) * 64 + (← tail 2)
      if 0x10000 ≤ v ∧ v < 0x110000 then some (4, v) else none
    else none

/-- The first `count` characters of bytes read as UTF-8; a byte that starts none counts as one and
reads as `bad`. -/
def decodeWith (bad : List Char) : Nat → Bytes → List Char
  | 0, _ | _, [] => []
  | count + 1, b :: bs =>
    match scalar? (b :: bs) with
    | some (size, n) => Char.ofNat n :: decodeWith bad count ((b :: bs).drop size)
    | none => bad ++ decodeWith bad count bs

def ofLatin (cs : List Char) : Bytes :=
  cs.map fun c => UInt8.ofNat c.toNat

def hexOf (bs : Bytes) : String :=
  String.ofList (bs.flatMap fun b => [hexDigit (b.toNat / 16), hexDigit (b.toNat % 16)])

def hexValue? (c : Char) : Option Nat :=
  if '0' ≤ c ∧ c ≤ '9' then some (c.toNat - '0'.toNat)
  else if 'a' ≤ c ∧ c ≤ 'f' then some (c.toNat - 'a'.toNat + 10)
  else if 'A' ≤ c ∧ c ≤ 'F' then some (c.toNat - 'A'.toNat + 10)
  else none

def ofHex? : List Char → Option Bytes
  | [] => some []
  | [_] => none
  | a :: b :: cs => do
    let hi ← hexValue? a
    let lo ← hexValue? b
    let rest ← ofHex? cs
    return UInt8.ofNat (16 * hi + lo) :: rest

def toNumber (bs : Bytes) : Nat :=
  bs.foldl (fun n b => 256 * n + b.toNat) 0

/-- The `width` low bytes of a number, most significant first. -/
def ofNumber : Nat → Nat → Bytes
  | 0, _ => []
  | width + 1, n => ofNumber width (n / 256) ++ [UInt8.ofNat n]

def byteLength (n : Nat) : Nat :=
  if n = 0 then 0 else n.log2 / 8 + 1

end Text
end Imageboard
