import Imageboard.Text.Bytes
import Imageboard.Text.ShiftJisRows

namespace Imageboard.Text

def column? (c : Char) : List Char → Nat → Option Nat
  | [], _ => none
  | d :: ds, i => if c = d then some i else column? c ds (i + 1)

def shiftJisCell? (c : Char) : Option Nat :=
  if c = emptyCell then none
  else shiftJisRows.findSome? fun (row, cells) => (column? c cells.toList 0).map (94 * row + ·)

/-- Lead and trail byte of a cell; the bytes `A0`–`DF` and `7F` are left out. -/
def cellBytes (cell : Nat) : Bytes :=
  let lead := cell / 188
  let trail := cell % 188
  [UInt8.ofNat (lead + if lead < 0x1F then 0x81 else 0xC1),
   UInt8.ofNat (trail + if trail < 0x3F then 0x40 else 0x41)]

def characterReference (c : Char) : Bytes :=
  ofLatin (['&', '#'] ++ Nat.toDigits 10 c.toNat ++ [';'])

def shiftJisChar (c : Char) : Bytes :=
  let n := c.toNat
  if n ≤ 0x80 then [UInt8.ofNat n]
  else if n = 0xA5 then [0x5C]
  else if n = 0x203E then [0x7E]
  else if 0xFF61 ≤ n ∧ n ≤ 0xFF9F then [UInt8.ofNat (n - 0xFF61 + 0xA1)]
  else
    match shiftJisCell? (if n = 0x2212 then '\uFF0D' else c) with
    | some cell => cellBytes cell
    | none => characterReference c

def shiftJis (s : String) : Bytes :=
  s.toList.flatMap shiftJisChar

end Imageboard.Text
