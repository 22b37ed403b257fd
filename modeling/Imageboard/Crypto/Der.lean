import Imageboard.Text.Bytes

namespace Imageboard.Der

def integerTag : UInt8 := 0x02
def bitsTag : UInt8 := 0x03
def bytesTag : UInt8 := 0x04
def sequenceTag : UInt8 := 0x30

/-- A length: one byte below 128, else the number of its bytes and these. -/
def lengthBytes (n : Nat) : Bytes :=
  if n < 128 then [UInt8.ofNat n]
  else
    let width := Text.byteLength n
    UInt8.ofNat (128 + width) :: Text.ofNumber width n

def wrap (tag : UInt8) (content : Bytes) : Bytes :=
  tag :: lengthBytes content.length ++ content

/-- A number that is not negative; a zero byte keeps the sign bit clear. -/
def integer (n : Nat) : Bytes :=
  wrap integerTag (Text.ofNumber (n.log2 / 8 + 1 + if n.log2 % 8 = 7 then 1 else 0) n)

def sequence (parts : List Bytes) : Bytes :=
  wrap sequenceTag parts.flatten

def length? : Bytes → Option (Nat × Bytes)
  | [] => none
  | b :: bs =>
    let n := b.toNat
    if n < 128 then some (n, bs)
    else
      let width := n - 128
      let value := Text.toNumber (bs.take width)
      if 1 ≤ width ∧ width ≤ 4 ∧ width ≤ bs.length ∧ 128 ≤ value ∧
          Text.byteLength value = width then
        some (value, bs.drop width)
      else none

def unwrap? (tag : UInt8) : Bytes → Option (Bytes × Bytes)
  | [] => none
  | t :: bs =>
    if t = tag then
      match length? bs with
      | some (n, bs) => if n ≤ bs.length then some (bs.take n, bs.drop n) else none
      | none => none
    else none

def only? (tag : UInt8) (bs : Bytes) : Option Bytes :=
  match unwrap? tag bs with
  | some (content, []) => some content
  | _ => none

def integer? (bs : Bytes) : Option (Nat × Bytes) := do
  let (content, rest) ← unwrap? integerTag bs
  match content with
  | [] => none
  | [b] => if b < 128 then some (b.toNat, rest) else none
  | b :: c :: _ =>
    if b < 128 ∧ (b ≠ 0 ∨ 128 ≤ c) then some (Text.toNumber content, rest) else none

def integers? : Nat → Bytes → Option (List Nat × Bytes)
  | 0, bs => some ([], bs)
  | count + 1, bs => do
    let (n, bs) ← integer? bs
    let (ns, bs) ← integers? count bs
    return (n :: ns, bs)

def basicTags : List UInt8 :=
  [0x01, 0x02, 0x03, 0x04, 0x05, 0x06, 0x09, 0x0A, 0x0C, 0x12, 0x13, 0x14, 0x15, 0x16, 0x17, 0x18,
   0x1A, 0x1E, 0x30, 0x31]

/-- Whether a byte is a tag: of a basic type, or of another class with its number in five bits. -/
def isTag (b : UInt8) : Bool :=
  if b < 0x40 then basicTags.contains b else b % 32 != 31

def values? : Nat → Bytes → Option (List (UInt8 × Bytes))
  | _, [] => some []
  | 0, _ => none
  | fuel + 1, t :: bs => do
    let (content, rest) ← unwrap? t (t :: bs)
    let more ← values? fuel rest
    if isTag t then some ((t, content) :: more) else none

def isValue (bs : Bytes) : Bool :=
  match values? bs.length bs with
  | some [_] => true
  | _ => false

end Imageboard.Der
