import Imageboard.Crypto.Md5

namespace Imageboard.Md5Crypt

def alphabet : List Char :=
  "./0123456789ABCDEFGHIJKLMNOPQRSTUVWXYZabcdefghijklmnopqrstuvwxyz".toList

/-- The salt that a text stands for: what precedes a dollar sign, at most eight characters, all
from the alphabet. An empty salt has to be marked by its dollar sign. -/
def salt? (text : String) : Option (List Char) :=
  let cs := text.toList.takeWhile (· != '$')
  let rec cut : Nat → List Char → Option (List Char)
    | 0, _ | _, [] => some []
    | n + 1, c :: cs => if alphabet.contains c then (cut n cs).map (c :: ·) else none
  if text = "" then none else cut 8 cs

/-- `n` bytes of a digest repeated as often as that takes. -/
def stretched (digest : Bytes) (n : Nat) : Bytes :=
  ((List.replicate (n / 16 + 1) digest).flatten).take n

/-- One byte for each bit of a length, lowest first: zero for a one, the first byte of the password
for a zero. -/
def lengthBits (first : UInt8) : Nat → Nat → Bytes
  | 0, _ => []
  | fuel + 1, n =>
    if n = 0 then []
    else (if n % 2 = 1 then 0 else first) :: lengthBits first fuel (n / 2)

def round (password salt digest : Bytes) (i : Nat) : Bytes :=
  let odd := i % 2 = 1
  Md5.digest ((if odd then password else digest) ++ (if i % 3 ≠ 0 then salt else []) ++
    (if i % 7 ≠ 0 then password else []) ++ if odd then digest else password)

def digits : Nat → Nat → List Char
  | 0, _ => []
  | n + 1, v => alphabet[v % 64]?.getD '.' :: digits n (v / 64)

/-- The order in which the bytes of the last digest are written, three to four digits. -/
def groups : List (Nat × Nat × Nat) :=
  [(0, 6, 12), (1, 7, 13), (2, 8, 14), (3, 9, 15), (4, 10, 5)]

def render (digest : Bytes) : List Char :=
  let byte (i : Nat) := (digest[i]?.getD 0).toNat
  groups.flatMap (fun (i, j, k) => digits 4 ((byte i * 256 + byte j) * 256 + byte k)) ++
    digits 2 (byte 11)

def digest (password salt : Bytes) : Bytes :=
  let alternate := Md5.digest (password ++ salt ++ password)
  let start := Md5.digest (password ++ Text.ofLatin ['$', '1', '$'] ++ salt ++
    stretched alternate password.length ++
    lengthBits (password.head?.getD 0) (password.length + 1) password.length)
  (List.range 1000).foldl (round password salt) start

/-- `$1$`, the salt, a dollar sign and 22 digits; none if the text cannot be a salt. -/
def hash? (password : Bytes) (saltText : String) : Option (List Char) := do
  let salt ← salt? saltText
  return ['$', '1', '$'] ++ salt ++ '$' :: render (digest password (Text.ofLatin salt))

end Imageboard.Md5Crypt
