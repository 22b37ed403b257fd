import Imageboard.Text.Bytes

namespace Imageboard.Digest

/-- The blocks of 64 bytes of a message; a shorter rest is left out. -/
def blocks (bs : Bytes) : List Bytes :=
  go (bs.length / 64) bs
where
  go : Nat → Bytes → List Bytes
    | 0, _ => []
    | n + 1, bs => bs.take 64 :: go n (bs.drop 64)

/-- A message with a one bit, zeros, and its length as eight more bytes after it. -/
def padded (message length : Bytes) : Bytes :=
  let zeros := (119 - message.length % 64) % 64
  message ++ 0x80 :: List.replicate zeros 0 ++ length

def rotateLeft (x : UInt32) (n : UInt32) : UInt32 :=
  (x <<< n) ||| (x >>> (32 - n))

def bigWords : Bytes → List UInt32
  | a :: b :: c :: d :: rest =>
    ((a.toUInt32 <<< 24) ||| (b.toUInt32 <<< 16) ||| (c.toUInt32 <<< 8) ||| d.toUInt32) ::
      bigWords rest
  | _ => []

def littleWords : Bytes → List UInt32
  | a :: b :: c :: d :: rest =>
    ((d.toUInt32 <<< 24) ||| (c.toUInt32 <<< 16) ||| (b.toUInt32 <<< 8) ||| a.toUInt32) ::
      littleWords rest
  | _ => []

def bigBytes (w : UInt32) : Bytes :=
  [(w >>> 24).toUInt8, (w >>> 16).toUInt8, (w >>> 8).toUInt8, w.toUInt8]

def littleBytes (w : UInt32) : Bytes :=
  (bigBytes w).reverse

end Imageboard.Digest
