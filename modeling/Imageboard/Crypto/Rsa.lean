import Imageboard.Crypto.Sha256

namespace Imageboard.Rsa

def maxBits : Nat := 4096

structure PublicKey where
  modulus : Nat
  exponent : Nat
deriving DecidableEq, Repr

structure PrivateKey where
  modulus : Nat
  exponent : Nat
  secret : Nat
  p : Nat
  q : Nat
deriving DecidableEq, Repr

def PrivateKey.public (k : PrivateKey) : PublicKey :=
  ⟨k.modulus, k.exponent⟩

def bits (n : Nat) : Nat :=
  if n = 0 then 0 else n.log2 + 1

/-- Whether numbers can be a public key: both odd, the exponent above one and at most 33 bits. -/
def PublicKey.isSound (k : PublicKey) : Bool :=
  bits k.modulus ≤ maxBits && k.exponent < k.modulus && k.modulus % 2 == 1 &&
    k.exponent % 2 == 1 && 2 ≤ k.exponent && k.exponent < 0x200000000

def PrivateKey.isSound (k : PrivateKey) : Bool :=
  k.public.isSound && 2 ≤ k.p && 2 ≤ k.q && k.p * k.q == k.modulus && 1 ≤ k.secret &&
    (k.exponent * k.secret - 1) % (k.p - 1) == 0 && (k.exponent * k.secret - 1) % (k.q - 1) == 0

def powMod (m b e : Nat) : Nat :=
  if e = 0 then 1 % m
  else
    let h := powMod m (b * b % m) (e / 2)
    if e % 2 = 1 then b * h % m else h
termination_by e
decreasing_by omega

def digestMark : Bytes :=
  [0x30, 0x31, 0x30, 0x0d, 0x06, 0x09, 0x60, 0x86, 0x48, 0x01, 0x65, 0x03, 0x04, 0x02, 0x01, 0x05,
   0x00, 0x04, 0x20]

def PublicKey.size (k : PublicKey) : Nat :=
  Text.byteLength k.modulus

def padded? (size : Nat) (message : Bytes) : Option Nat :=
  let tail := digestMark ++ Sha256.digest message
  if tail.length + 11 ≤ size then
    some (Text.toNumber
      ([0x00, 0x01] ++ List.replicate (size - tail.length - 3) 0xff ++ [0x00] ++ tail))
  else none

def sign? (k : PrivateKey) (message : Bytes) : Option Bytes :=
  let size := k.public.size
  (padded? size message).map fun m => Text.ofNumber size (powMod k.modulus m k.secret)

def verify (k : PublicKey) (message signature : Bytes) : Bool :=
  let s := Text.toNumber signature
  signature.length == k.size && s < k.modulus &&
    padded? k.size message == some (powMod k.modulus s k.exponent)

end Imageboard.Rsa
