import Imageboard.Crypto.RsaKeyFile

namespace Imageboard.Rsa

def smallPrimes : List Nat :=
  [3, 5, 7, 11, 13, 17, 19, 23, 29, 31, 37, 41, 43, 47, 53, 59, 61, 67, 71, 73, 79, 83, 89, 97,
   101, 103, 107, 109, 113, 127, 131, 137, 139, 149, 151, 157, 163, 167, 173, 179, 181, 191, 193,
   197, 199, 211]

def reachesMinusOne (n : Nat) : Nat → Nat → Bool
  | 0, _ => false
  | k + 1, x => x == n - 1 || reachesMinusOne n k (x * x % n)

def splitTwos : Nat → Nat → Nat → Nat × Nat
  | 0, s, d => (s, d)
  | fuel + 1, s, d => if d % 2 = 0 then splitTwos fuel (s + 1) (d / 2) else (s, d)

/-- Whether a number looks prime to one base. -/
def passes (n base : Nat) : Bool :=
  let (s, d) := splitTwos n.log2 0 (n - 1)
  let x := powMod n base d
  x == 1 || reachesMinusOne n s x

/-- Whether a large odd number is prime, up to an error that never shows in practice. -/
def isProbablePrime (n : Nat) : Bool :=
  smallPrimes.all (fun p => n % p != 0) && (2 :: smallPrimes.take 19).all (passes n)

/-- The first prime `p` from an odd number on, among the next `fuel` odd ones, with `p - 1` prime to
the exponent. -/
def nextPrime? (exponent : Nat) : Nat → Nat → Option Nat
  | 0, _ => none
  | fuel + 1, n =>
    if isProbablePrime n && (n - 1) % exponent != 0 then some n
    else nextPrime? exponent fuel (n + 2)

def commonExponent : Nat := 65537

/-- The least odd number of a width that has its two top bits set, moved on by a drawn number. -/
def startOf (width draw : Nat) : Nat :=
  3 * .pow 2 (width - 2) + 1 + 2 * (draw % .pow 2 (width - 4))

/-- A key of `size` bits from two drawn numbers; none if the size is out of bounds, or if they lead
to one prime, or to none nearby. -/
def PrivateKey.generate? (size : Nat) (first second : Nat) : Option PrivateKey := do
  if maxBits < size then none
  let p ← nextPrime? commonExponent (64 * size) (startOf (size - size / 2) first)
  let q ← nextPrime? commonExponent (64 * size) (startOf (size / 2) second)
  let k : PrivateKey :=
    ⟨p * q, commonExponent, inverse commonExponent ((p - 1) * (q - 1)), p, q⟩
  if p ≠ q ∧ k.isSound then some k else none

end Imageboard.Rsa
