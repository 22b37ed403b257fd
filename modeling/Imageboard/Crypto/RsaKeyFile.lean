import Imageboard.Crypto.Der
import Imageboard.Crypto.Pem
import Imageboard.Crypto.Rsa

namespace Imageboard.Rsa

open Der

def algorithm : Bytes :=
  sequence [[0x06, 0x09, 0x2a, 0x86, 0x48, 0x86, 0xf7, 0x0d, 0x01, 0x01, 0x01], [0x05, 0x00]]

def afterAlgorithm? (bs : Bytes) : Option Bytes :=
  if bs.take algorithm.length = algorithm then some (bs.drop algorithm.length) else none

namespace PublicKey

def toBytes (k : PublicKey) : Bytes :=
  sequence [integer k.modulus, integer k.exponent]

def ofBytes? (bs : Bytes) : Option PublicKey := do
  match ← integers? 2 (← only? sequenceTag bs) with
  | ([n, e], []) => if isSound ⟨n, e⟩ then some ⟨n, e⟩ else none
  | _ => none

def toPem (k : PublicKey) : String :=
  Pem.encode "PUBLIC KEY" (sequence [algorithm, wrap bitsTag (0 :: k.toBytes)])

def ofEnvelope? (bs : Bytes) : Option PublicKey := do
  match ← only? bitsTag (← afterAlgorithm? (← only? sequenceTag bs)) with
  | 0 :: key => ofBytes? key
  | _ => none

def ofPem? (text : String) : Option PublicKey :=
  ((Pem.decode? "PUBLIC KEY" text).bind ofEnvelope?).orElse fun _ =>
    (Pem.decode? "RSA PUBLIC KEY" text).bind ofBytes?

end PublicKey

/-- The inverse of `a` modulo `m`, by the steps of the division of `m` by `a`. -/
def inverse (a m : Nat) : Nat :=
  (go (Nat.log2 a * 2 + 4) (a % m) m 1 0 % (m : Int)).toNat
where
  /-- Keeps `x * a ≡ r` and `y * a ≡ s`. -/
  go : Nat → Nat → Nat → Int → Int → Int
    | 0, _, _, x, _ => x
    | fuel + 1, r, s, x, y => if r ≤ 1 then x else go fuel (s % r) r (y - (s / r : Nat) * x) x

namespace PrivateKey

def toBytes (k : PrivateKey) : Bytes :=
  sequence ([0, k.modulus, k.exponent, k.secret, k.p, k.q, k.secret % (k.p - 1),
    k.secret % (k.q - 1), inverse k.q k.p].map integer)

/-- The four helper numbers at the end are not looked at. -/
def ofBytes? (bs : Bytes) : Option PrivateKey := do
  match ← integers? 9 (← only? sequenceTag bs) with
  | (0 :: n :: e :: d :: p :: q :: _, []) =>
    let k : PrivateKey := ⟨n, e, d, p, q⟩
    if k.isSound then some k else none
  | _ => none

def toPem (k : PrivateKey) : String :=
  Pem.encode "RSA PRIVATE KEY" k.toBytes

/-- Whether a field after the key is one value in an envelope with a number. -/
def isExtension (field : UInt8 × Bytes) : Bool :=
  0xa0 ≤ field.1 && field.1 ≤ 0xbe && isValue field.2

/-- Whether the fields after the key suit the version of an envelope: attributes (number 0), the
public key (number 1) as whole bytes in version 1 only, and extensions. -/
def fieldsSuit (version : Nat) (fields : List (UInt8 × Bytes)) : Bool :=
  match fields.dropWhile fun f => f.1 == 0x80 || f.1 == 0xa0 with
  | (0x81, bits) :: rest => version == 1 && bits.head? == some 0 && rest.all isExtension
  | (0xa1, _) :: _ => false
  | rest => version == 0 && rest.all isExtension

/-- The key in its envelope. Beyond it and its algorithm the envelope only has to be well-formed. -/
def ofEnvelope? (bs : Bytes) : Option PrivateKey := do
  let (version, bs) ← integer? (← only? sequenceTag bs)
  let (key, rest) ← unwrap? bytesTag (← afterAlgorithm? bs)
  if fieldsSuit version (← values? rest.length rest) then ofBytes? key else none

def ofPem? (text : String) : Option PrivateKey :=
  ((Pem.decode? "RSA PRIVATE KEY" text).bind ofBytes?).orElse fun _ =>
    (Pem.decode? "PRIVATE KEY" text).bind ofEnvelope?

end PrivateKey
end Imageboard.Rsa
