import Imageboard.Crypto.RsaKeyFile
import Imageboard.Signature.Header
import Imageboard.Signature.SigningString
import Imageboard.Time.HttpDate
import Imageboard.Time.Instant

namespace Imageboard

open Text

def publicKeyOf (pem : String) : Except Fault Rsa.PublicKey :=
  ((Rsa.PublicKey.ofPem? pem).orBreak .keyFile).doing .parsingPublicKey

def privateKeyOf (pem : String) : Except Fault Rsa.PrivateKey :=
  ((Rsa.PrivateKey.ofPem? pem).orBreak .keyFile).doing .parsingPrivateKey

def verifySignature (pem text : String) (signature : Bytes) : Except Fault Unit := do
  let key ← publicKeyOf pem
  if Rsa.verify key (utf8 text) signature then .ok ()
  else .error ((Fault.broke .signature).doing .verifyingSignature)

namespace RequestHead

def digestOf (body : Bytes) : String :=
  "SHA-256=" ++ Base64.encode (Sha256.digest body)

/-- A request without a digest passes; whether one is needed is up to the signed headers. -/
def checkDigest (headers : Headers) (body : Bytes) : Except Fault Unit :=
  match headers.get? .digest with
  | none => .ok ()
  | some value => do
    let text ← (value.plain?.orBreak .header).doing .readingDigest
    match cut? '=' text.toList with
    | none => .error (.refused .digestUnreadable)
    | some (algorithm, digest) =>
      if sameLetters (trim (String.ofList algorithm)) "SHA-256" then
        let expected ← ((Base64.decodeList? (strip isBlank digest)).orBreak .base64).doing
          .decodingDigest
        if expected = Sha256.digest body then .ok () else .error (.refused .digestMismatch)
      else .error (.refused (.digestAlgorithm (String.ofList algorithm)))

def checkDate (headers : Headers) (maxSkew : Nat) (now : Instant) : Except Fault Unit :=
  match headers.get? .date with
  | none => .error (.refused .noDate)
  | some value => do
    let text ← (value.plain?.orBreak .header).doing .readingDate
    let second ← ((HttpDate.parse? text).orBreak .date).doing .parsingDate
    let skew := (now.nanos - second * 1000000000).natAbs
    if maxSkew * 1000000000 < skew then .error (.refused (.dateSkew (skew / 1000000000)))
    else .ok ()

def signatureText (r : RequestHead) : Except Fault String :=
  match r.headers.get? .signature with
  | none => .error (.refused .noSignatureHeader)
  | some value => (value.plain?.orBreak .header).doing .readingSignature

def withHeader (r : RequestHead) (name : HeaderName) (shown text : String) :
    Except Fault RequestHead := do
  let value ← ((HeaderValue.of? text).orBreak .header).doing (.settingHeader shown)
  return { r with headers := r.headers.insert name value }

/-- Fills in the date, the digest of a body or of a signed digest, and the host, where the headers
lack them. -/
def complete (r : RequestHead) (names : List String) (body : Bytes) (now : Instant) :
    Except Fault RequestHead := do
  let r ← if r.headers.contains .date then .ok r
    else r.withHeader .date "Date" (HttpDate.render now.second)
  let wanted := !body.isEmpty || names.contains "digest"
  let r ← if !wanted || r.headers.contains .digest then .ok r
    else r.withHeader .digest "Digest" (digestOf body)
  if r.headers.contains .host || r.uri.authority = "" then .ok r
  else r.withHeader .host "Host" r.uri.authority

def sign (r : RequestHead) (pem keyId : String) (signed : List String) (body : Bytes)
    (now : Instant) : Except Fault RequestHead := do
  let names := signed.map lower
  let r ← r.complete names body now
  let text ← r.signingString names
  let key ← privateKeyOf pem
  let signature ← (Rsa.sign? key (utf8 text)).orBreak .signature
  r.withHeader .signature "Signature" (SignatureHeader.render keyId names signature)

end RequestHead
end Imageboard
