import Imageboard.Crypto.Base64
import Imageboard.Fault

namespace Imageboard

structure SignatureHeader where
  keyId : String := ""
  headers : List String := []
  signature : String := ""
  algorithm : String := ""
deriving DecidableEq, Repr

namespace SignatureHeader

open Text

/-- Takes one part of a header; parts without `=` and unknown keys are passed over. -/
def take (h : SignatureHeader) (part : List Char) : SignatureHeader :=
  match cut? '=' part with
  | none => h
  | some (key, value) =>
    let key := String.ofList (strip isBlank key)
    let value := strip isBlank value
    if key = "keyId" then { h with keyId := String.ofList value }
    else if key = "headers" then
      { h with headers := (words value).map fun w => String.ofList (w.map lowerChar) }
    else if key = "signature" then { h with signature := String.ofList value }
    else if key = "algorithm" then { h with algorithm := String.ofList value }
    else h

/-- Quotes do not count; a later part wins over an earlier one of its key. -/
def parse (value : String) : SignatureHeader :=
  (pieces ',' (value.toList.filter (· != '"'))).foldl take {}

def rsaSha256 : String := "rsa-sha256"

def algorithms : List String := ["", rsaSha256, "hs2019"]

def check (h : SignatureHeader) : Except Fault Unit :=
  if h.keyId = "" then .error (.refused .noKeyId)
  else if h.signature = "" then .error (.refused .noSignature)
  else if algorithms.contains (lower h.algorithm) then .ok ()
  else .error (.refused (.unknownAlgorithm h.algorithm))

/-- The signed headers; the date where none is named. -/
def signedHeaders (h : SignatureHeader) : List String :=
  if h.headers.isEmpty then ["date"] else h.headers

def bytes (h : SignatureHeader) : Except Fault Bytes :=
  ((Base64.decode? h.signature).orBreak .base64).doing .decodingSignature

def withoutFragment (keyId : String) : String :=
  match cut? '#' keyId.toList with
  | some (front, _) => String.ofList front
  | none => keyId

def keyOwner (h : SignatureHeader) : String :=
  withoutFragment h.keyId

def render (keyId : String) (names : List String) (signature : Bytes) : String :=
  "keyId=\"" ++ keyId ++ "\",algorithm=\"" ++ rsaSha256 ++ "\",headers=\"" ++ join " " names ++
    "\",signature=\"" ++ Base64.encode signature ++ "\""

end SignatureHeader
end Imageboard
