import Imageboard.Federation.Inbox
import Imageboard.Proofs.Signature.Request

namespace Imageboard

/-- The owner and the text of the key that a key id leads to: a key that is registered here, or else
one that the resolver answers with. -/
def Node.keyFor (n : Node) (web : Web) (tick : Int) (cache : KeyCache) (log : Log)
    (keyId : String) :
    Except Fault (String × String) :=
  match n.publicKey keyId with
  | .error f => .error f
  | .ok (some key) => .ok (key.owner, key.pem)
  | .ok none => ((resolveKey web tick keyId cache).run log).1.1.map fun k => (k.actorUrl, k.pem)

namespace Site

/-- A request is authentic for an actor: its date is near, its digest is that of the body, and it
has a usable signature header with a signature over the signed headers by the key of the key id. -/
structure Authentic (s : Site) (web : Web) (time : Time) (n : Node) (r : RequestHead) (body : Bytes)
    (cache : KeyCache) (log : Log) (actor : String) (header : SignatureHeader)
    (text pem : String) : Prop where
  date : RequestHead.DateWithin r.headers s.config.dateSkew time.now
  digest : RequestHead.DigestMatches r.headers body
  shown : ∃ value shown, r.headers.get? .signature = some value ∧ value.plain? = some shown ∧
    header = .parse shown
  usable : header.check = .ok ()
  signed : r.signingString header.signedHeaders = .ok text
  key : n.keyFor web time.tick cache log header.keyId = .ok (actor, pem)
  verified : ∃ signature key, header.bytes = .ok signature ∧ publicKeyOf pem = .ok key ∧
    Rsa.verify key (Text.utf8 text) signature = true

variable {s : Site} {web : Web} {time : Time} {n : Node} {r : RequestHead} {body : Bytes}
  {cache : KeyCache} {log : Log} {actor text pem : String} {header : SignatureHeader}
  {known : Option PublicKey}

theorem examine_eq_ok_iff :
    s.examine time.now n r body = .ok (header, text, known) ↔
      RequestHead.DigestMatches r.headers body ∧
      RequestHead.DateWithin r.headers s.config.dateSkew time.now ∧
      (∃ value shown, r.headers.get? .signature = some value ∧ value.plain? = some shown ∧
        header = .parse shown) ∧
      header.check = .ok () ∧ r.signingString header.signedHeaders = .ok text ∧
      n.publicKey header.keyId = .ok known := by
  unfold examine
  constructor
  · intro h
    obtain ⟨⟨⟩, hdigest, h⟩ := except_bind_eq_ok.1 h
    obtain ⟨⟨⟩, hdate, h⟩ := except_bind_eq_ok.1 h
    obtain ⟨shown, hshown, h⟩ := except_bind_eq_ok.1 h
    obtain ⟨⟨⟩, hcheck, h⟩ := except_bind_eq_ok.1 h
    obtain ⟨signed, hsigned, h⟩ := except_bind_eq_ok.1 h
    obtain ⟨key, hkey, h⟩ := except_bind_eq_ok.1 h
    obtain ⟨value, hv, hplain⟩ := RequestHead.signatureText_eq_ok_iff.1 hshown
    cases except_pure_eq_ok.1 h
    exact ⟨RequestHead.checkDigest_eq_ok_iff.1 (doing_eq_ok.1 hdigest),
      RequestHead.checkDate_eq_ok_iff.1 (doing_eq_ok.1 hdate), ⟨value, shown, hv, hplain, rfl⟩,
      doing_eq_ok.1 hcheck, doing_eq_ok.1 hsigned, hkey⟩
  · rintro ⟨hdigest, hdate, ⟨value, shown, hv, hplain, rfl⟩, hcheck, hsigned, hkey⟩
    have hdigest := RequestHead.checkDigest_eq_ok_iff.2 hdigest
    have hdate := RequestHead.checkDate_eq_ok_iff.2 hdate
    have hshown := RequestHead.signatureText_eq_ok_iff.2 ⟨value, hv, hplain⟩
    refine except_bind_eq_ok.2 ⟨(), doing_eq_ok.2 hdigest, ?_⟩
    refine except_bind_eq_ok.2 ⟨(), doing_eq_ok.2 hdate, ?_⟩
    refine except_bind_eq_ok.2 ⟨shown, hshown, ?_⟩
    refine except_bind_eq_ok.2 ⟨(), doing_eq_ok.2 hcheck, ?_⟩
    refine except_bind_eq_ok.2 ⟨text, doing_eq_ok.2 hsigned, ?_⟩
    exact except_bind_eq_ok.2 ⟨known, hkey, rfl⟩

theorem vouch_eq_ok_iff {owner : String} :
    vouch header text owner pem = .ok actor ↔ owner = actor ∧ ∃ signature key,
      header.bytes = .ok signature ∧ publicKeyOf pem = .ok key ∧
      Rsa.verify key (Text.utf8 text) signature = true := by
  unfold vouch
  constructor
  · intro h
    obtain ⟨signature, hs, h⟩ := except_bind_eq_ok.1 h
    obtain ⟨⟨⟩, hv, h⟩ := except_bind_eq_ok.1 h
    obtain ⟨key, hk, hv⟩ := verifySignature_eq_ok_iff.1 (doing_eq_ok.1 hv)
    exact ⟨except_pure_eq_ok.1 h, signature, key, hs, hk, hv⟩
  · rintro ⟨rfl, signature, key, hs, hk, hv⟩
    refine except_bind_eq_ok.2 ⟨signature, hs, ?_⟩
    exact except_bind_eq_ok.2 ⟨(), doing_eq_ok.2 (verifySignature_eq_ok_iff.2 ⟨key, hk, hv⟩), rfl⟩

theorem authenticate_of_examine (h : s.examine time.now n r body = .ok (header, text, known)) :
    ((s.authenticate web time n r body cache).run log).1.1 = .ok actor ↔
      ∃ owner pem, n.keyFor web time.tick cache log header.keyId = .ok (owner, pem) ∧
        vouch header text owner pem = .ok actor := by
  have hknown : n.publicKey header.keyId = .ok known := (examine_eq_ok_iff.1 h).2.2.2.2.2
  unfold authenticate Node.keyFor
  rw [h, hknown]
  cases known with
  | some key =>
    constructor
    · intro h
      exact ⟨_, _, rfl, h⟩
    · rintro ⟨_, _, he, h⟩
      cases he
      exact h
  | none =>
    dsimp only
    rw [run_bind]
    rcases (resolveKey web time.tick header.keyId cache).run log with ⟨⟨f | key, c⟩, log'⟩
    · exact ⟨nofun, fun ⟨_, _, he, _⟩ => by cases he⟩
    · constructor
      · intro h
        exact ⟨_, _, rfl, h⟩
      · rintro ⟨_, _, he, h⟩
        cases he
        exact h

/-- A request is taken for an actor's exactly if it is authentic. -/
theorem authenticate_eq_ok_iff :
    ((s.authenticate web time n r body cache).run log).1.1 = .ok actor ↔
      ∃ header text pem, s.Authentic web time n r body cache log actor header text pem := by
  constructor
  · intro h
    cases he : s.examine time.now n r body with
    | error f =>
      unfold authenticate at h
      rw [he] at h
      cases h
    | ok found =>
      obtain ⟨header, text, known⟩ := found
      obtain ⟨owner, pem, hkey, hv⟩ := (authenticate_of_examine he).1 h
      obtain ⟨hdigest, hdate, hshown, hcheck, hsigned, -⟩ := examine_eq_ok_iff.1 he
      obtain ⟨rfl, hverified⟩ := vouch_eq_ok_iff.1 hv
      exact ⟨header, text, pem, hdate, hdigest, hshown, hcheck, hsigned, hkey, hverified⟩
  · rintro ⟨header, text, pem, h⟩
    obtain ⟨known, hknown⟩ : ∃ known, n.publicKey header.keyId = .ok known := by
      have hkey := h.key
      unfold Node.keyFor at hkey
      split at hkey
      next => cases hkey
      next hp => exact ⟨_, hp⟩
      next hp => exact ⟨_, hp⟩
    have he : s.examine time.now n r body = .ok (header, text, known) :=
      examine_eq_ok_iff.2 ⟨h.digest, h.date, h.shown, h.usable, h.signed, hknown⟩
    exact (authenticate_of_examine he).2 ⟨actor, pem, h.key, vouch_eq_ok_iff.2 ⟨rfl, h.verified⟩⟩

end Site

section Specimen

open Text

def specimenKey : String :=
  "-----BEGIN RSA PUBLIC KEY-----\n" ++
    "MEQCPwDXbZ+WkyP1aZQNhln21grzbk1TQjbTdiT6EdR6g2fo9fXhaX3jcsgHlMbQ\n" ++
    "f81HdUlQrczWOhrRMwqpHzzQ9wIBAw==\n-----END RSA PUBLIC KEY-----\n"

def specimenNode : Node where
  board := { keys := .ofList [⟨"k", "http://u", "f"⟩] }
  files := .ofList [⟨["f"], .text specimenKey⟩]

def specimenBody : Bytes :=
  utf8 "\x7b\"type\":\"Accept\",\"actor\":\"http://u\"\x7d"

def specimenDigest : HeaderValue :=
  ⟨"SHA-256=GXdBURZRGtcwvu4/+fexG0pPyFOMG6oKbbmOgI0qmmQ=", by decide +kernel⟩

def specimenText : String :=
  "(request-target): post /in\ndate: Thu, 01 Jan 1970 00:00:00 GMT\n" ++
    "digest: SHA-256=GXdBURZRGtcwvu4/+fexG0pPyFOMG6oKbbmOgI0qmmQ="

def specimenHeader : SignatureHeader where
  keyId := "k"
  headers := ["(request-target)", "date", "digest"]
  signature :=
    "nKg3HK8woc/3vnnm5AGcyQtCZ2fFpCCtdnWjtR7eIoFV7mUklCqiPFV9hglc1QvZvnKYZB95JtsH91NJ7Oo="

def specimenSignature : HeaderValue :=
  ⟨"keyId=\"k\",headers=\"(request-target) date digest\",signature=\"" ++
    specimenHeader.signature ++ "\"", by decide +kernel⟩

def specimenRequest (method : Method) (date : HeaderValue) : RequestHead where
  method
  uri := ⟨false, "", "/in", by decide, by decide⟩
  headers := [(.date, date), (.digest, specimenDigest), (.signature, specimenSignature)]

theorem parse_specimenSignature :
    SignatureHeader.parse specimenSignature.text = specimenHeader := by
  decide +kernel

theorem specimenSignature_verified :
    ∃ signature key, specimenHeader.bytes = .ok signature ∧ publicKeyOf specimenKey = .ok key ∧
      Rsa.verify key (utf8 specimenText) signature = true := by
  have hv : specimenHeader.bytes.bind (verifySignature specimenKey specimenText) = .ok () := by
    decide +kernel
  obtain ⟨signature, hs, hv⟩ := except_bind_eq_ok.1 hv
  obtain ⟨key, hk, hv⟩ := verifySignature_eq_ok_iff.1 hv
  exact ⟨signature, key, hs, hk, hv⟩

theorem specimen_authentic {s : Site} {web : Web} {time : Time} {cache : KeyCache} {log : Log}
    {method : Method} {date : HeaderValue}
    (hd : RequestHead.DateWithin (specimenRequest method date).headers s.config.dateSkew time.now)
    (ht : (specimenRequest method date).signingString specimenHeader.signedHeaders =
      .ok specimenText) :
    s.Authentic web time specimenNode (specimenRequest method date) specimenBody cache log
      "http://u" specimenHeader specimenText specimenKey := by
  have digest : RequestHead.DigestMatches [(.digest, specimenDigest)] specimenBody :=
    RequestHead.checkDigest_eq_ok_iff.1 (by decide +kernel)
  have known : specimenNode.publicKey specimenHeader.keyId =
      .ok (some ⟨"k", "http://u", specimenKey⟩) := rfl
  constructor
  case date => exact hd
  case digest => exact digest
  case shown => exact ⟨specimenSignature, _, rfl, by decide +kernel, parse_specimenSignature.symm⟩
  case usable => rfl
  case signed => exact ht
  case key => rw [Node.keyFor, known]
  case verified => exact specimenSignature_verified

end Specimen
end Imageboard
