import Imageboard.Proofs.Crypto.Rsa
import Imageboard.Proofs.Federation.Authentication
import Mathlib.Data.Set.Function

namespace Imageboard

open Text

/-- A request with all that it is judged by. -/
structure Trial where
  site : Site
  web : Web
  time : Time
  node : Node
  request : RequestHead
  body : Bytes
  cache : KeyCache := {}
  log : Log := []

namespace Trial

def result (t : Trial) : Except Fault String :=
  ((t.site.authenticate t.web t.time t.node t.request t.body t.cache).run t.log).1.1

def Accepted (t : Trial) : Prop :=
  ∃ actor, t.result = .ok actor

def signature? (t : Trial) : Option HeaderValue :=
  t.request.headers.get? .signature

def header (t : Trial) : SignatureHeader :=
  .parse ((t.signature?.map HeaderValue.text).getD "")

def key (t : Trial) : Except Fault Rsa.PublicKey := do
  publicKeyOf (← t.node.keyFor t.web t.time.tick t.cache t.log t.header.keyId).2

def signedText (t : Trial) : String :=
  (t.request.signingString t.header.signedHeaders).toOption.getD ""

/-- What is hashed for a request: its body, and the text that its signature covers. -/
def hashed (t : Trial) : Set Bytes :=
  {t.body, utf8 t.signedText}

variable {t u : Trial}

/-- What an accepted request has shown under its key. -/
structure Shown (t : Trial) (k : Rsa.PublicKey) : Prop where
  digest : RequestHead.DigestMatches t.request.headers t.body
  signed : t.request.signingString t.header.signedHeaders = .ok t.signedText
  verified : ∃ signature, t.header.bytes = .ok signature ∧
    Rsa.verify k (utf8 t.signedText) signature = true

theorem accepted_iff : t.Accepted ↔ ∃ actor header text pem,
    t.site.Authentic t.web t.time t.node t.request t.body t.cache t.log actor header text pem :=
  exists_congr fun _ => Site.authenticate_eq_ok_iff

theorem Accepted.shown (h : t.Accepted) : ∃ k, t.key = .ok k ∧ t.Shown k := by
  obtain ⟨actor, header, text, pem, h⟩ := accepted_iff.1 h
  have hheader : t.header = header := by
    obtain ⟨value, shown, hv, hp, rfl⟩ := h.shown
    obtain ⟨rfl, -⟩ := HeaderValue.plain?_eq_some_iff.1 hp
    rw [Trial.header, signature?, hv, Option.map_some, Option.getD_some]
  have htext : t.signedText = text := by
    rw [signedText, hheader, h.signed]
    rfl
  obtain ⟨signature, k, hs, hk, hv⟩ := h.verified
  refine ⟨k, ?_, h.digest, ?_, signature, ?_, ?_⟩
  · rw [key, hheader, h.key]
    exact hk
  · rw [hheader, htext]
    exact h.signed
  · rw [hheader]
    exact hs
  · rw [htext]
    exact hv

theorem header_eq (h : t.signature? = u.signature?) : t.header = u.header := by
  rw [header, header, h]

/-- Under one signature and one key, texts that are hashed alike are signed. -/
theorem signedText_eq {k : Rsa.PublicKey} (ht : t.Shown k) (hu : u.Shown k)
    (hs : t.signature? = u.signature?) (hsha : Set.InjOn Sha256.digest (t.hashed ∪ u.hashed)) :
    t.signedText = u.signedText := by
  obtain ⟨signature, hb, hv⟩ := ht.verified
  obtain ⟨signature', hb', hv'⟩ := hu.verified
  rw [header_eq hs, hb'] at hb
  cases hb
  have hd := Rsa.digest_eq_of_verify hv hv'
  exact utf8_inj.1 (hsha (.inl (.inr rfl)) (.inr (.inr rfl)) hd)

/-- Requests that are taken under one signature and one key agree on all that is signed: on method
and target, on the headers, and with the digest on the body. -/
theorem agree_of_accepted (t u : Trial) (ht : t.Accepted) (hu : u.Accepted)
    (hs : t.signature? = u.signature?) (hk : t.key = u.key)
    (hsha : Set.InjOn Sha256.digest (t.hashed ∪ u.hashed)) :
    (RequestHead.requestTarget ∈ t.header.signedHeaders →
      lower t.request.method.text = lower u.request.method.text ∧
      t.request.uri.target = u.request.uri.target) ∧
    (∀ name ∈ t.header.signedHeaders, name ≠ RequestHead.requestTarget →
      ∃ value, t.request.trimmed? name = some value ∧ u.request.trimmed? name = some value) ∧
    ("digest" ∈ t.header.signedHeaders → t.body = u.body) := by
  obtain ⟨k, hkt, ht⟩ := ht.shown
  obtain ⟨k', hku, hu⟩ := hu.shown
  obtain rfl : k = k' := Except.ok.inj (hkt.symm.trans (hk.trans hku))
  have hsigned : u.request.signingString t.header.signedHeaders = .ok t.signedText := by
    rw [header_eq hs, signedText_eq ht hu hs hsha]
    exact hu.signed
  have covered := RequestHead.covered_eq_of_signingString ht.signed hsigned
  have trimmed : ∀ name ∈ t.header.signedHeaders, name ≠ RequestHead.requestTarget →
      ∃ value, t.request.trimmed? name = some value ∧ u.request.trimmed? name = some value := by
    intro name hn hne
    have htn := RequestHead.signedLine_eq_ok ((RequestHead.signingString_eq_ok ht.signed).2 name hn)
    have hun := RequestHead.signedLine_eq_ok ((RequestHead.signingString_eq_ok hsigned).2 name hn)
    exact ⟨_, htn.2.2 hne, covered name hn ▸ hun.2.2 hne⟩
  refine ⟨fun hn => ?_, trimmed, fun hn => ?_⟩
  · have hline := covered _ hn
    rw [RequestHead.covered, if_pos rfl, RequestHead.covered, if_pos rfl] at hline
    exact RequestHead.targetLine_inj hline
  · obtain ⟨value, htv, huv⟩ := trimmed _ hn (by decide)
    have hname : HeaderName.of? "digest" = some .digest := by decide
    simp only [RequestHead.trimmed?, hname, Option.bind_some, Option.map_eq_some_iff] at htv huv
    obtain ⟨v, hv, rfl⟩ := htv
    obtain ⟨v', hv', he⟩ := huv
    exact hsha (.inl (.inl rfl)) (.inr (.inl rfl)) (ht.digest.digest_eq hu.digest hv hv' he.symm)

theorem agree_of_specimens :
    let specimen (method : Method) (date : HeaderValue) : Trial :=
      { site := ⟨{}, "", "", fun _ => false⟩, web := fun _ _ => .dropped, time := ⟨.epoch, 0⟩
        node := specimenNode, request := specimenRequest method date, body := specimenBody }
    let t := specimen .post ⟨"Thu, 01 Jan 1970 00:00:00 GMT", by decide⟩
    let u := specimen ⟨"post", by decide⟩ ⟨"Thu, 01 Jan 1970 00:00:00 GMT\t", by decide⟩
    t.Accepted ∧ u.Accepted ∧ t.signature? = u.signature? ∧ t.key = u.key ∧
      Set.InjOn Sha256.digest (t.hashed ∪ u.hashed) ∧
      lower t.request.method.text = lower u.request.method.text ∧
      t.request.trimmed? "date" = u.request.trimmed? "date" ∧ t.body = u.body := by
  intro specimen t u
  have hts : t.request.signingString specimenHeader.signedHeaders = .ok specimenText := by
    decide +kernel
  have hus : u.request.signingString specimenHeader.signedHeaders = .ok specimenText := by
    decide +kernel
  have ht : t.Accepted := accepted_iff.2 ⟨_, _, _, _,
    specimen_authentic (RequestHead.checkDate_eq_ok_iff.1 (by decide +kernel)) hts⟩
  have hu : u.Accepted := accepted_iff.2 ⟨_, _, _, _,
    specimen_authentic (RequestHead.checkDate_eq_ok_iff.1 (by decide +kernel)) hus⟩
  have htheader : t.header = specimenHeader := parse_specimenSignature
  have huheader : u.header = specimenHeader := parse_specimenSignature
  have hsha : Set.InjOn Sha256.digest (t.hashed ∪ u.hashed) := by
    have httext : t.signedText = specimenText := by
      rw [signedText, htheader, hts]
      rfl
    have hutext : u.signedText = specimenText := by
      rw [signedText, huheader, hus]
      rfl
    have differ : Sha256.digest specimenBody ≠ Sha256.digest (utf8 specimenText) := by
      decide +kernel
    rw [hashed, hashed, httext, hutext, show u.body = t.body from rfl, Set.union_self,
      Set.injOn_pair]
    exact fun h => absurd h differ
  have hk : t.key = u.key := by
    rw [key, key, htheader, huheader]
  obtain ⟨target, headers, body⟩ := agree_of_accepted t u ht hu rfl hk hsha
  rw [htheader] at target headers body
  obtain ⟨date, hdt, hdu⟩ := headers "date" (by decide) (by decide)
  exact ⟨ht, hu, rfl, hk, hsha, (target (by decide)).1, hdt.trans hdu.symm, body (by decide)⟩

end Trial
end Imageboard
