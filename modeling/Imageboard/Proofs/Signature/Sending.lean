import Imageboard.Proofs.Crypto.KeyFile
import Imageboard.Proofs.Crypto.Signing
import Imageboard.Proofs.Signature.Header
import Imageboard.Proofs.Signature.Request
import Imageboard.Proofs.Time.HttpDate
import Mathlib.NumberTheory.LucasPrimality

namespace Imageboard

open Text

variable {s name text shown : String} {names signed : List String} {body : Bytes} {now : Instant}
  {r r' : RequestHead} {c : Char}

theorem HeaderName.isListed {key : HeaderName} (h : HeaderName.of? s = some key)
    (hs : lower s = s) : IsListed s := by
  obtain ⟨htext, hne⟩ := text_of_of? h
  rw [hs] at htext
  refine ⟨hne, hs, fun c hc => isTokenChar_bounds (List.all_eq_true.1 key.text_ok c ?_)⟩
  rwa [htext]

namespace RequestHead

theorem isListed_requestTarget : IsListed requestTarget :=
  ⟨by decide, by decide, forall_mem_of_all (by decide)⟩

theorem isListed_of_signingString (h : r.signingString (signed.map lower) = .ok text) :
    ∀ name ∈ signed.map lower, IsListed name := by
  intro name hname
  have hline := (signingString_eq_ok h).2 name hname
  have lowered : lower name = name := by
    obtain ⟨s, -, rfl⟩ := List.mem_map.1 hname
    exact lower_lower s
  unfold signedLine at hline
  split at hline
  next htarget =>
    rw [htarget]
    exact isListed_requestTarget
  next =>
    obtain ⟨key, hkey, -⟩ := except_bind_eq_ok.1 hline
    exact HeaderName.isListed (orBreak_eq_ok.1 (doing_eq_ok.1 hkey)) lowered

theorem signingString_insert {header : HeaderName} {value : HeaderValue}
    (h : ∀ name ∈ names, lower name ≠ header.text) :
    RequestHead.signingString { r with headers := r.headers.insert header value } names =
      r.signingString names := by
  have lines : ∀ name ∈ names, RequestHead.signedLine
      { r with headers := r.headers.insert header value } name = r.signedLine name := by
    intro name hname
    unfold signedLine
    split
    · rfl
    · cases hkey : HeaderName.of? name with
      | none => rfl
      | some key =>
        have other : key ≠ header := by
          rintro rfl
          exact h name hname (HeaderName.text_of_of? hkey).1.symm
        simp only [Option.orBreak, Except.doing, bind, Except.bind, Headers.get?_insert_of_ne other]
  unfold signingString
  rw [mapM_congr lines]

theorem withHeader_eq_ok {header : HeaderName} (h : r.withHeader header shown text = .ok r') :
    ∃ value, value.text = text ∧ r' = { r with headers := r.headers.insert header value } := by
  obtain ⟨value, hv, h⟩ := except_bind_eq_ok.1 h
  exact ⟨value, HeaderValue.text_of_of? (orBreak_eq_ok.1 (doing_eq_ok.1 hv)),
    (except_pure_eq_ok.1 h).symm⟩

structure Filled (r r' : RequestHead) (header : HeaderName) (text : String) (lacking : Prop) :
    Prop where
  method : r'.method = r.method
  uri : r'.uri = r.uri
  others : ∀ other, other ≠ header → r'.headers.get? other = r.headers.get? other
  there : ¬ lacking → r'.headers.get? header = r.headers.get? header
  new : lacking → ∃ value, r'.headers.get? header = some value ∧ value.text = text

theorem filled_of_ite {p : Prop} [Decidable p] {header : HeaderName}
    (h : (if p then .ok r else r.withHeader header shown text) = .ok r') :
    Filled r r' header text (¬ p) := by
  split at h
  next hp =>
    obtain rfl := Except.ok.inj h
    exact ⟨rfl, rfl, fun _ _ => rfl, fun _ => rfl, fun hn => absurd hp hn⟩
  next hp =>
    obtain ⟨value, hvalue, rfl⟩ := withHeader_eq_ok h
    exact ⟨rfl, rfl, fun _ hother => Headers.get?_insert_of_ne hother, fun hn => absurd hp hn,
      fun _ => ⟨value, Headers.get?_insert_self, hvalue⟩⟩

theorem exists_filled_of_ite {p : Prop} [Decidable p] {header : HeaderName}
    {more : RequestHead → Except Fault RequestHead}
    (h : (if p then (Except.ok r >>= more)
      else (r.withHeader header shown text >>= more)) = .ok r') :
    ∃ filled, Filled r filled header text (¬ p) ∧ more filled = .ok r' := by
  have hbind : ((if p then Except.ok r else r.withHeader header shown text) >>= more) = .ok r' := by
    rw [← h]
    split <;> rfl
  obtain ⟨filled, hfilled, h⟩ := except_bind_eq_ok.1 hbind
  exact ⟨filled, filled_of_ite hfilled, h⟩

/-- What completing a request does to it: a date and a digest that it lacks are those of the moment
and of the body. -/
structure Completed (r r' : RequestHead) (body : Bytes) (now : Instant) : Prop where
  method : r'.method = r.method
  uri : r'.uri = r.uri
  date : r.headers.get? .date = none →
    ∃ value, r'.headers.get? .date = some value ∧ value.text = HttpDate.render now.second
  digest : r.headers.get? .digest = none →
    ∀ value, r'.headers.get? .digest = some value → value.text = digestOf body

theorem completed_of_complete (h : r.complete names body now = .ok r') :
    Completed r r' body now := by
  obtain ⟨dated, hdate, h⟩ := exists_filled_of_ite h
  obtain ⟨digested, hdigest, h⟩ := exists_filled_of_ite h
  have hhost := filled_of_ite h
  constructor
  case method => rw [hhost.method, hdigest.method, hdate.method]
  case uri => rw [hhost.uri, hdigest.uri, hdate.uri]
  case date =>
    intro hnone
    rw [hhost.others _ (by decide), hdigest.others _ (by decide)]
    exact hdate.new (by simp [Headers.contains, hnone])
  case digest =>
    intro hnone value hvalue
    rw [hhost.others _ (by decide)] at hvalue
    rw [← hdate.others _ (by decide)] at hnone
    by_cases hlack :
      (!(!body.isEmpty || names.contains "digest") || dated.headers.contains .digest) = true
    · rw [hdigest.there (not_not_intro hlack), hnone] at hvalue
      cases hvalue
    · obtain ⟨value', hvalue', htext⟩ := hdigest.new hlack
      rw [hvalue'] at hvalue
      cases hvalue
      exact htext

/-- Everything that signing a request takes and leaves. -/
theorem sign_eq_ok {pem keyId : String} (h : r.sign pem keyId signed body now = .ok r') :
    ∃ completed text key signature value, r.complete (signed.map lower) body now = .ok completed ∧
      completed.signingString (signed.map lower) = .ok text ∧ privateKeyOf pem = .ok key ∧
      Rsa.sign? key (utf8 text) = some signature ∧
      value.text = SignatureHeader.render keyId (signed.map lower) signature ∧
      r' = { completed with headers := completed.headers.insert .signature value } := by
  obtain ⟨completed, hcomplete, h⟩ := except_bind_eq_ok.1 h
  obtain ⟨text, htext, h⟩ := except_bind_eq_ok.1 h
  obtain ⟨key, hkey, h⟩ := except_bind_eq_ok.1 h
  obtain ⟨signature, hsignature, h⟩ := except_bind_eq_ok.1 h
  obtain ⟨value, hvalue, hr⟩ := withHeader_eq_ok h
  exact ⟨completed, text, key, signature, value, hcomplete, htext, hkey, orBreak_eq_ok.1 hsignature,
    hvalue, hr⟩

theorem dateWithin_of_render {headers : Headers} {value : HeaderValue} {maxSkew : Nat}
    (hv : headers.get? .date = some value) (ht : value.text = HttpDate.render now.second)
    (first : 0 ≤ now.second) (last : now.second ≤ HttpDate.lastSecond)
    (hnano : now.nano < 1000000000) (hskew : 1 ≤ maxSkew) : DateWithin headers maxSkew now := by
  have plain : (HttpDate.render now.second).toList.all isPlainChar = true := by
    refine HttpDate.all_render ?_ (by decide) (by decide) (by decide)
    intro c hc
    have bounds := toNat_of_isDigit hc
    exact isPlainChar_of_printable (by omega) (by omega)
  refine ⟨value, _, _, hv, HeaderValue.plain?_eq_some_iff.2 ⟨ht, ht ▸ plain⟩,
    HttpDate.parse?_render first last, ?_⟩
  unfold Instant.nanos
  omega

theorem digestMatches_of_text {headers : Headers}
    (h : ∀ value, headers.get? .digest = some value → value.text = digestOf body) :
    DigestMatches headers body := by
  intro value hv
  have text : (digestOf body).toList =
      "SHA-256".toList ++ '=' :: Base64.encodeList (Sha256.digest body) := by
    simp [digestOf, Base64.encode]
  have plain : (digestOf body).toList.all isPlainChar = true := by
    rw [text, List.all_append, List.all_cons]
    have digits : (Base64.encodeList (Sha256.digest body)).all isPlainChar = true :=
      List.all_eq_true.2 (Base64.forall_mem_encodeList (by decide) (by decide))
    rw [digits]
    decide
  refine ⟨_, _, _, HeaderValue.plain?_eq_some_iff.2 ⟨h value hv, h value hv ▸ plain⟩,
    cut?_eq_some_iff.2 ⟨text, by decide⟩, by decide, ?_⟩
  rw [Base64.strip_encodeList, Base64.decodeList?_encodeList]

/-- A request that a receiver accepts: its signature header can be read and used, its digest is that
of the body, its date is near, and the signature is one for the text of the signed headers. -/
structure Verifies (r : RequestHead) (header : SignatureHeader) (key : Rsa.PublicKey) (body : Bytes)
    (now : Instant) (text : String) (signature : Bytes) : Prop where
  read : r.signatureText.map .parse = .ok header
  usable : header.check = .ok ()
  bytes : header.bytes = .ok signature
  digest : checkDigest r.headers body = .ok ()
  date : ∀ maxSkew, 1 ≤ maxSkew → checkDate r.headers maxSkew now = .ok ()
  signed : r.signingString header.signedHeaders = .ok text
  verified : ∀ pem, publicKeyOf pem = .ok key → verifySignature pem text signature = .ok ()

section

variable {pem keyId : String} {key : Rsa.PrivateKey}

theorem genuine_of_privateKeyOf (h : privateKeyOf pem = .ok key) (hp : key.p.Prime)
    (hq : key.q.Prime) (hne : key.p ≠ key.q) : key.Genuine :=
  ⟨Rsa.PrivateKey.isSound_of_ofPem? (orBreak_eq_ok.1 (doing_eq_ok.1 h)), hp, hq, hne⟩

theorem sign_succeeds {completed : RequestHead} (hkeyId : IsKeyId keyId)
    (hcomplete : r.complete (signed.map lower) body now = .ok completed)
    (htext : completed.signingString (signed.map lower) = .ok text)
    (hpem : privateKeyOf pem = .ok key) (hsize : 62 ≤ key.public.size) :
    ∃ r', r.sign pem keyId signed body now = .ok r' := by
  obtain ⟨signature, hsignature⟩ := Rsa.sign?_succeeds (utf8 text) hsize
  have plain := SignatureHeader.plain_render signature hkeyId
    (isListed_of_signingString htext)
  obtain ⟨value, hvalue⟩ := HeaderValue.of?_succeeds plain
  refine ⟨{ completed with headers := completed.headers.insert .signature value }, ?_⟩
  refine except_bind_eq_ok.2 ⟨completed, hcomplete, ?_⟩
  refine except_bind_eq_ok.2 ⟨text, htext, ?_⟩
  refine except_bind_eq_ok.2 ⟨key, hpem, ?_⟩
  refine except_bind_eq_ok.2 ⟨signature, orBreak_eq_ok.2 hsignature, ?_⟩
  exact except_bind_eq_ok.2 ⟨value, doing_eq_ok.2 (orBreak_eq_ok.2 hvalue), rfl⟩

/-- What is signed verifies: with the names, the key id and the text that were signed, and with any
file of the public half of the key. The moment lies before the year 10000 and in no leap second; the
caller leaves date and digest to be filled in, and does not sign the signature. -/
theorem verifies_of_sign (hkeyId : IsKeyId keyId) (hsigned : signed ≠ [])
    (unsigned : ∀ name ∈ signed, lower name ≠ "signature")
    (undated : r.headers.contains .date = false) (undigested : r.headers.contains .digest = false)
    (first : 0 ≤ now.second) (last : now.second ≤ HttpDate.lastSecond)
    (hnano : now.nano < 1000000000)
    (hpem : privateKeyOf pem = .ok key) (hp : key.p.Prime) (hq : key.q.Prime) (hne : key.p ≠ key.q)
    (h : r.sign pem keyId signed body now = .ok r') :
    ∃ completed text signature header,
      r.complete (signed.map lower) body now = .ok completed ∧
      completed.signingString (signed.map lower) = .ok text ∧
      Rsa.sign? key (utf8 text) = some signature ∧
      header.keyId = keyId ∧ header.headers = signed.map lower ∧
      header.algorithm = SignatureHeader.rsaSha256 ∧
      r'.Verifies header key.public body now text signature := by
  obtain ⟨completed, text, key', signature, value, hcomplete, htext, hkey, hsignature, hvalue,
    rfl⟩ := sign_eq_ok h
  obtain rfl : key = key' := Except.ok.inj (hpem.symm.trans hkey)
  have filled := completed_of_complete hcomplete
  have listed := isListed_of_signingString htext
  have verified := Rsa.verify_sign (genuine_of_privateKeyOf hpem hp hq hne) hsignature
  refine ⟨completed, text, signature,
    ⟨keyId, signed.map lower, Base64.encode signature, SignatureHeader.rsaSha256⟩, hcomplete, htext,
    hsignature, rfl, rfl, rfl, ?_⟩
  have others (name : HeaderName) (hname : name ≠ .signature) :
      Headers.get? (completed.headers.insert .signature value) name = completed.headers.get? name :=
    Headers.get?_insert_of_ne hname
  constructor
  case read =>
    have plain := hvalue ▸ SignatureHeader.plain_render signature hkeyId listed
    have shown : RequestHead.signatureText
        { completed with headers := completed.headers.insert .signature value } = .ok value.text :=
      signatureText_eq_ok_iff.2 ⟨value, Headers.get?_insert_self,
        HeaderValue.plain?_eq_some_iff.2 ⟨rfl, plain⟩⟩
    rw [shown, hvalue]
    exact congrArg Except.ok (SignatureHeader.parse_render hkeyId listed)
  case usable =>
    have filled : Base64.encode signature ≠ "" := by
      intro he
      have he := congrArg String.toList he
      rw [Base64.encode, String.toList_ofList] at he
      exact Base64.encodeList_ne_nil (Rsa.signature_ne_nil hsignature) he
    unfold SignatureHeader.check
    rw [if_neg hkeyId.nonempty, if_neg filled]
    exact if_pos (show SignatureHeader.algorithms.contains (lower "rsa-sha256") = true by decide)
  case bytes =>
    unfold SignatureHeader.bytes
    rw [Base64.decode?_encode]
    rfl
  case digest =>
    apply checkDigest_eq_ok_iff.2
    apply digestMatches_of_text
    rw [others _ (by decide)]
    exact filled.digest (Headers.contains_eq_false_iff.1 undigested)
  case date =>
    intro maxSkew hskew
    obtain ⟨date, hdate, hrender⟩ := filled.date (Headers.contains_eq_false_iff.1 undated)
    rw [← others _ (by decide)] at hdate
    exact checkDate_eq_ok_iff.2 (dateWithin_of_render hdate hrender first last hnano hskew)
  case signed =>
    have names : SignatureHeader.signedHeaders
        ⟨keyId, signed.map lower, Base64.encode signature, SignatureHeader.rsaSha256⟩ =
          signed.map lower := by
      unfold SignatureHeader.signedHeaders
      exact if_neg (by simpa using hsigned)
    rw [names, signingString_insert, htext]
    intro name hname
    obtain ⟨name, hmem, rfl⟩ := List.mem_map.1 hname
    rw [lower_lower]
    exact unsigned name hmem
  case verified => exact fun pem hpem => verifySignature_eq_ok_iff.2 ⟨_, hpem, verified⟩

end

section Specimen

/-- A number is prime if it is one above a product of twos and threes and a number has its full
order modulo it. -/
theorem prime_of_order {n a b g : Nat} (hn : n = 2 ^ a * 3 ^ b + 1)
    (round : Rsa.powMod n g (n - 1) = 1 % n) (half : Rsa.powMod n g ((n - 1) / 2) ≠ 1 % n)
    (third : Rsa.powMod n g ((n - 1) / 3) ≠ 1 % n) : n.Prime := by
  have power (e : Nat) : (g : ZMod n) ^ e = 1 ↔ Rsa.powMod n g e = 1 % n := by
    rw [Rsa.powMod_eq, ← Nat.cast_pow, ← Nat.cast_one, ZMod.natCast_eq_natCast_iff]
    rfl
  refine lucas_primality n (g : ZMod n) ((power _).2 round) fun q hq hdvd => ?_
  rw [Ne, power]
  rw [hn, Nat.add_sub_cancel] at hdvd
  rcases (Nat.Prime.dvd_mul hq).1 hdvd with h | h
  · rwa [(Nat.prime_dvd_prime_iff_eq hq Nat.prime_two).1 (hq.dvd_of_dvd_pow h)]
  · rwa [(Nat.prime_dvd_prime_iff_eq hq Nat.prime_three).1 (hq.dvd_of_dvd_pow h)]

def specimenSigner : Rsa.PrivateKey where
  modulus := (2 ^ 204 * 3 ^ 28 + 1) * (2 ^ 186 * 3 ^ 38 + 1)
  exponent := 65537
  secret := Rsa.inverse 65537 (2 ^ 390 * 3 ^ 66)
  p := 2 ^ 204 * 3 ^ 28 + 1
  q := 2 ^ 186 * 3 ^ 38 + 1

theorem prime_specimenSigner_p : specimenSigner.p.Prime :=
  prime_of_order (g := 5) rfl (by decide +kernel) (by decide +kernel) (by decide +kernel)

theorem prime_specimenSigner_q : specimenSigner.q.Prime :=
  prime_of_order (g := 5) rfl (by decide +kernel) (by decide +kernel) (by decide +kernel)

theorem isSound_specimenSigner : specimenSigner.isSound = true := by
  decide +kernel

def specimenDraft : RequestHead where
  method := .post
  uri := ⟨true, "h", "/b/inbox", by decide, by decide⟩
  headers := []

theorem verifies_of_sign_specimen :
    ∃ r', specimenDraft.sign specimenSigner.toPem "http://u#main-key"
      ["(request-target)", "Host", "Date", "digest"] (utf8 "\x7b\x7d") .epoch = .ok r' ∧
    ∃ text signature header, header.keyId = "http://u#main-key" ∧
      header.headers = ["(request-target)", "host", "date", "digest"] ∧
      r'.Verifies header specimenSigner.public (utf8 "\x7b\x7d") .epoch text signature ∧
      verifySignature specimenSigner.public.toPem text signature = .ok () := by
  have hkeyId : IsKeyId "http://u#main-key" :=
    ⟨by decide, forall_mem_of_all (by decide), by decide, by decide, by decide⟩
  have hpem : privateKeyOf specimenSigner.toPem = .ok specimenSigner := by
    rw [privateKeyOf, Rsa.PrivateKey.ofPem?_toPem isSound_specimenSigner (by decide +kernel)]
    rfl
  have hpublic : publicKeyOf specimenSigner.public.toPem = .ok specimenSigner.public := by
    rw [publicKeyOf, Rsa.PublicKey.ofPem?_toPem
      (Rsa.PrivateKey.isSound_public isSound_specimenSigner)]
    rfl
  have written : ((specimenDraft.complete ["(request-target)", "host", "date", "digest"]
      (utf8 "\x7b\x7d") .epoch).bind fun c =>
      c.signingString ["(request-target)", "host", "date", "digest"]).isOk = true := by
    decide +kernel
  obtain ⟨text, written⟩ := exists_of_isOk written
  obtain ⟨completed, hcomplete, htext⟩ := except_bind_eq_ok.1 written
  obtain ⟨r', hsign⟩ : ∃ r', specimenDraft.sign specimenSigner.toPem "http://u#main-key"
      ["(request-target)", "Host", "Date", "digest"] (utf8 "\x7b\x7d") .epoch = .ok r' :=
    sign_succeeds hkeyId hcomplete htext hpem (by decide +kernel)
  obtain ⟨_, text, signature, header, -, -, -, hid, hnames, -, hverifies⟩ :=
    verifies_of_sign hkeyId (by decide) (by decide)
      (by decide) (by decide) (by decide) (by decide) (by decide) hpem prime_specimenSigner_p
      prime_specimenSigner_q (by decide +kernel) hsign
  exact ⟨r', hsign, text, signature, header, hid, hnames, hverifies, hverifies.verified _ hpublic⟩

end Specimen

end RequestHead
end Imageboard
