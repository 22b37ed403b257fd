import Imageboard.Proofs.Signature.SigningString
import Imageboard.Signature.Request

namespace Imageboard

open Text

theorem verifySignature_eq_ok_iff {pem text : String} {signature : Bytes} :
    verifySignature pem text signature = .ok () ↔
      ∃ key, publicKeyOf pem = .ok key ∧ Rsa.verify key (utf8 text) signature = true := by
  unfold verifySignature
  rw [except_bind_eq_ok]
  refine exists_congr fun key => and_congr_right fun _ => ?_
  split
  next h => exact ⟨fun _ => h, fun _ => rfl⟩
  next h => exact ⟨nofun, fun hv => absurd hv h⟩

namespace RequestHead

/-- The date of a request is there, and at most so many seconds before or after a moment. -/
def DateWithin (headers : Headers) (maxSkew : Nat) (now : Instant) : Prop :=
  ∃ value text second, headers.get? .date = some value ∧ value.plain? = some text ∧
    HttpDate.parse? text = some second ∧
    (now.nanos - second * 1000000000).natAbs ≤ maxSkew * 1000000000

def DigestMatches (headers : Headers) (body : Bytes) : Prop :=
  ∀ value, headers.get? .digest = some value → ∃ text algorithm digest,
    value.plain? = some text ∧ cut? '=' text.toList = some (algorithm, digest) ∧
    sameLetters (trim (String.ofList algorithm)) "SHA-256" = true ∧
    Base64.decodeList? (strip isBlank digest) = some (Sha256.digest body)

theorem checkDate_eq_ok_iff {headers : Headers} {maxSkew : Nat} {now : Instant} :
    checkDate headers maxSkew now = .ok () ↔ DateWithin headers maxSkew now := by
  unfold checkDate DateWithin
  cases headers.get? .date with
  | none => exact ⟨nofun, nofun⟩
  | some value =>
    simp only [except_bind_eq_ok, doing_eq_ok, orBreak_eq_ok, Option.some.injEq]
    constructor
    · rintro ⟨text, ht, second, hs, h⟩
      split at h
      next => cases h
      next hskew => exact ⟨value, text, second, rfl, ht, hs, Nat.le_of_not_lt hskew⟩
    · rintro ⟨_, text, second, rfl, ht, hs, hskew⟩
      exact ⟨text, ht, second, hs, if_neg (Nat.not_lt_of_le hskew)⟩

theorem checkDigest_eq_ok_iff {headers : Headers} {body : Bytes} :
    checkDigest headers body = .ok () ↔ DigestMatches headers body := by
  unfold checkDigest DigestMatches
  cases headers.get? .digest with
  | none => exact ⟨fun _ => nofun, fun _ => rfl⟩
  | some value =>
    simp only [except_bind_eq_ok, doing_eq_ok, orBreak_eq_ok, Option.some.injEq, forall_eq']
    constructor
    · rintro ⟨text, ht, h⟩
      split at h
      next => cases h
      next algorithm digest hcut =>
        split at h
        next ha =>
          obtain ⟨expected, hd, h⟩ := except_bind_eq_ok.1 h
          split at h
          next he =>
            exact ⟨text, algorithm, digest, ht, hcut, ha, he ▸ orBreak_eq_ok.1 (doing_eq_ok.1 hd)⟩
          next => cases h
        next => cases h
    · rintro ⟨text, algorithm, digest, ht, hcut, ha, hd⟩
      refine ⟨text, ht, ?_⟩
      rw [hcut]
      dsimp only
      rw [if_pos ha, hd]
      exact except_bind_eq_ok.2 ⟨_, rfl, if_pos rfl⟩

theorem signatureText_eq_ok_iff {r : RequestHead} {text : String} :
    r.signatureText = .ok text ↔
      ∃ value, r.headers.get? .signature = some value ∧ value.plain? = some text := by
  unfold signatureText
  cases r.headers.get? .signature with
  | none => exact ⟨nofun, nofun⟩
  | some value => simp only [doing_eq_ok, orBreak_eq_ok, Option.some.injEq, exists_eq_left']

theorem DigestMatches.digest_eq {headers headers' : Headers} {body body' : Bytes}
    {value value' : HeaderValue} (h : DigestMatches headers body)
    (h' : DigestMatches headers' body')
    (hv : headers.get? .digest = some value) (hv' : headers'.get? .digest = some value')
    (ht : trim value.text = trim value'.text) : Sha256.digest body = Sha256.digest body' := by
  obtain ⟨text, _, digest, hp, hcut, -, hd⟩ := h value hv
  obtain ⟨text', _, digest', hp', hcut', -, hd'⟩ := h' value' hv'
  obtain ⟨rfl, -⟩ := HeaderValue.plain?_eq_some_iff.1 hp
  obtain ⟨rfl, -⟩ := HeaderValue.plain?_eq_some_iff.1 hp'
  have hs : strip isBlank value.text.toList = strip isBlank value'.text.toList := by
    simpa [trim] using congrArg String.toList ht
  obtain ⟨_, back, hc, -, hb⟩ := cut?_strip (p := isBlank) (by decide) hcut
  obtain ⟨_, back', hc', -, hb'⟩ := cut?_strip (p := isBlank) (by decide) hcut'
  rw [hs, hc'] at hc
  cases hc
  rw [← hb, hb', hd'] at hd
  exact (Option.some.inj hd).symm

end RequestHead
end Imageboard
