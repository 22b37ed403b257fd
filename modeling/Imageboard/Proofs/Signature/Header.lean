import Imageboard.Proofs.Crypto.Base64
import Imageboard.Proofs.Http.Header
import Imageboard.Proofs.Signature.Spelling

namespace Imageboard

open Text

/-- A text that can stand as a key id: printable, with no quote and no comma in it, and no blanks
around it. -/
structure IsKeyId (keyId : String) : Prop where
  nonempty : keyId ≠ ""
  printable : ∀ c ∈ keyId.toList, 0x20 ≤ c.toNat ∧ c.toNat < 0x7F
  unquoted : '"' ∉ keyId.toList
  uncut : ',' ∉ keyId.toList
  trimmed : trim keyId = keyId

/-- A text that can stand in a list of signed headers: in lower case and one word, with no quote and
no comma in it. -/
structure IsListed (name : String) : Prop where
  nonempty : name ≠ ""
  lowered : lower name = name
  plain : ∀ c ∈ name.toList, 0x21 ≤ c.toNat ∧ c.toNat < 0x7F ∧ c ≠ '"' ∧ c ≠ ','

namespace SignatureHeader

variable {keyId : String} {names : List String} {signature : Bytes}

theorem isValue_keyId (hk : IsKeyId keyId) : IsValue keyId :=
  ⟨hk.uncut, hk.unquoted, hk.trimmed⟩

theorem isName_of_isListed {name : String} (hn : IsListed name) : IsName name where
  nonempty := hn.nonempty
  lowered := hn.lowered
  uncut hc := (hn.plain _ hc).2.2.2 rfl
  unquoted hc := (hn.plain _ hc).2.2.1 rfl
  unbroken c hc := isBlank_eq_false (hn.plain c hc).1 (hn.plain c hc).2.1

theorem isValue_encode (signature : Bytes) : IsValue (Base64.encode signature) := by
  have encoded : ∀ c ∈ Base64.encodeList signature, (c != '"' && c != ',') = true :=
    Base64.forall_mem_encodeList (by decide) (by decide)
  unfold Base64.encode
  refine ⟨?_, ?_, ?_⟩
  · rw [String.toList_ofList]
    exact fun hc => absurd (encoded _ hc) (by decide)
  · rw [String.toList_ofList]
    exact fun hc => absurd (encoded _ hc) (by decide)
  · rw [trim, String.toList_ofList, Base64.strip_encodeList]

theorem plain_render (signature : Bytes) (hk : IsKeyId keyId) (hn : ∀ n ∈ names, IsListed n) :
    (render keyId names signature).toList.all isPlainChar = true := by
  have key : keyId.toList.all isPlainChar = true := by
    refine List.all_eq_true.2 fun c hc => ?_
    obtain ⟨low, high⟩ := hk.printable c hc
    exact isPlainChar_of_printable low high
  have listed : (join " " names).toList.all isPlainChar = true := by
    refine List.all_eq_true.2 fun c hc => ?_
    rcases mem_join hc with hc | ⟨n, hmem, hc⟩
    · obtain rfl := List.mem_singleton.1 hc
      decide
    · obtain ⟨low, high, -⟩ := (hn n hmem).plain c hc
      exact isPlainChar_of_printable (by omega) high
  have encoded : (Base64.encodeList signature).all isPlainChar = true :=
    List.all_eq_true.2 (Base64.forall_mem_encodeList (by decide) (by decide))
  simp only [render, Base64.encode, String.toList_append, String.toList_ofList, List.all_append,
    key, listed, encoded, Bool.and_true]
  decide

theorem render_eq_written : render keyId names signature =
    written ⟨keyId, names, Base64.encode signature, rsaSha256⟩
      [.field .keyId [] [] true, .field .algorithm [] [] true, .field .headers [] [] true,
        .field .signature [] [] true] := by
  apply String.toList_injective
  simp [render, written, join, Part.text, Field.key, Field.value]

/-- A written header reads back: with the key id, the names and the algorithm that were written. -/
theorem parse_render (hk : IsKeyId keyId) (hn : ∀ n ∈ names, IsListed n) :
    parse (render keyId names signature) = ⟨keyId, names, Base64.encode signature, rsaSha256⟩ := by
  have algorithm : IsValue rsaSha256 := ⟨by decide, by decide, by decide⟩
  have writable : IsWritable ⟨keyId, names, Base64.encode signature, rsaSha256⟩ :=
    ⟨isValue_keyId hk, fun n hmem => isName_of_isListed (hn n hmem), isValue_encode signature,
      algorithm⟩
  rw [render_eq_written, parse_written_eq writable]
  · rfl
  · simp [Part.IsProper]

end SignatureHeader
end Imageboard
