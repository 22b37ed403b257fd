import Imageboard.Proofs.Text.Cuts
import Imageboard.Proofs.Text.Letters
import Imageboard.Signature.Header
import Mathlib.Data.List.Perm.Basic

namespace Imageboard.SignatureHeader

open Text

inductive Field where
  | keyId
  | headers
  | signature
  | algorithm
deriving DecidableEq, Repr

namespace Field

def all : List Field :=
  [keyId, headers, signature, algorithm]

def key : Field → String
  | keyId => "keyId"
  | headers => "headers"
  | signature => "signature"
  | algorithm => "algorithm"

def value (h : SignatureHeader) : Field → String
  | keyId => h.keyId
  | headers => join " " h.headers
  | signature => h.signature
  | algorithm => h.algorithm

def copy (h into : SignatureHeader) : Field → SignatureHeader
  | keyId => { into with keyId := h.keyId }
  | headers => { into with headers := h.headers }
  | signature => { into with signature := h.signature }
  | algorithm => { into with algorithm := h.algorithm }

end Field

/-- What may stand between two commas: a field with blanks around its key, or something else. -/
inductive Part where
  | field (f : Field) (before after : List Char) (quoted : Bool)
  | other (text : List Char)

namespace Part

def field? : Part → Option Field
  | field f .. => some f
  | other _ => none

def text (h : SignatureHeader) : Part → List Char
  | field f before after quoted =>
    let value := (f.value h).toList
    before ++ f.key.toList ++ after ++ '=' :: if quoted then '"' :: value ++ ['"'] else value
  | other text => text

/-- Only blanks stand around keys; a part that is no field has no `=`, or another key before its
first. -/
def IsProper : Part → Prop
  | field _ before after _ => ∀ c ∈ before ++ after, isBlank c = true
  | other text => ',' ∉ text ∧ '"' ∉ text ∧ ∀ front back, text = front ++ '=' :: back →
    '=' ∉ front → ∀ f : Field, trim (String.ofList front) ≠ f.key

end Part

structure IsValue (s : String) : Prop where
  uncut : ',' ∉ s.toList
  unquoted : '"' ∉ s.toList
  trimmed : trim s = s

/-- A text that can stand among the names of a header: one word in lower case. -/
structure IsName (s : String) : Prop where
  nonempty : s ≠ ""
  lowered : lower s = s
  uncut : ',' ∉ s.toList
  unquoted : '"' ∉ s.toList
  unbroken : ∀ c ∈ s.toList, isBlank c = false

structure IsWritable (h : SignatureHeader) : Prop where
  keyId : IsValue h.keyId
  names : ∀ n ∈ h.headers, IsName n
  signature : IsValue h.signature
  algorithm : IsValue h.algorithm

def written (h : SignatureHeader) (parts : List Part) : String :=
  join "," (parts.map fun p => String.ofList (p.text h))

variable {h into : SignatureHeader} {parts : List Part} {p : Part} {f : Field}
  {front value : List Char}

theorem IsName.word {s : String} (hs : IsName s) :
    s.toList ≠ [] ∧ ∀ c ∈ s.toList, isBlank c = false :=
  ⟨fun he => hs.nonempty (String.toList_injective he), hs.unbroken⟩

theorem isValue_join {names : List String} (hn : ∀ n ∈ names, IsName n) :
    IsValue (join " " names) where
  uncut hm := by
    rcases mem_join hm with hc | ⟨n, hmem, hc⟩
    · exact absurd hc (by decide)
    · exact (hn n hmem).uncut hc
  unquoted hm := by
    rcases mem_join hm with hc | ⟨n, hmem, hc⟩
    · exact absurd hc (by decide)
    · exact (hn n hmem).unquoted hc
  trimmed := by
    rw [trim, strip_join fun n hmem => (hn n hmem).word, String.ofList_toList]

theorem IsWritable.isValue (hh : h.IsWritable) (f : Field) : IsValue (f.value h) := by
  cases f with
  | keyId => exact hh.keyId
  | headers => exact isValue_join hh.names
  | signature => exact hh.signature
  | algorithm => exact hh.algorithm

theorem IsValue.strip_eq {s : String} (hs : IsValue s) : strip isBlank s.toList = s.toList := by
  simpa [trim] using congrArg String.toList hs.trimmed

theorem words_headers (hh : h.IsWritable) :
    (words (join " " h.headers).toList).map (fun w => String.ofList (w.map lowerChar)) =
      h.headers := by
  rw [words_join fun n hn => (hh.names n hn).word, List.map_map]
  exact (List.map_congr_left fun n hn => (hh.names n hn).lowered).trans (List.map_id' h.headers)

theorem take_field (hh : h.IsWritable) (hfront : '=' ∉ front)
    (hkey : strip isBlank front = f.key.toList) :
    into.take (front ++ '=' :: (f.value h).toList) = f.copy h into := by
  rw [take, cut?_eq_some_iff.2 ⟨rfl, hfront⟩]
  dsimp only
  rw [hkey, (hh.isValue f).strip_eq, String.ofList_toList, String.ofList_toList]
  cases f with
  | keyId => rfl
  | headers =>
    simp only [Field.value, words_headers hh]
    rfl
  | signature => rfl
  | algorithm => rfl

theorem take_other {text : List Char} (ht : (Part.other text).IsProper) :
    into.take text = into := by
  obtain ⟨-, -, unknown⟩ := ht
  rw [take]
  cases hcut : cut? '=' text with
  | none => rfl
  | some halves =>
    obtain ⟨front, back⟩ := halves
    obtain ⟨rfl, hfront⟩ := cut?_eq_some_iff.1 hcut
    have other (f : Field) : String.ofList (strip isBlank front) ≠ f.key := by
      simpa [trim] using unknown front back rfl hfront f
    exact (if_neg (other .keyId)).trans <| (if_neg (other .headers)).trans <|
      (if_neg (other .signature)).trans (if_neg (other .algorithm))

theorem not_mem_front {before after : List Char} {quoted : Bool} {c : Char}
    (hp : (Part.field f before after quoted).IsProper) (hblank : isBlank c = false)
    (hkey : ∀ f : Field, c ∉ f.key.toList) : c ∉ before ++ f.key.toList ++ after := by
  have outside : c ∉ before ++ after := fun hm => absurd (hp c hm) (by simp [hblank])
  simp only [List.mem_append] at outside ⊢
  rintro ((h | h) | h)
  · exact outside (.inl h)
  · exact hkey f h
  · exact outside (.inr h)

theorem take_text (hh : h.IsWritable) (hp : p.IsProper) :
    into.take ((p.text h).filter (· != '"')) = p.field?.elim into (Field.copy h into) := by
  have bare {cs : List Char} (h : '"' ∉ cs) : cs.filter (· != '"') = cs :=
    List.filter_eq_self.2 fun c hc => bne_iff_ne.2 fun he => h (he ▸ hc)
  cases p with
  | other text =>
    rw [Part.text, bare hp.2.1]
    exact take_other hp
  | field f before after quoted =>
    have front := bare (not_mem_front hp (by decide) fun f => by cases f <;> decide)
    have value := bare (hh.isValue f).unquoted
    have text : ((Part.field f before after quoted).text h).filter (· != '"') =
        (before ++ f.key.toList ++ after) ++ '=' :: (f.value h).toList := by
      rw [Part.text, List.filter_append, front]
      cases quoted <;> simp [value]
    obtain ⟨hbefore, hafter⟩ := List.forall_mem_append.1 hp
    rw [text]
    refine take_field hh (not_mem_front hp (by decide) fun f => by cases f <;> decide) ?_
    rw [strip_append hbefore hafter]
    cases f <;> decide

theorem uncut_text (hh : h.IsWritable) (hp : p.IsProper) : ',' ∉ p.text h := by
  cases p with
  | other text => exact hp.1
  | field f before after quoted =>
    have front := not_mem_front (c := ',') hp (by decide) fun f => by cases f <;> decide
    have value := (hh.isValue f).uncut
    intro hm
    rcases List.mem_append.1 hm with hm | hm
    · exact front hm
    · cases quoted <;> simp [value] at hm

theorem parse_written_eq (hh : h.IsWritable) (hparts : ∀ p ∈ parts, p.IsProper) :
    parse (written h parts) = (parts.filterMap Part.field?).foldl (Field.copy h) {} := by
  by_cases hne : parts = []
  · subst hne
    rfl
  · have uncut : ∀ s ∈ parts.map fun p => String.ofList (p.text h), ',' ∉ s.toList := by
      intro s hs
      obtain ⟨p, hp, rfl⟩ := List.mem_map.1 hs
      rw [String.toList_ofList]
      exact uncut_text hh (hparts p hp)
    rw [parse, written, pieces_filter_join rfl rfl (by simpa using hne) uncut, List.map_map]
    generalize ({} : SignatureHeader) = into
    clear hne uncut
    induction parts generalizing into with
    | nil => rfl
    | cons p parts ih =>
      have first : into.take ((String.ofList (p.text h)).toList.filter (· != '"')) =
          p.field?.elim into (Field.copy h into) := by
        rw [String.toList_ofList]
        exact take_text hh (hparts p List.mem_cons_self)
      have rest := ih (fun q hq => hparts q (List.mem_cons_of_mem p hq))
      rw [List.map_cons, List.foldl_cons, Function.comp_apply, first, rest]
      cases p <;> rfl

theorem copy_comm (h into : SignatureHeader) (f g : Field) :
    g.copy h (f.copy h into) = f.copy h (g.copy h into) := by
  cases f <;> cases g <;> rfl

/-- A header reads back from whatever parts it is written in, if each field is among them once. -/
theorem parse_written (hh : h.IsWritable) (hparts : ∀ p ∈ parts, p.IsProper)
    (once : (parts.filterMap Part.field?).Perm Field.all) : parse (written h parts) = h := by
  have commutes : RightCommutative (Field.copy h) := ⟨copy_comm h⟩
  rw [parse_written_eq hh hparts, once.foldl_eq]
  rfl

theorem isProper_of_unknown (front back : List Char) (hfront : '=' ∉ front)
    (uncut : ',' ∉ front ++ '=' :: back) (unquoted : '"' ∉ front ++ '=' :: back)
    (unknown : ∀ f : Field, trim (String.ofList front) ≠ f.key) :
    (Part.other (front ++ '=' :: back)).IsProper := by
  refine ⟨uncut, unquoted, fun front' back' he hfront' => ?_⟩
  rwa [← (append_sep_inj he hfront hfront').1]

theorem isProper_of_not_mem {text : List Char} (h : '=' ∉ text) (uncut : ',' ∉ text)
    (unquoted : '"' ∉ text) : (Part.other text).IsProper := by
  refine ⟨uncut, unquoted, fun front back he => ?_⟩
  exact absurd (he ▸ List.mem_append_right front List.mem_cons_self) h

theorem parse_written_out_of_order :
    let h : SignatureHeader :=
      ⟨"https://b.example/g#main-key", ["(request-target)", "date"], "ab==", "rsa-sha256"⟩
    let parts : List Part :=
      [.other "junk".toList, .field .signature [] [] true, .other "foo=bar".toList,
        .field .keyId [' '] ['\t'] false, .field .headers [] [] true, .other [],
        .field .algorithm ['\u3000'] [] false, .other " = x".toList]
    written h parts = "junk,signature=\"ab==\",foo=bar, keyId\t=https://b.example/g#main-key," ++
        "headers=\"(request-target) date\",,\u3000algorithm=rsa-sha256, = x" ∧
      h.IsWritable ∧ (∀ p ∈ parts, p.IsProper) ∧
      (parts.filterMap Part.field?).Perm Field.all ∧ parse (written h parts) = h := by
  intro h parts
  have writable : h.IsWritable := by
    refine ⟨⟨by decide, by decide, by decide⟩, fun n hn => ?_, ⟨by decide, by decide, by decide⟩,
      ⟨by decide, by decide, by decide⟩⟩
    have listed : n = "(request-target)" ∨ n = "date" := by simpa [h] using hn
    rcases listed with rfl | rfl
    · exact ⟨by decide, by decide, by decide, by decide, forall_mem_of_all (by decide)⟩
    · exact ⟨by decide, by decide, by decide, by decide, forall_mem_of_all (by decide)⟩
  have proper : ∀ p ∈ parts, p.IsProper := by
    intro p hp
    simp only [parts, List.mem_cons, List.not_mem_nil, or_false] at hp
    rcases hp with rfl | rfl | rfl | rfl | rfl | rfl | rfl | rfl
    · exact isProper_of_not_mem (by decide) (by decide) (by decide)
    · exact fun c hc => nomatch hc
    · exact isProper_of_unknown "foo".toList "bar".toList (by decide) (by decide)
        (by decide) (by intro f; cases f <;> decide)
    · exact List.all_eq_true.1 (by decide)
    · exact fun c hc => nomatch hc
    · exact isProper_of_not_mem (by decide) (by decide) (by decide)
    · exact List.all_eq_true.1 (by decide)
    · exact isProper_of_unknown " ".toList " x".toList (by decide) (by decide)
        (by decide) (by intro f; cases f <;> decide)
  have once : (parts.filterMap Part.field?).Perm Field.all := by decide
  exact ⟨by decide +kernel, writable, proper, once, parse_written writable proper once⟩

end Imageboard.SignatureHeader
