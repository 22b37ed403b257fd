import Imageboard.Proofs.Crypto.Md5Crypt
import Imageboard.Proofs.Effects
import Imageboard.Proofs.Text.Bytes
import Imageboard.Proofs.Text.Letters
import Imageboard.Proofs.Text.Marks
import Imageboard.Tripcode
import Mathlib.Data.List.Forall2
import Mathlib.Data.List.Infix

namespace Imageboard.Tripcode

open Text

/-- A name and its secret come from a text with marks: each line is shown up to its first mark, and
the secret stands behind the first mark of all, up to the end of its line. -/
structure SplitsAt (mark input name secret : List Char) : Prop where
  lines : List.Forall₂ (IsCut mark) (pieces '\n' input) (pieces '\n' name)
  lineCount : (pieces '\n' name).length = (pieces '\n' input).length
  unmarked : ¬ mark <:+: name
  secret : ∃ front back, IsFirst mark front (secret ++ back) input ∧ '\n' ∉ secret ∧
    ∀ c ∈ back.head?, c = '\n'

variable {mark cs secret : List Char} {password : Bytes} {salt : String}

theorem secret?_eq_none_iff (hne : mark ≠ []) : secret? mark cs = none ↔ ¬ mark <:+: cs := by
  induction cs with
  | nil => simpa [secret?] using hne
  | cons c cs ih =>
    rw [secret?, List.infix_cons_iff]
    cases hm : after? mark (c :: cs) with
    | some back => simp [after?_eq_some_iff.1 hm]
    | none => simp [after?_eq_none_iff.1 hm, ih]

theorem isFirst_of_secret? (h : secret? mark cs = some secret) :
    ∃ front back, IsFirst mark front back cs ∧ secret = back.takeWhile (· != '\n') := by
  induction cs with
  | nil => cases h
  | cons c cs ih =>
    rw [secret?] at h
    cases hm : after? mark (c :: cs) with
    | some back =>
      rw [hm] at h
      exact ⟨[], back, after?_eq_some_iff.1 hm ▸ .nil mark back, (Option.some.inj h).symm⟩
    | none =>
      rw [hm] at h
      obtain ⟨front, back, hfirst, hsecret⟩ := ih h
      exact ⟨c :: front, back, hfirst.cons (after?_eq_none_iff.1 hm), hsecret⟩

/-- A line that is still uncut loses what stands behind its first mark; one that is cut, all the
rest. The lines after it are cut at their own marks. -/
theorem lines_withoutSecrets (hne : mark ≠ []) (hmark : '\n' ∉ mark) (cs : List Char) :
    List.Forall₂ (IsCut mark) (pieces '\n' cs) (pieces '\n' (withoutSecrets mark true cs)) ∧
      ∃ line lines shown, pieces '\n' cs = line :: lines ∧
        pieces '\n' (withoutSecrets mark false cs) = [] :: shown ∧
        List.Forall₂ (IsCut mark) lines shown := by
  induction cs with
  | nil => exact ⟨.cons (.nil hne) .nil, [], [], [], rfl, rfl, .nil⟩
  | cons c cs ih =>
    obtain ⟨uncut, line, lines, shown, hlines, hshown, others⟩ := ih
    by_cases hc : c = '\n'
    · subst hc
      have broken (cs : List Char) : pieces '\n' ('\n' :: cs) = [] :: pieces '\n' cs :=
        pieces_append_sep List.not_mem_nil
      simp only [withoutSecrets, if_true, broken]
      exact ⟨.cons (.nil hne) uncut, _, _, _, rfl, rfl, uncut⟩
    · have extended {c : Char} {cs p : List Char} {ps : List (List Char)} (hc : c ≠ '\n')
          (h : pieces '\n' cs = p :: ps) : pieces '\n' (c :: cs) = (c :: p) :: ps := by
        rw [pieces, h]
        exact if_neg hc
      have hlines' := extended hc hlines
      refine ⟨?_, c :: line, lines, shown, hlines', ?_, others⟩
      · have first : c :: line = (c :: cs).takeWhile (· != '\n') := by
          have hhead := head?_pieces '\n' (c :: cs)
          rw [hlines'] at hhead
          exact Option.some.inj hhead
        rw [withoutSecrets, if_neg hc, Bool.true_and, hlines']
        cases hm : after? mark (c :: cs) with
        | some back =>
          rw [Option.isNone_some, if_neg Bool.false_ne_true, hshown]
          refine .cons (.of_begins ?_) others
          rw [first, prefix_takeWhile_iff hmark]
          exact ⟨back, (after?_eq_some_iff.1 hm).symm⟩
        | none =>
          rw [Option.isNone_none, if_pos rfl]
          rw [hlines] at uncut
          obtain ⟨q, qs, hq, hqs, hw⟩ := List.forall₂_cons_left_iff.1 uncut
          rw [extended hc hw]
          refine .cons (hq.cons ?_) hqs
          rw [first, prefix_takeWhile_iff hmark]
          exact after?_eq_none_iff.1 hm
      · rw [withoutSecrets, if_neg hc, Bool.false_and, if_neg Bool.false_ne_true, hshown]

theorem splitsAt_of_secret? (hne : mark ≠ []) (hmark : '\n' ∉ mark)
    (h : secret? mark cs = some secret) :
    SplitsAt mark cs (withoutSecrets mark true cs) secret := by
  have lines := (lines_withoutSecrets hne hmark cs).1
  refine ⟨lines, lines.length_eq.symm, fun hm => ?_, ?_⟩
  · obtain ⟨shown, hshown, within⟩ := exists_mem_pieces_of_infix hmark hm
    obtain ⟨i, hi, rfl⟩ := List.getElem_of_mem hshown
    exact (lines.get (lines.length_eq ▸ hi) hi).unmarked hne within
  · obtain ⟨front, back, hfirst, rfl⟩ := isFirst_of_secret? h
    refine ⟨front, back.dropWhile (· != '\n'), ?_, fun hc => ?_, fun c hc => ?_⟩
    · rwa [List.takeWhile_append_dropWhile]
    · simpa using List.mem_takeWhile_imp hc
    · have stop := List.head?_dropWhile_not (· != '\n') back
      rw [hc] at stop
      simpa using stop

theorem hashTail_succeeds (h : Md5Crypt.salt? salt = some cs) (password : Bytes) :
    ∃ trip, hashTail password salt = .ok trip ∧ trip.length = 10 ∧
      ∀ c ∈ trip.toList, c ∈ Md5Crypt.alphabet := by
  obtain ⟨front, digits, hhash, -, hlength, hdigits⟩ := Md5Crypt.hash?_eq_some h password
  have tail : (front ++ digits).drop ((front ++ digits).length - 10) = digits.drop 12 := by
    rw [List.length_append, hlength, show front.length + 22 - 10 = front.length + 12 by omega,
      List.drop_length_add_append]
  refine ⟨String.ofList (digits.drop 12), ?_, ?_, fun c hc => ?_⟩
  · rw [hashTail, hhash]
    exact congrArg (fun cs => Except.ok (String.ofList cs)) tail
  · rw [String.length_ofList, List.length_drop, hlength]
  · rw [String.toList_ofList] at hc
    exact hdigits c (List.mem_of_mem_drop hc)

theorem hashTail_fails_iff :
    (∃ f, hashTail password salt = .error f) ↔ Md5Crypt.salt? salt = none := by
  cases h : Md5Crypt.salt? salt with
  | none =>
    rw [hashTail, (Md5Crypt.hash?_eq_none_iff password).2 h]
    exact iff_of_true ⟨_, rfl⟩ rfl
  | some cs =>
    obtain ⟨trip, htrip, -⟩ := hashTail_succeeds h password
    rw [htrip]
    exact iff_of_false (fun ⟨f, hf⟩ => nomatch hf) nofun

theorem mem_alphabet_of_mem_saltTable : ∀ c ∈ saltTable, c ∈ Md5Crypt.alphabet :=
  forall_mem_of_all (by decide +kernel)

theorem length_saltChars (password : Bytes) : (saltChars password).length = 2 := by
  have three : (decodeWith ['\uFFFD'] 3 (password ++ ofLatin ['H', '.', '.'])).length = 3 :=
    length_decodeWith password (forall_mem_of_all (by decide)) le_rfl
  rw [saltChars, List.length_drop, three]

/-- Two bytes that are one character in Shift_JIS count as two. -/
example : saltChars [0x82, 0xA0, 0x78] = ['\uFFFD', 'x'] := by decide

theorem getElem?_saltTable (c : Char) : saltTable[c.toNat % 256]? = some (saltDigit c) :=
  List.getElem?_eq_getElem _

theorem saltDigit_mem_alphabet (c : Char) : saltDigit c ∈ Md5Crypt.alphabet :=
  mem_alphabet_of_mem_saltTable _ (List.getElem_mem _)

theorem plain_isTrip (secret : String) : ∃ trip, plain secret = .ok trip ∧ trip.length = 10 ∧
    ∀ c ∈ trip.toList, c ∈ Md5Crypt.alphabet := by
  have two : (plainSalt (convert secret)).length = 2 := by
    rw [plainSalt, List.length_map, length_saltChars]
  unfold plain
  refine hashTail_succeeds (Md5Crypt.salt?_ofList ?_ (by omega) fun x hx => ?_) _
  · exact List.ne_nil_of_length_pos (by omega)
  · obtain ⟨c, -, rfl⟩ := List.mem_map.1 hx
    exact saltDigit_mem_alphabet c

/-- A plain secret always makes a tripcode. Two characters are looked up for its salt, each at a
place that the table has, and ten characters of the same alphabet come of it. -/
theorem plain_succeeds (secret : String) :
    (∃ c d x y, saltChars (convert secret) = [c, d] ∧
      saltTable[c.toNat % 256]? = some x ∧ saltTable[d.toNat % 256]? = some y ∧
      plainSalt (convert secret) = [x, y] ∧ x ∈ Md5Crypt.alphabet ∧ y ∈ Md5Crypt.alphabet) ∧
    ∃ trip, plain secret = .ok trip ∧ trip.length = 10 ∧
      ∀ c ∈ trip.toList, c ∈ Md5Crypt.alphabet := by
  obtain ⟨c, d, hchars⟩ := List.length_eq_two.1 (length_saltChars (convert secret))
  refine ⟨⟨c, d, saltDigit c, saltDigit d, hchars, getElem?_saltTable c, getElem?_saltTable d, ?_,
    saltDigit_mem_alphabet c, saltDigit_mem_alphabet d⟩, plain_isTrip secret⟩
  rw [plainSalt, hchars]
  rfl

section Names

variable {input s : String} {salt : Option String}

theorem ofName_of_two (h : secret? ['#', '#'] input.toList = some secret) (hs : s ≠ "") :
    ofName input (some s) = (secure (String.ofList secret) s).map fun trip =>
      ⟨String.ofList (withoutSecrets ['#', '#'] true input.toList), "!!" ++ trip⟩ := by
  simp only [ofName, h]
  cases secure (String.ofList secret) s <;> rfl

theorem ofName_of_two_unsalted (h : secret? ['#', '#'] input.toList = some secret)
    (hs : salt = none ∨ salt = some "") :
    ofName input salt = .error (.refused .noTripcodeSalt) := by
  rcases hs with rfl | rfl <;> simp [ofName, h]

theorem ofName_of_one (two : secret? ['#', '#'] input.toList = none)
    (one : secret? ['#'] input.toList = some secret) :
    ofName input salt = (plain (String.ofList secret)).map fun trip =>
      ⟨String.ofList (withoutSecrets ['#'] true input.toList), "!" ++ trip⟩ := by
  simp only [ofName, two, one]
  cases plain (String.ofList secret) <;> rfl

theorem ofName_of_unmarked (h : '#' ∉ input.toList) : ofName input salt = .ok ⟨input, ""⟩ := by
  have one : secret? ['#'] input.toList = none := by
    rwa [secret?_eq_none_iff (by decide), List.singleton_infix_iff]
  have two : secret? ['#', '#'] input.toList = none :=
    (secret?_eq_none_iff (by decide)).2 fun hm => h (hm.subset List.mem_cons_self)
  simp only [ofName, two, one]

end Names

/-- A name without a mark stands as it is. Two marks together win over one: the name is cut at them,
and the secret makes a tripcode with the salt of the board. A name with single marks is cut at
these, and the secret makes a plain tripcode. A name is refused exactly where two marks meet no
salt, or one that the hash refuses. -/
theorem ofName_splits (input : String) (salt : Option String) :
    ('#' ∉ input.toList → ofName input salt = .ok ⟨input, ""⟩) ∧
    ('#' ∈ input.toList → ¬ ['#', '#'] <:+: input.toList →
      ∃ name secret trip, SplitsAt ['#'] input.toList name secret ∧
        plain (String.ofList secret) = .ok trip ∧
        ofName input salt = .ok ⟨String.ofList name, "!" ++ trip⟩) ∧
    (['#', '#'] <:+: input.toList → ∀ s, salt = some s → s ≠ "" →
      ∃ name secret, SplitsAt ['#', '#'] input.toList name secret ∧
        ofName input salt = (secure (String.ofList secret) s).map fun trip =>
          ⟨String.ofList name, "!!" ++ trip⟩) ∧
    ((∃ f, ofName input salt = .error f) ↔ ['#', '#'] <:+: input.toList ∧
      (salt = none ∨ salt = some "" ∨ ∃ s, salt = some s ∧ Md5Crypt.salt? s = none)) := by
  have found {mark : List Char} (hne : mark ≠ []) (h : mark <:+: input.toList) :
      ∃ secret, secret? mark input.toList = some secret :=
    Option.ne_none_iff_exists'.1 fun hn => (secret?_eq_none_iff hne).1 hn h
  have single (one : '#' ∈ input.toList) (two : ¬ ['#', '#'] <:+: input.toList) :
      ∃ name secret trip, SplitsAt ['#'] input.toList name secret ∧
        plain (String.ofList secret) = .ok trip ∧
        ofName input salt = .ok ⟨String.ofList name, "!" ++ trip⟩ := by
    obtain ⟨secret, hsecret⟩ := found (by decide) ((List.singleton_infix_iff _ _).2 one)
    obtain ⟨trip, htrip, -⟩ := plain_isTrip (String.ofList secret)
    refine ⟨_, secret, trip, splitsAt_of_secret? (by decide) (by decide) hsecret, htrip, ?_⟩
    rw [ofName_of_one ((secret?_eq_none_iff (by decide)).2 two) hsecret, htrip]
    rfl
  refine ⟨ofName_of_unmarked, single, fun two s hs hne => ?_, ?_⟩
  · obtain ⟨secret, hsecret⟩ := found (by decide) two
    subst hs
    exact ⟨_, secret, splitsAt_of_secret? (by decide) (by decide) hsecret,
      ofName_of_two hsecret hne⟩
  · by_cases two : ['#', '#'] <:+: input.toList
    · obtain ⟨secret, hsecret⟩ := found (by decide) two
      rw [and_iff_right two]
      by_cases unsalted : salt = none ∨ salt = some ""
      · rw [ofName_of_two_unsalted hsecret unsalted]
        exact iff_of_true ⟨_, rfl⟩ (unsalted.imp_right .inl)
      · obtain ⟨hnone, hempty⟩ := not_or.1 unsalted
        obtain ⟨s, rfl⟩ := Option.ne_none_iff_exists'.1 hnone
        rw [ofName_of_two hsecret fun he => hempty (congrArg some he), except_map_fails_iff, secure,
          hashTail_fails_iff]
        simpa using fun hs => absurd (congrArg some hs) hempty
    · refine iff_of_false (fun ⟨f, hf⟩ => ?_) fun h => two h.1
      by_cases one : '#' ∈ input.toList
      · obtain ⟨_, _, _, -, -, h⟩ := single one two
        exact nomatch hf.symm.trans h
      · exact nomatch hf.symm.trans (ofName_of_unmarked one)

theorem ofName_splits_of_overlapping_marks :
    let input := "a###b\nc#d##e\n##"
    (['#', '#'] <:+: input.toList ∧
      (∃ name secret, SplitsAt ['#', '#'] input.toList name secret ∧
        ofName input (some "salt") = (secure (String.ofList secret) "salt").map fun trip =>
          ⟨String.ofList name, "!!" ++ trip⟩) ∧
      ∃ f, ofName input none = .error f) ∧
    '#' ∈ "a#b\nc#".toList ∧ ∃ name secret trip, SplitsAt ['#'] "a#b\nc#".toList name secret ∧
      plain (String.ofList secret) = .ok trip ∧
      ofName "a#b\nc#" none = .ok ⟨String.ofList name, "!" ++ trip⟩ := by
  intro input
  have two : ['#', '#'] <:+: input.toList := by decide +kernel
  have one : '#' ∈ "a#b\nc#".toList := by decide +kernel
  have single : ¬ ['#', '#'] <:+: "a#b\nc#".toList := by decide +kernel
  obtain ⟨-, -, doubled, -⟩ := ofName_splits input (some "salt")
  obtain ⟨-, -, -, refused⟩ := ofName_splits input none
  obtain ⟨-, plainly, -, -⟩ := ofName_splits "a#b\nc#" none
  exact ⟨⟨two, doubled two "salt" rfl (by decide), refused.2 ⟨two, .inl rfl⟩⟩, one,
    plainly one single⟩

/-- Of three marks the first two count. -/
example : secret? ['#', '#'] "a###b\nc#d##e\n##".toList = some ['#', 'b'] ∧
    withoutSecrets ['#', '#'] true "a###b\nc#d##e\n##".toList = "a\nc#d\n".toList := by
  decide +kernel

end Imageboard.Tripcode
