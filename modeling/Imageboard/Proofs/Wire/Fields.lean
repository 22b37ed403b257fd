import Imageboard.Proofs.Json.Members
import Imageboard.Proofs.Time.Rfc3339
import Imageboard.Wire.Decode
import Imageboard.Wire.Encode

namespace Imageboard

namespace Json

variable {name : String} {v : Value} {depth : Nat}

def textSlot (s : String) : Option Value :=
  if s = "" then none else some (.str s)

def flagSlot (b : Bool) : Option Value :=
  if b then some (.bool true) else none

def instantSlot (t : Option Instant) : Option Value :=
  t.map fun t => .str (Rfc3339.render t)

def wordSlot (n : UInt64) : Option Value :=
  if n = 0 then none else some (.num (.int n.toNat))

def int64Slot (n : Int64) : Option Value :=
  if n = 0 then none else some (.num (.int n.toInt))

def valuesSlot (vs : List Value) : Option Value :=
  if vs.isEmpty then none else some (.arr vs)

theorem ofText_eq (name s : String) : Members.ofText name s = given [(name, textSlot s)] := by
  unfold Members.ofText textSlot
  split <;> rfl

theorem ofFlag_eq (name : String) (b : Bool) :
    Members.ofFlag name b = given [(name, flagSlot b)] := by
  cases b <;> rfl

theorem ofTexts_eq (name : String) (ss : List String) :
    Members.ofTexts name ss = given [(name, valuesSlot (ss.map .str))] := by
  cases ss <;> rfl

theorem ofInstant_eq (name : String) (t : Option Instant) :
    Members.ofInstant name t = given [(name, instantSlot t)] := by
  cases t <;> rfl

theorem ofWord_eq (name : String) (n : UInt64) :
    Members.ofWord name n = given [(name, wordSlot n)] := by
  unfold Members.ofWord wordSlot
  split <;> rfl

theorem ofInt64_eq (name : String) (n : Int64) :
    Members.ofInt64 name n = given [(name, int64Slot n)] := by
  unfold Members.ofInt64 int64Slot
  split <;> rfl

theorem ofValues_eq (name : String) (vs : List Value) :
    Members.ofValues name vs = given [(name, valuesSlot vs)] := by
  unfold Members.ofValues valuesSlot
  split <;> rfl

theorem ofValue?_eq (name : String) (x : Option Value) :
    Members.ofValue? name x = given [(name, x)] := by
  cases x <;> rfl

/-- A value without containers that is given back by its text. -/
structure IsFlat (v : Value) : Prop where
  exact : v.isExact = true
  fits (depth : Nat) : v.fits depth = true

theorem isFlat_str (s : String) : IsFlat (.str s) :=
  ⟨rfl, fun _ => rfl⟩

theorem isFlat_textSlot {s : String} : ∀ v ∈ textSlot s, IsFlat v := by
  intro v hv
  unfold textSlot at hv
  split at hv
  next => cases hv
  next =>
    cases hv
    exact isFlat_str s

theorem isFlat_flagSlot {b : Bool} : ∀ v ∈ flagSlot b, IsFlat v := by
  intro v hv
  cases b with
  | false => cases hv
  | true =>
    cases hv
    exact ⟨rfl, fun _ => rfl⟩

theorem isFlat_instantSlot {t : Option Instant} : ∀ v ∈ instantSlot t, IsFlat v := by
  intro v hv
  obtain ⟨t, -, rfl⟩ := Option.map_eq_some_iff.1 hv
  exact isFlat_str _

theorem isFlat_wordSlot {n : UInt64} : ∀ v ∈ wordSlot n, IsFlat v := by
  intro v hv
  unfold wordSlot at hv
  split at hv
  next => cases hv
  next =>
    cases hv
    have bound := n.toNat_lt
    refine ⟨?_, fun _ => rfl⟩
    simp only [Value.isExact, Bool.and_eq_true, decide_eq_true_eq]
    omega

theorem isFlat_int64Slot {n : Int64} : ∀ v ∈ int64Slot n, IsFlat v := by
  intro v hv
  unfold int64Slot at hv
  split at hv
  next => cases hv
  next =>
    cases hv
    have low := n.le_toInt
    have high := n.toInt_lt
    refine ⟨?_, fun _ => rfl⟩
    simp only [Value.isExact, Bool.and_eq_true, decide_eq_true_eq]
    omega

theorem mem_valuesSlot {vs : List Value} : v ∈ valuesSlot vs ↔ vs ≠ [] ∧ .arr vs = v := by
  cases vs <;> simp [valuesSlot]

theorem forall_valuesSlot {α : Type} {P : Value → Prop} {write : α → Value} {as : List α}
    (h : as ≠ [] → P (.arr (as.map write))) : ∀ v ∈ valuesSlot (as.map write), P v := by
  intro v hv
  obtain ⟨hne, rfl⟩ := mem_valuesSlot.1 hv
  exact h fun he => hne (List.map_eq_nil_iff.2 he)

theorem isExact_texts (ss : List String) : Value.isExact (.arr (ss.map .str)) = true := by
  rw [Value.isExact, Value.isExactAll_iff]
  exact List.forall_mem_map.2 fun s _ => (isFlat_str s).exact

theorem elim_textSlot (s : String) : (textSlot s).elim (some "") Value.text? = some s := by
  unfold textSlot
  split
  next hs => exact congrArg some hs.symm
  next => rfl

theorem elim_flagSlot (b : Bool) : (flagSlot b).elim (some false) Value.bool? = some b := by
  cases b <;> rfl

theorem elim_wordSlot (n : UInt64) : (wordSlot n).elim (some 0) Value.word64? = some n := by
  unfold wordSlot
  split
  next hn => exact congrArg some hn.symm
  next =>
    have bound := n.toNat_lt
    rw [Option.elim_some, Value.word64?, if_pos (by omega), Int.toNat_natCast, UInt64.ofNat_toNat]

theorem elim_int64Slot (n : Int64) : (int64Slot n).elim (some 0) Value.int64? = some n := by
  unfold int64Slot
  split
  next hn => exact congrArg some hn.symm
  next =>
    have low := n.le_toInt
    have high := n.toInt_lt
    rw [Option.elim_some, Value.int64?, if_pos (by omega), Int64.ofInt_toInt]

theorem elim_valuesSlot {α : Type} {read : Value → Option (List α)} {vs : List Value} {as : List α}
    (empty : vs = [] → as = []) (h : vs ≠ [] → read (.arr vs) = some as) :
    (valuesSlot vs).elim (some []) read = some as := by
  unfold valuesSlot
  split
  next hvs => exact congrArg some (empty (List.isEmpty_iff.1 hvs)).symm
  next hvs => exact h fun he => hvs (List.isEmpty_iff.2 he)

theorem mapM_map {α β : Type} (write : α → Value) (read : Value → Option β) (f : α → β)
    {as : List α} (h : ∀ a ∈ as, read (write a) = some (f a)) :
    (as.map write).mapM read = some (as.map f) := by
  induction as with
  | nil => rfl
  | cons a as ih =>
    rw [List.map_cons, List.mapM_cons, h a List.mem_cons_self,
      ih fun b hb => h b (List.mem_cons_of_mem a hb)]
    rfl

theorem elim_textsSlot (ss : List String)
    (h : ∀ v ∈ valuesSlot (ss.map .str), v.fits depth = true) :
    (valuesSlot (ss.map .str)).elim (some [])
      (fun v => if depth = 0 then none else v.texts?) = some ss := by
  refine elim_valuesSlot List.map_eq_nil_iff.1 fun hne => ?_
  have hpos := (Value.fits_arr.1 (h _ (mem_valuesSlot.2 ⟨hne, rfl⟩))).1
  rw [if_neg (by omega)]
  have texts : (ss.map Value.str).mapM Value.text? = some (ss.map id) :=
    mapM_map Value.str Value.text? id fun _ _ => rfl
  rwa [List.map_id] at texts

theorem elim_nullable {α β : Type} (write : α → Value) (read : Value → Option β) (f : α → β)
    {x : Option α} (h : ∀ a ∈ x, write a ≠ .null ∧ read (write a) = some (f a)) :
    (x.map write).elim (some none) (Value.nullable? read) = some (x.map f) := by
  cases x with
  | none => rfl
  | some a =>
    obtain ⟨hne, hread⟩ := h a rfl
    change Value.nullable? read (write a) = some (some (f a))
    unfold Value.nullable?
    split
    next he => exact absurd he hne
    next => rw [hread, Option.map_some]

theorem elim_instantSlot (t : Option Instant) :
    (instantSlot t).elim (some none) Value.instant? = some t := by
  have read := elim_nullable (fun t => .str (Rfc3339.render t))
    (fun v => v.text?.bind Rfc3339.parse?) id (x := t) fun t _ =>
      ⟨nofun, (Option.bind_some ..).trans (Rfc3339.parse?_render t)⟩
  rwa [Option.map_id] at read

end Json

open Json

variable {depth : Nat}

def PublicKey.slots (k : PublicKey) : List (String × Option Value) :=
  [("id", textSlot k.id), ("owner", textSlot k.owner), ("publicKeyPem", textSlot k.pem)]

theorem PublicKey.encode_eq (k : PublicKey) : k.encode = .obj (given k.slots) := by
  simp only [encode, slots, given_cons, ofText_eq, List.append_assoc]

theorem PublicKey.nodup_slots (k : PublicKey) : (k.slots.map Prod.fst).Nodup := by
  change PublicKey.fields.Nodup
  decide

def Actor.slots (a : Actor) : List (String × Option Value) :=
  [("type", textSlot a.type), ("id", textSlot a.id), ("inbox", textSlot a.inbox),
   ("outbox", textSlot a.outbox), ("following", textSlot a.following),
   ("followers", textSlot a.followers), ("name", textSlot a.name),
   ("preferredUsername", textSlot a.preferredUsername),
   ("publicKey", a.publicKey.map PublicKey.encode), ("summary", textSlot a.summary),
   ("restricted", some (.bool a.restricted))]

section Slots

variable {P : Value → Prop} (flat : ∀ v, IsFlat v → P v)
include flat

theorem PublicKey.forall_slots (k : PublicKey) : ∀ f ∈ k.slots, ∀ v ∈ f.2, P v := by
  have text (s : String) (v : Value) (hv : v ∈ textSlot s) : P v := flat v (isFlat_textSlot v hv)
  simp only [slots, List.forall_mem_cons]
  exact ⟨text _, text _, text _, nofun⟩

theorem Actor.forall_slots (a : Actor) (key : ∀ k ∈ a.publicKey, P k.encode) :
    ∀ f ∈ a.slots, ∀ v ∈ f.2, P v := by
  have text (s : String) (v : Value) (hv : v ∈ textSlot s) : P v := flat v (isFlat_textSlot v hv)
  simp only [slots, List.forall_mem_cons]
  refine ⟨text _, text _, text _, text _, text _, text _, text _, text _, ?_, text _, ?_, nofun⟩
  · intro v hv
    obtain ⟨k, hk, rfl⟩ := Option.map_eq_some_iff.1 hv
    exact key k hk
  · rintro v ⟨⟩
    exact flat _ ⟨rfl, fun _ => rfl⟩

end Slots

theorem PublicKey.isExact_encode (k : PublicKey) : k.encode.isExact = true := by
  rw [encode_eq, isExact_given]
  exact k.forall_slots fun _ => IsFlat.exact

theorem PublicKey.decode?_encode (k : PublicKey) (h : k.encode.fits depth = true) :
    decode? depth k.encode = some k := by
  have hpos : depth ≠ 0 := by
    rw [encode_eq, fits_given] at h
    omega
  have text (name s : String) (hm : (name, textSlot s) ∈ k.slots) :
      (given k.slots).text name = some s :=
    read_given k.nodup_slots hm (elim_textSlot s)
  rw [encode_eq, decode?, if_neg hpos, bind_of_eq_some (members?_given k.nodup_slots fields),
    text "id" k.id (by simp [slots]),
    text "owner" k.owner (by simp [slots]), text "publicKeyPem" k.pem (by simp [slots])]
  rfl

theorem Actor.encode_eq (a : Actor) : a.encode = .obj (given a.slots) := by
  simp only [encode, slots, given_cons, ofText_eq, ofValue?_eq, List.append_assoc]
  rfl

theorem Actor.nodup_slots (a : Actor) : (a.slots.map Prod.fst).Nodup := by
  change Actor.fields.Nodup
  decide

theorem Actor.isExact_encode (a : Actor) : a.encode.isExact = true := by
  rw [encode_eq, isExact_given]
  exact a.forall_slots (fun _ => IsFlat.exact) fun k _ => k.isExact_encode

theorem Actor.decode?_encode (a : Actor) (h : a.encode.fits depth = true) :
    decode? depth a.encode = some a := by
  rw [encode_eq] at h
  obtain ⟨hpos, hfits⟩ := fits_given.1 h
  have hpos : depth ≠ 0 := by omega
  have text (name s : String) (hm : (name, textSlot s) ∈ a.slots) :
      (given a.slots).text name = some s :=
    read_given a.nodup_slots hm (elim_textSlot s)
  have key : (given a.slots).read "publicKey" none
      (Value.nullable? (PublicKey.decode? (depth - 1))) = some a.publicKey := by
    have slot : ("publicKey", a.publicKey.map PublicKey.encode) ∈ a.slots := by simp [slots]
    have elim := elim_nullable PublicKey.encode (PublicKey.decode? (depth - 1)) (·)
      (x := a.publicKey) fun k hk => ⟨by rw [k.encode_eq]; exact nofun,
        k.decode?_encode (hfits _ slot _ (Option.map_eq_some_iff.2 ⟨k, hk, rfl⟩))⟩
    rw [Option.map_id'] at elim
    exact read_given a.nodup_slots slot elim
  have flag : (given a.slots).flag "restricted" = some a.restricted :=
    read_given a.nodup_slots (x := some (.bool a.restricted)) (by simp [slots]) rfl
  rw [encode_eq, decode?, if_neg hpos, bind_of_eq_some (members?_given a.nodup_slots fields),
    text "id" a.id (by simp [slots]), text "type" a.type (by simp [slots]),
    text "inbox" a.inbox (by simp [slots]),
    text "outbox" a.outbox (by simp [slots]),
    text "following" a.following (by simp [slots]),
    text "followers" a.followers (by simp [slots]),
    text "name" a.name (by simp [slots]),
    text "preferredUsername" a.preferredUsername (by simp [slots]),
    text "summary" a.summary (by simp [slots]), key, flag]
  rfl

end Imageboard
