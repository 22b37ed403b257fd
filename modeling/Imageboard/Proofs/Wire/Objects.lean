import Imageboard.Proofs.Wire.Fields

namespace Imageboard

open Json

namespace Object

variable {o p : Object} {l : Listing Object} {v : Value} {depth : Nat}

/-- The objects right below an object: those it answers, its preview, its media and its replies. -/
def children (o : Object) : List Object :=
  o.inReplyTo ++ o.preview.toList ++ o.attachment ++
    o.replies.toList.flatMap fun l => l.orderedItems ++ l.items

theorem mem_children : p ∈ o.children ↔ p ∈ o.inReplyTo ∨ p ∈ o.preview ∨ p ∈ o.attachment ∨
    ∃ l ∈ o.replies, p ∈ l.orderedItems ++ l.items := by
  simp only [children, List.mem_append, Option.mem_toList, List.mem_flatMap, or_assoc,
    Option.mem_def]

theorem sizeOf_lt_of_mem_children (h : p ∈ o.children) : sizeOf p < sizeOf o := by
  obtain ⟨type, id, name, options, attributedTo, tripcode, actor, content, inReplyTo, preview,
    published, updated, attachment, replies, summary, href, addressees, cc, mediaType, size,
    sensitive, sticky, locked⟩ := o
  have items {os : List Object} (hm : p ∈ os) : sizeOf p < sizeOf os := List.sizeOf_lt_of_mem hm
  rcases mem_children.1 h with hp | rfl | hp | ⟨l, rfl, hp⟩
  · have smaller : sizeOf p < sizeOf inReplyTo := items hp
    simp
    omega
  · simp
    omega
  · have smaller : sizeOf p < sizeOf attachment := items hp
    simp
    omega
  · obtain ⟨_, _, _, _, _, ordered, unordered⟩ := l
    rcases List.mem_append.1 hp with hp | hp
    · have smaller : sizeOf p < sizeOf ordered := items hp
      simp
      omega
    · have smaller : sizeOf p < sizeOf unordered := items hp
      simp
      omega

theorem induct {P : Object → Prop} (step : ∀ o, (∀ p ∈ o.children, P p) → P o) (o : Object) : P o :=
  step o fun p _ => induct step p
termination_by o
decreasing_by exact sizeOf_lt_of_mem_children ‹_›

theorem encodeAll_eq (os : List Object) : encodeAll os = os.map encode := by
  induction os with
  | nil => rfl
  | cons o os ih => rw [encodeAll, ih, List.map_cons]

end Object

def Listing.slots (l : Listing Object) : List (String × Option Value) :=
  [("actor", l.actor.map Actor.encode), ("summary", textSlot l.summary), ("type", textSlot l.type),
   ("totalItems", wordSlot l.totalItems), ("totalImgs", wordSlot l.totalImages),
   ("orderedItems", valuesSlot (l.orderedItems.map Object.encode)),
   ("items", valuesSlot (l.items.map Object.encode))]

namespace Object

theorem encodeListing_eq (l : Listing Object) : encodeListing l = given l.slots := by
  cases l
  simp only [encodeListing, Listing.slots, given_cons, encodeAll_eq, ofValue?_eq, ofText_eq,
    ofWord_eq, ofValues_eq, List.append_assoc]

def slots (o : Object) : List (String × Option Value) :=
  [("type", o.type.map fun t => .str t.text), ("id", textSlot o.id), ("name", textSlot o.name),
   ("attributedTo", textSlot o.attributedTo), ("tripcode", textSlot o.tripcode),
   ("actor", textSlot o.actor), ("content", textSlot o.content),
   ("inReplyTo", valuesSlot (o.inReplyTo.map encode)), ("preview", o.preview.map encode),
   ("published", instantSlot o.published), ("updated", instantSlot o.updated),
   ("attachment", valuesSlot (o.attachment.map encode)),
   ("replies", o.replies.map fun l => .obj (given l.slots)), ("summary", textSlot o.summary),
   ("href", textSlot o.href), ("to", valuesSlot (o.addressees.map .str)),
   ("cc", valuesSlot (o.cc.map .str)), ("mediatype", textSlot o.mediaType),
   ("size", int64Slot o.size), ("sensitive", flagSlot o.sensitive),
   ("sticky", flagSlot o.sticky), ("locked", flagSlot o.locked)]

theorem encode_eq (o : Object) : o.encode = .obj (given o.slots) := by
  obtain ⟨type, id, name, options, attributedTo, tripcode, actor, content, inReplyTo, preview,
    published, updated, attachment, replies, summary, href, addressees, cc, mediaType, size,
    sensitive, sticky, locked⟩ := o
  unfold encode
  simp only [slots, given_cons, encodeAll_eq, ofValue?_eq, ofText_eq, ofFlag_eq, ofTexts_eq,
    ofInstant_eq, ofInt64_eq, ofValues_eq, List.append_assoc]
  cases preview <;> cases replies <;> simp only [encodeListing_eq] <;> rfl

theorem nodup_slots (o : Object) : (o.slots.map Prod.fst).Nodup := by
  change Object.fields.Nodup
  decide

end Object

theorem Listing.nodup_slots (l : Listing Object) : (l.slots.map Prod.fst).Nodup := by
  change Listing.fields.Nodup
  decide

section Slots

variable {P : Value → Prop} (flat : ∀ v, IsFlat v → P v)
include flat

theorem Listing.forall_slots (l : Listing Object) (actor : ∀ a ∈ l.actor, P a.encode)
    (orderedItems : l.orderedItems ≠ [] → P (.arr (l.orderedItems.map Object.encode)))
    (items : l.items ≠ [] → P (.arr (l.items.map Object.encode))) :
    ∀ f ∈ l.slots, ∀ v ∈ f.2, P v := by
  have text (s : String) (v : Value) (hv : v ∈ textSlot s) : P v := flat v (isFlat_textSlot v hv)
  have word (n : UInt64) (v : Value) (hv : v ∈ wordSlot n) : P v := flat v (isFlat_wordSlot v hv)
  simp only [slots, List.forall_mem_cons]
  refine ⟨?_, text _, text _, word _, word _, forall_valuesSlot orderedItems,
    forall_valuesSlot items, nofun⟩
  intro v hv
  obtain ⟨a, ha, rfl⟩ := Option.map_eq_some_iff.1 hv
  exact actor a ha

theorem Object.forall_slots (o : Object)
    (inReplyTo : o.inReplyTo ≠ [] → P (.arr (o.inReplyTo.map encode)))
    (preview : ∀ p ∈ o.preview, P p.encode)
    (attachment : o.attachment ≠ [] → P (.arr (o.attachment.map encode)))
    (replies : ∀ l ∈ o.replies, P (.obj (given l.slots)))
    (addressees : o.addressees ≠ [] → P (.arr (o.addressees.map .str)))
    (cc : o.cc ≠ [] → P (.arr (o.cc.map .str))) : ∀ f ∈ o.slots, ∀ v ∈ f.2, P v := by
  have text (s : String) (v : Value) (hv : v ∈ textSlot s) : P v := flat v (isFlat_textSlot v hv)
  have flag (b : Bool) (v : Value) (hv : v ∈ flagSlot b) : P v := flat v (isFlat_flagSlot v hv)
  have instant (t : Option Instant) (v : Value) (hv : v ∈ instantSlot t) : P v :=
    flat v (isFlat_instantSlot v hv)
  have size (v : Value) (hv : v ∈ int64Slot o.size) : P v := flat v (isFlat_int64Slot v hv)
  simp only [slots, List.forall_mem_cons]
  refine ⟨?type, text _, text _, text _, text _, text _, text _, forall_valuesSlot inReplyTo,
    ?preview, instant _, instant _, forall_valuesSlot attachment, ?replies, text _, text _,
    forall_valuesSlot addressees, forall_valuesSlot cc, text _, size, flag _, flag _, flag _, nofun⟩
  case type =>
    intro v hv
    obtain ⟨t, -, rfl⟩ := Option.map_eq_some_iff.1 hv
    exact flat _ (isFlat_str _)
  case preview =>
    intro v hv
    obtain ⟨p, hp, rfl⟩ := Option.map_eq_some_iff.1 hv
    exact preview p hp
  case replies =>
    intro v hv
    obtain ⟨l, hl, rfl⟩ := Option.map_eq_some_iff.1 hv
    exact replies l hl

end Slots

namespace Object

theorem isExact_objects {os : List Object} (h : ∀ p ∈ os, p.encode.isExact = true) :
    Value.isExact (.arr (os.map encode)) = true := by
  rw [Value.isExact, Value.isExactAll_iff]
  exact List.forall_mem_map.2 h

theorem isExact_slots (l : Listing Object)
    (h : ∀ p ∈ l.orderedItems ++ l.items, p.encode.isExact = true) :
    ∀ f ∈ l.slots, ∀ v ∈ f.2, v.isExact = true :=
  l.forall_slots (fun _ => IsFlat.exact) (fun a _ => a.isExact_encode)
    (fun _ => isExact_objects fun p hp => h p (List.mem_append_left _ hp))
    (fun _ => isExact_objects fun p hp => h p (List.mem_append_right _ hp))

theorem isExact_encode (o : Object) : o.encode.isExact = true := by
  induction o using induct with
  | step o ih =>
    rw [encode_eq, isExact_given]
    apply o.forall_slots fun _ => IsFlat.exact
    case inReplyTo => exact fun _ => isExact_objects fun p hp => ih p (mem_children.2 (.inl hp))
    case preview => exact fun p hp => ih p (mem_children.2 (.inr (.inl hp)))
    case attachment =>
      exact fun _ => isExact_objects fun p hp => ih p (mem_children.2 (.inr (.inr (.inl hp))))
    case replies =>
      exact fun l hl => isExact_given.2 (isExact_slots l fun p hp =>
        ih p (mem_children.2 (.inr (.inr (.inr ⟨l, hl, hp⟩)))))
    case addressees => exact fun _ => isExact_texts _
    case cc => exact fun _ => isExact_texts _

end Object

/-- A type that its name stands for: another one is not named blank or like one of the known. -/
def ObjectType.IsPlain : ObjectType → Prop
  | other name => Text.isBlankText name = false ∧
      name ∉ ["Note", "Archive", "Tombstone", "Preview", "Attachment"]
  | _ => True

theorem ObjectType.IsPlain.ofText_text {t : ObjectType} (h : t.IsPlain) :
    Text.isBlankText t.text = false ∧ ofText t.text = t := by
  cases t with
  | other name =>
    obtain ⟨filled, unknown⟩ := h
    simp only [List.mem_cons, List.not_mem_nil, or_false, not_or] at unknown
    obtain ⟨h₁, h₂, h₃, h₄, h₅⟩ := unknown
    refine ⟨filled, ?_⟩
    rw [text, ofText, if_neg h₁, if_neg h₂, if_neg h₃, if_neg h₄, if_neg h₅]
  | _ => exact ⟨by decide, rfl⟩

namespace Object

inductive IsRegular : Object → Prop where
  | intro {o : Object} (type : ∀ t ∈ o.type, t.IsPlain) (children : ∀ p ∈ o.children, IsRegular p) :
      IsRegular o

mutual

/-- An object without the wishes of posters. -/
def cleared : Object → Object
  | { type, id, name, options := _, attributedTo, tripcode, actor, content, inReplyTo, preview,
      published, updated, attachment, replies, summary, href, addressees, cc, mediaType, size,
      sensitive, sticky, locked } =>
    { type, id, name, options := [], attributedTo, tripcode, actor, content,
      inReplyTo := clearedAll inReplyTo
      preview := match preview with
        | none => none
        | some p => some (cleared p)
      published, updated
      attachment := clearedAll attachment
      replies := match replies with
        | none => none
        | some l => some (clearedListing l)
      summary, href, addressees, cc, mediaType, size, sensitive, sticky, locked }

def clearedAll : List Object → List Object
  | [] => []
  | o :: os => cleared o :: clearedAll os

def clearedListing : Listing Object → Listing Object
  | { actor, summary, type, totalItems, totalImages, orderedItems, items } =>
    { actor, summary, type, totalItems, totalImages
      orderedItems := clearedAll orderedItems
      items := clearedAll items }

end

theorem clearedAll_eq (os : List Object) : clearedAll os = os.map cleared := by
  induction os with
  | nil => rfl
  | cons o os ih => rw [clearedAll, ih, List.map_cons]

theorem clearedListing_eq (l : Listing Object) : clearedListing l = { l with
    orderedItems := l.orderedItems.map cleared, items := l.items.map cleared } := by
  cases l
  simp only [clearedListing, clearedAll_eq]

theorem cleared_eq (o : Object) : o.cleared = { o with
    options := []
    inReplyTo := o.inReplyTo.map cleared
    preview := o.preview.map cleared
    attachment := o.attachment.map cleared
    replies := o.replies.map clearedListing } := by
  obtain ⟨type, id, name, options, attributedTo, tripcode, actor, content, inReplyTo, preview,
    published, updated, attachment, replies, summary, href, addressees, cc, mediaType, size,
    sensitive, sticky, locked⟩ := o
  unfold cleared
  simp only [clearedAll_eq]
  cases preview <;> cases replies <;> rfl

variable {fields : List (String × Option Value)}

theorem elim_objects {os : List Object}
    (hfits : ∀ v ∈ valuesSlot (os.map encode), v.fits depth = true)
    (h : ∀ p ∈ os, ∀ depth, p.encode.fits depth = true → decode? depth p.encode = some p.cleared) :
    (valuesSlot (os.map encode)).elim (some []) (decodeAll? depth) = some (os.map cleared) := by
  refine elim_valuesSlot (fun he => ?_) fun hne => ?_
  · rw [List.map_eq_nil_iff.1 he]
    rfl
  · obtain ⟨hpos, hitems⟩ := Value.fits_arr.1 (hfits _ (mem_valuesSlot.2 ⟨hne, rfl⟩))
    obtain ⟨depth, rfl⟩ : ∃ k, depth = k + 1 := ⟨depth - 1, by omega⟩
    exact mapM_map encode (decode? depth) cleared fun p hp =>
      h p hp depth (hitems _ (List.mem_map_of_mem hp))

theorem decodeListing?_given (hn : (fields.map Prod.fst).Nodup) (hl : l.slots ⊆ fields)
    (hfits : ∀ f ∈ l.slots, ∀ v ∈ f.2, v.fits depth = true)
    (h : ∀ p ∈ l.orderedItems ++ l.items, ∀ depth, p.encode.fits depth = true →
      decode? depth p.encode = some p.cleared) :
    decodeListing? (depth + 1) (.obj (given fields)) = some (clearedListing l) := by
  have text (name s : String) (hm : (name, textSlot s) ∈ l.slots) :
      (given fields).text name = some s :=
    read_given hn (hl hm) (elim_textSlot s)
  have word (name : String) (n : UInt64) (hm : (name, wordSlot n) ∈ l.slots) :
      (given fields).read name 0 Value.word64? = some n :=
    read_given hn (hl hm) (elim_wordSlot n)
  have objects (name : String) (os : List Object) (hos : os ⊆ l.orderedItems ++ l.items)
      (hm : (name, valuesSlot (os.map encode)) ∈ l.slots) :
      (given fields).read name [] (decodeAll? depth) = some (os.map cleared) :=
    read_given hn (hl hm) (elim_objects (hfits _ hm) fun p hp => h p (hos hp))
  have actor : (given fields).read "actor" none (Value.nullable? (Actor.decode? depth)) =
      some l.actor := by
    have slot : ("actor", l.actor.map Actor.encode) ∈ l.slots := by simp [Listing.slots]
    have elim := elim_nullable Actor.encode (Actor.decode? depth) (·) (x := l.actor)
      fun a ha => ⟨by rw [a.encode_eq]; exact nofun,
        a.decode?_encode (hfits _ slot _ (Option.map_eq_some_iff.2 ⟨a, ha, rfl⟩))⟩
    rw [Option.map_id'] at elim
    exact read_given hn (hl slot) elim
  rw [decodeListing?, clearedListing_eq, bind_of_eq_some (members?_given hn Listing.fields), actor,
    text "summary" l.summary (by simp [Listing.slots]),
    text "type" l.type (by simp [Listing.slots]),
    word "totalItems" l.totalItems (by simp [Listing.slots]),
    word "totalImgs" l.totalImages (by simp [Listing.slots]),
    objects "orderedItems" l.orderedItems (List.subset_append_left _ _) (by simp [Listing.slots]),
    objects "items" l.items (List.subset_append_right _ _) (by simp [Listing.slots])]
  rfl

/-- An object is read back as it was written, without the wishes of posters. -/
theorem decode?_encode (o : Object) (h : o.IsRegular) (hfits : o.encode.fits depth = true) :
    decode? depth o.encode = some o.cleared := by
  induction o using induct generalizing depth with
  | step o ih =>
    obtain ⟨htype, hchildren⟩ := h
    have ih (p : Object) (hp : p ∈ o.children) (depth : Nat) (hfits : p.encode.fits depth = true) :
        decode? depth p.encode = some p.cleared := ih p hp (hchildren p hp) hfits
    rw [encode_eq] at hfits ⊢
    obtain ⟨hpos, hfits⟩ := fits_given.1 hfits
    obtain ⟨depth, rfl⟩ : ∃ k, depth = k + 1 := ⟨depth - 1, by omega⟩
    rw [Nat.add_sub_cancel] at hfits
    have hn := o.nodup_slots
    have text (name s : String) (hm : (name, textSlot s) ∈ o.slots) :
        (given o.slots).text name = some s :=
      read_given hn hm (elim_textSlot s)
    have flag (name : String) (b : Bool) (hm : (name, flagSlot b) ∈ o.slots) :
        (given o.slots).flag name = some b :=
      read_given hn hm (elim_flagSlot b)
    have instant (name : String) (t : Option Instant) (hm : (name, instantSlot t) ∈ o.slots) :
        (given o.slots).read name none Value.instant? = some t :=
      read_given hn hm (elim_instantSlot t)
    have texts (name : String) (ss : List String)
        (hm : (name, valuesSlot (ss.map .str)) ∈ o.slots) :
        (given o.slots).texts depth name = some ss :=
      read_given hn hm (elim_textsSlot ss (hfits _ hm))
    have objects (name : String) (os : List Object) (hos : os ⊆ o.children)
        (hm : (name, valuesSlot (os.map encode)) ∈ o.slots) :
        (given o.slots).read name [] (decodeAll? depth) = some (os.map cleared) :=
      read_given hn hm (elim_objects (hfits _ hm) fun p hp => ih p (hos hp))
    have type : (given o.slots).read "type" none Value.objectType? = some o.type := by
      refine read_given hn (x := o.type.map fun t => .str t.text) (by simp [slots]) ?_
      cases ht : o.type with
      | none => rfl
      | some t =>
        obtain ⟨filled, same⟩ := (htype t ht).ofText_text
        simp [Value.objectType?, filled, same]
    have size : (given o.slots).read "size" 0 Value.int64? = some o.size :=
      read_given hn (x := int64Slot o.size) (by simp [slots]) (elim_int64Slot o.size)
    have preview : (given o.slots).read "preview" none (Value.nullable? (decode? depth)) =
        some (o.preview.map cleared) := by
      have slot : ("preview", o.preview.map encode) ∈ o.slots := by simp [slots]
      refine read_given hn slot (elim_nullable encode (decode? depth) cleared fun p hp => ⟨?_, ?_⟩)
      · rw [encode_eq]
        exact nofun
      · exact ih p (mem_children.2 (.inr (.inl hp))) depth
          (hfits _ slot _ (Option.map_eq_some_iff.2 ⟨p, hp, rfl⟩))
    have replies : (given o.slots).read "replies" none (Value.nullable? (decodeListing? depth)) =
        some (o.replies.map clearedListing) := by
      have slot : ("replies", o.replies.map fun l => .obj (given l.slots)) ∈ o.slots := by
        simp [slots]
      refine read_given hn slot (elim_nullable (fun l : Listing Object => .obj (given l.slots))
        (decodeListing? depth) clearedListing fun l hl => ⟨nofun, ?_⟩)
      obtain ⟨hpos, hlisting⟩ :=
        fits_given.1 (hfits _ slot _ (Option.map_eq_some_iff.2 ⟨l, hl, rfl⟩))
      obtain ⟨depth, rfl⟩ : ∃ k, depth = k + 1 := ⟨depth - 1, by omega⟩
      exact decodeListing?_given l.nodup_slots (List.Subset.refl _) hlisting fun p hp =>
        ih p (mem_children.2 (.inr (.inr (.inr ⟨l, hl, hp⟩))))
    rw [decode?, cleared_eq, bind_of_eq_some (members?_given hn Object.fields), type, preview,
      replies, text "id" o.id (by simp [slots]), text "name" o.name (by simp [slots]),
      text "attributedTo" o.attributedTo (by simp [slots]),
      text "tripcode" o.tripcode (by simp [slots]), text "actor" o.actor (by simp [slots]),
      text "content" o.content (by simp [slots]),
      objects "inReplyTo" o.inReplyTo (fun p hp => mem_children.2 (.inl hp)) (by simp [slots]),
      instant "published" o.published (by simp [slots]),
      instant "updated" o.updated (by simp [slots]),
      objects "attachment" o.attachment (fun p hp => mem_children.2 (.inr (.inr (.inl hp))))
        (by simp [slots]),
      text "summary" o.summary (by simp [slots]), text "href" o.href (by simp [slots]),
      texts "to" o.addressees (by simp [slots]), texts "cc" o.cc (by simp [slots]),
      text "mediatype" o.mediaType (by simp [slots]), size,
      flag "sensitive" o.sensitive (by simp [slots]), flag "sticky" o.sticky (by simp [slots]),
      flag "locked" o.locked (by simp [slots])]
    rfl

end Object
end Imageboard
