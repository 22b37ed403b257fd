import Imageboard.Proofs.Wire.Decoded

namespace Imageboard

open Json

variable {depth : Nat} {v w : Value}

namespace Json.Value

/-- A value as readers leave it: whole numbers are within bounds, and the members of each object
stand once and in the order of their names. -/
structure IsStored (v : Value) : Prop where
  kept : v.allNumbers Number.isKept = true
  sorted : v.sorted = v

structure IsPlain (v : Value) : Prop where
  present : v ≠ .null
  whole : v.allNumbers Number.isWhole = true

theorem elim_any? {x : Option Value} (stored : ∀ v ∈ x, v.IsStored) (plain : ∀ v ∈ x, v.IsPlain)
    (hfits : ∀ v ∈ x, v.fits depth = true) : x.elim (some none) (any? depth) = some x := by
  cases x with
  | none => rfl
  | some v =>
    change any? depth v = some (some v)
    unfold any?
    split
    next => exact absurd rfl (plain _ rfl).present
    next => rw [if_pos (hfits v rfl), (stored v rfl).sorted]

theorem isStored_of_any? {x : Option Value} (h : any? depth w = some x)
    (kept : w.allNumbers Number.isKept = true) : ∀ v ∈ x, v.IsStored ∧ v.fits depth = true := by
  rintro v rfl
  unfold any? at h
  split at h
  next => cases h
  next =>
    split at h
    next hfits =>
      cases h
      exact ⟨⟨allNumbers_sorted w kept, sorted_sorted w⟩, fits_sorted w hfits⟩
    next => cases h

theorem allNumbers_of_members? {p : Number → Bool} {names : List String} {ms : Members}
    (h : v.members? names = some ms) (hv : v.allNumbers p = true) :
    ∀ m ∈ ms, m.2.allNumbers p = true := by
  intro m hm
  unfold members? at h
  split at h
  next =>
    split at h
    next =>
      cases h
      exact allNumbers_obj.1 hv m hm
    next => cases h
  next =>
    split at h
    next =>
      cases h
      exact allNumbers_arr.1 hv m.2 (List.of_mem_zip hm).2
    next => cases h
  next => cases h

theorem isStored_of_read {names : List String} {ms : Members} {name : String} {x : Option Value}
    (hms : w.members? names = some ms) (h : ms.read name none (any? depth) = some x)
    (kept : w.allNumbers Number.isKept = true) : ∀ v ∈ x, v.IsStored ∧ v.fits depth = true := by
  rintro v rfl
  obtain ⟨u, hmem, hu⟩ := (read_eq_some h).resolve_left nofun
  exact isStored_of_any? hu (allNumbers_of_members? hms kept _ hmem) v rfl

end Json.Value

/-- Documents of one kind are given back by what is written of them, as far as it is sent. `Stored`
is what all of them have that a program can hold, `Regular` what sets those apart that have to be
given back. -/
structure RoundTrips {α : Type} (encode : α → Value) (decode? : Nat → Value → Option α)
    (sent : α → α) (Stored Regular : α → Prop) : Prop where
  value (depth : Nat) (a : α) (stored : Stored a) (regular : Regular a)
    (hfits : (encode a).fits depth = true) : decode? depth (encode a) = some (sent a)
  text (a : α) (stored : Stored a) (regular : Regular a)
    (hfits : (encode a).fits maxDepth = true) :
    (parse? (encode a).render).bind (decode? maxDepth) = some (sent a)
  again (s : String) (a : α) (read : (parse? s).bind (decode? maxDepth) = some a)
    (regular : Regular a) : (parse? (encode a).render).bind (decode? maxDepth) = some a

section

variable {α : Type} {encode : α → Value} {decode? : Nat → Value → Option α} {sent : α → α}
  {Stored Regular : α → Prop}

theorem RoundTrips.of
    (value : ∀ depth a, Stored a → Regular a → (encode a).fits depth = true →
      decode? depth (encode a) = some (sent a))
    (written : ∀ depth a, Stored a → Regular a → (encode a).fits depth = true →
      (encode a).isExact = true)
    (settled : ∀ w a, w.allNumbers Number.isKept = true → decode? maxDepth w = some a →
      Stored a ∧ sent a = a ∧ (encode a).fits maxDepth = true) :
    RoundTrips encode decode? sent Stored Regular := by
  have text (a : α) (stored : Stored a) (regular : Regular a)
      (hfits : (encode a).fits maxDepth = true) :
      (parse? (encode a).render).bind (decode? maxDepth) = some (sent a) := by
    rw [parse?_render (written _ a stored regular hfits), Option.bind_some]
    exact value _ a stored regular hfits
  refine ⟨value, text, fun s a read regular => ?_⟩
  obtain ⟨w, hw, read⟩ := Option.bind_eq_some_iff.1 read
  obtain ⟨stored, same, hfits⟩ := settled w a (allNumbers_of_parse? hw) read
  rw [text a stored regular hfits, same]

end

def Listing.IsRegular (l : Listing Object) : Prop :=
  ∀ p ∈ l.orderedItems ++ l.items, p.IsRegular

theorem Object.decodeListing?_encode (l : Listing Object) (h : l.IsRegular)
    (hfits : Value.fits (.obj (encodeListing l)) depth = true) :
    decodeListing? depth (.obj (encodeListing l)) = some (clearedListing l) := by
  rw [encodeListing_eq] at hfits ⊢
  obtain ⟨hpos, hlisting⟩ := fits_given.1 hfits
  obtain ⟨depth, rfl⟩ : ∃ k, depth = k + 1 := ⟨depth - 1, by omega⟩
  exact decodeListing?_given l.nodup_slots (List.Subset.refl _) hlisting
    fun p hp _ hfits => p.decode?_encode (h p hp) hfits

namespace Collection

variable {c : Collection}

structure IsRegular (c : Collection) : Prop where
  context : ∀ x ∈ c.context, x.IsPlain
  listing : c.listing.IsRegular

def cleared (c : Collection) : Collection :=
  { c with listing := Object.clearedListing c.listing }

def slots (c : Collection) : List (String × Option Value) :=
  ("@context", c.context) :: c.listing.slots

theorem encode_eq (c : Collection) : c.encode = .obj (given c.slots) := by
  rw [encode, ofValue?_eq, Object.encodeListing_eq]
  exact congrArg Value.obj (given_cons ..).symm

theorem nodup_slots (c : Collection) : (c.slots.map Prod.fst).Nodup := by
  change ("@context" :: Listing.fields).Nodup
  decide

theorem filter_given (c : Collection) :
    (given c.slots).filter (fun m => m.1 != "@context") = given c.listing.slots := by
  have fresh : "@context" ∉ c.listing.slots.map Prod.fst := (List.nodup_cons.1 c.nodup_slots).1
  have kept :
      (given c.listing.slots).filter (fun m => m.1 != "@context") = given c.listing.slots := by
    refine List.filter_eq_self.2 fun m hm => bne_iff_ne.2 fun he => fresh ?_
    rw [← he]
    exact List.mem_map_of_mem (f := Prod.fst) (mem_given.1 hm)
  cases hc : c.context with
  | none =>
    have same : given c.slots = given c.listing.slots := by rw [slots, hc]; rfl
    rw [same, kept]
  | some x =>
    have split : given c.slots = ("@context", x) :: given c.listing.slots := by rw [slots, hc]; rfl
    rw [split, List.filter_cons_of_neg (by simp), kept]

theorem isExact_encode (stored : ∀ x ∈ c.context, x.IsStored) (h : c.IsRegular)
    (hfits : c.encode.fits depth = true) : c.encode.isExact = true := by
  rw [encode_eq] at hfits ⊢
  refine isExact_given.2 (List.forall_mem_cons.2 ⟨fun x hx => ?_, ?_⟩)
  · exact Value.isExact_of_fits ((fits_given.1 hfits).2 _ List.mem_cons_self x hx)
      (stored x hx).kept (h.context x hx).whole
  · exact Object.isExact_slots c.listing fun p _ => p.isExact_encode

theorem decode?_encode (stored : ∀ x ∈ c.context, x.IsStored) (h : c.IsRegular)
    (hfits : c.encode.fits depth = true) : decode? depth c.encode = some c.cleared := by
  rw [encode_eq] at hfits ⊢
  obtain ⟨hpos, hslots⟩ := fits_given.1 hfits
  obtain ⟨depth, rfl⟩ : ∃ k, depth = k + 1 := ⟨depth - 1, by omega⟩
  obtain ⟨hcontext, hlisting⟩ := List.forall_mem_cons.1 hslots
  have context : (given c.slots).read "@context" none (Value.any? depth) = some c.context :=
    read_given c.nodup_slots List.mem_cons_self (Value.elim_any? stored h.context hcontext)
  have members :
      Value.fitsMembers ((given c.slots).filter fun m => m.1 != "@context") depth = true := by
    rw [filter_given, Value.fitsMembers_iff]
    exact forall_mem_given.2 hlisting
  have listing : Object.decodeListing? (depth + 1) (.obj (given c.slots)) =
      some (Object.clearedListing c.listing) :=
    Object.decodeListing?_given c.nodup_slots (List.subset_cons_self _ _) hlisting
      fun p hp _ hfits => p.decode?_encode (h.listing p hp) hfits
  unfold decode?
  simp only [bind, Nat.add_sub_cancel, members?_given c.nodup_slots, Option.bind_some, context,
    members, listing]
  rfl

theorem settled_of_decode? (kept : w.allNumbers Number.isKept = true)
    (h : decode? depth w = some c) : (∀ x ∈ c.context, x.IsStored) ∧ c.cleared = c ∧
      c.encode.fits depth = true := by
  unfold decode? at h
  split at h
  next members =>
    split at h
    next => cases h
    next hpos =>
      simp only [bind, Option.bind_eq_some_iff] at h
      obtain ⟨ms, hms, context, hcontext, h⟩ := h
      split at h
      next =>
        obtain ⟨l, hl, h⟩ := Option.bind_eq_some_iff.1 h
        cases h
        have stored := Value.isStored_of_read hms hcontext kept
        have settled := Object.isSettled_of_decodeListing? hl
        refine ⟨fun x hx => (stored x hx).1, ?_, ?_⟩
        · rw [cleared, settled.cleared]
        · rw [encode_eq, fits_given]
          exact ⟨Nat.pos_of_ne_zero hpos, List.forall_mem_cons.2 ⟨fun x hx => (stored x hx).2,
            (fits_given.1 settled.fits).2⟩⟩
      next => cases h
  next => cases h

end Collection

theorem ActorRef.encode_ne_null (r : ActorRef) : r.encode ≠ .null := by
  cases r with
  | bare id => exact nofun
  | actor a =>
    rw [encode, Actor.encode_eq]
    exact nofun

theorem ActorRef.isExact_encode (r : ActorRef) : r.encode.isExact = true := by
  cases r with
  | bare id => rfl
  | actor a => exact a.isExact_encode

theorem ActorRef.decode?_encode (r : ActorRef) (hfits : r.encode.fits depth = true) :
    decode? depth r.encode = some r := by
  cases r with
  | bare id => rfl
  | actor a =>
    have read := a.decode?_encode hfits
    rw [encode, Actor.encode_eq] at *
    rw [decode?, if_pos hfits, read, Option.map_some]
    exact nofun

theorem ActorRef.fits_of_decode? {r : ActorRef} (h : decode? depth v = some r) :
    r.encode.fits depth = true := by
  unfold decode? at h
  split at h
  next => cases h; rfl
  next =>
    split at h
    next =>
      obtain ⟨a, ha, rfl⟩ := Option.map_eq_some_iff.1 h
      exact Actor.fits_of_decode? ha
    next => cases h

namespace ObjectRef

variable {r : ObjectRef}

def cleared : ObjectRef → ObjectRef
  | bare id => bare id
  | object o => object o.cleared

theorem encode_ne_null (r : ObjectRef) : r.encode ≠ .null := by
  cases r with
  | bare id => exact nofun
  | object o =>
    rw [encode, Object.encode_eq]
    exact nofun

theorem isExact_encode (r : ObjectRef) : r.encode.isExact = true := by
  cases r with
  | bare id => rfl
  | object o => exact o.isExact_encode

theorem decode?_encode (regular : ∀ o ∈ r.object?, o.IsRegular)
    (hfits : r.encode.fits depth = true) : decode? depth r.encode = some r.cleared := by
  cases r with
  | bare id => rfl
  | object o =>
    have read := o.decode?_encode (regular o rfl) hfits
    rw [encode, Object.encode_eq] at *
    rw [decode?, if_pos hfits, read, Option.map_some]
    · rfl
    · exact nofun

theorem settled_of_decode? (h : decode? depth v = some r) :
    r.cleared = r ∧ r.encode.fits depth = true := by
  unfold decode? at h
  split at h
  next =>
    cases h
    exact ⟨rfl, rfl⟩
  next =>
    split at h
    next =>
      obtain ⟨o, ho, rfl⟩ := Option.map_eq_some_iff.1 h
      have settled := Object.isSettled_of_decode? ho
      exact ⟨congrArg object settled.cleared, settled.fits⟩
    next => cases h

end ObjectRef

namespace Activity

variable {a : Activity}

structure IsRegular (a : Activity) : Prop where
  context : ∀ x ∈ a.context, x.IsPlain
  object : ∀ o ∈ a.object?, o.IsRegular

def cleared (a : Activity) : Activity :=
  { a with object := a.object.map ObjectRef.cleared }

def slots (a : Activity) : List (String × Option Value) :=
  [("@context", a.context), ("type", some (.str a.type)), ("id", textSlot a.id),
   ("actor", a.actor.map ActorRef.encode), ("name", textSlot a.name),
   ("summary", textSlot a.summary), ("to", valuesSlot (a.addressees.map .str)),
   ("cc", valuesSlot (a.cc.map .str)), ("published", instantSlot a.published),
   ("object", a.object.map ObjectRef.encode)]

theorem encode_eq (a : Activity) : a.encode = .obj (given a.slots) := by
  simp only [encode, slots, given_cons, ofText_eq, ofTexts_eq, ofInstant_eq, ofValue?_eq,
    List.append_assoc]
  rfl

theorem nodup_slots (a : Activity) : (a.slots.map Prod.fst).Nodup := by
  change Activity.fields.Nodup
  decide

theorem forall_slots {P : Value → Prop} (flat : ∀ v, IsFlat v → P v) (a : Activity)
    (context : ∀ x ∈ a.context, P x) (actor : ∀ r ∈ a.actor, P r.encode)
    (addressees : a.addressees ≠ [] → P (.arr (a.addressees.map .str)))
    (cc : a.cc ≠ [] → P (.arr (a.cc.map .str))) (object : ∀ r ∈ a.object, P r.encode) :
    ∀ f ∈ a.slots, ∀ v ∈ f.2, P v := by
  have text (s : String) (v : Value) (hv : v ∈ textSlot s) : P v := flat v (isFlat_textSlot v hv)
  have instant (t : Option Instant) (v : Value) (hv : v ∈ instantSlot t) : P v :=
    flat v (isFlat_instantSlot v hv)
  simp only [slots, List.forall_mem_cons]
  refine ⟨context, ?type, text _, ?actor, text _, text _, forall_valuesSlot addressees,
    forall_valuesSlot cc, instant _, ?object, nofun⟩
  case type =>
    rintro v ⟨⟩
    exact flat _ (isFlat_str _)
  case actor =>
    intro v hv
    obtain ⟨r, hr, rfl⟩ := Option.map_eq_some_iff.1 hv
    exact actor r hr
  case object =>
    intro v hv
    obtain ⟨r, hr, rfl⟩ := Option.map_eq_some_iff.1 hv
    exact object r hr

theorem isExact_encode (stored : ∀ x ∈ a.context, x.IsStored) (h : a.IsRegular)
    (hfits : a.encode.fits depth = true) : a.encode.isExact = true := by
  rw [encode_eq] at hfits ⊢
  have hslots := (fits_given.1 hfits).2
  refine isExact_given.2 (a.forall_slots (fun _ => IsFlat.exact) (fun x hx => ?_)
    (fun r _ => r.isExact_encode) (fun _ => isExact_texts _) (fun _ => isExact_texts _)
    fun r _ => r.isExact_encode)
  exact Value.isExact_of_fits (hslots _ List.mem_cons_self x hx) (stored x hx).kept
    (h.context x hx).whole

theorem decode?_encode (stored : ∀ x ∈ a.context, x.IsStored) (h : a.IsRegular)
    (hfits : a.encode.fits depth = true) : decode? depth a.encode = some a.cleared := by
  rw [encode_eq] at hfits ⊢
  obtain ⟨hpos, hslots⟩ := fits_given.1 hfits
  have hpos : depth ≠ 0 := by omega
  have hn := a.nodup_slots
  have text (name s : String) (hm : (name, textSlot s) ∈ a.slots) :
      (given a.slots).text name = some s :=
    read_given hn hm (elim_textSlot s)
  have texts (name : String) (ss : List String) (hm : (name, valuesSlot (ss.map .str)) ∈ a.slots) :
      (given a.slots).texts (depth - 1) name = some ss :=
    read_given hn hm (elim_textsSlot ss (hslots _ hm))
  have context : (given a.slots).read "@context" none (Value.any? (depth - 1)) = some a.context :=
    read_given hn List.mem_cons_self
      (Value.elim_any? stored h.context (hslots _ List.mem_cons_self))
  have type : (given a.slots).required "type" Value.text? = some a.type := by
    rw [Members.required, lookup_given hn (x := some (.str a.type)) (by simp [slots])]
    rfl
  have actor : (given a.slots).read "actor" none
      (Value.nullable? (ActorRef.decode? (depth - 1))) = some a.actor := by
    have slot : ("actor", a.actor.map ActorRef.encode) ∈ a.slots := by simp [slots]
    have elim := elim_nullable ActorRef.encode (ActorRef.decode? (depth - 1)) (·) (x := a.actor)
      fun r hr => ⟨r.encode_ne_null,
        r.decode?_encode (hslots _ slot _ (Option.map_eq_some_iff.2 ⟨r, hr, rfl⟩))⟩
    rw [Option.map_id'] at elim
    exact read_given hn slot elim
  have published : (given a.slots).read "published" none Value.instant? = some a.published :=
    read_given hn (x := instantSlot a.published) (by simp [slots]) (elim_instantSlot a.published)
  have object : (given a.slots).read "object" none
      (Value.nullable? (ObjectRef.decode? (depth - 1))) =
      some (a.object.map ObjectRef.cleared) := by
    have slot : ("object", a.object.map ObjectRef.encode) ∈ a.slots := by simp [slots]
    refine read_given hn slot (elim_nullable ObjectRef.encode (ObjectRef.decode? (depth - 1))
      ObjectRef.cleared fun r hr => ⟨r.encode_ne_null, ?_⟩)
    refine ObjectRef.decode?_encode (fun o ho => h.object o ?_)
      (hslots _ slot _ (Option.map_eq_some_iff.2 ⟨r, hr, rfl⟩))
    exact Option.bind_eq_some_iff.2 ⟨r, hr, ho⟩
  rw [decode?, if_neg hpos]
  dsimp only
  rw [bind_of_eq_some (members?_given hn fields), context, type, actor, published, object,
    text "id" a.id (by simp [slots]), text "name" a.name (by simp [slots]),
    text "summary" a.summary (by simp [slots]), texts "to" a.addressees (by simp [slots]),
    texts "cc" a.cc (by simp [slots])]
  rfl

theorem settled_of_decode? (kept : w.allNumbers Number.isKept = true)
    (h : decode? depth w = some a) : (∀ x ∈ a.context, x.IsStored) ∧ a.cleared = a ∧
      a.encode.fits depth = true := by
  unfold decode? at h
  split at h
  next => cases h
  next hpos =>
    dsimp only [bind, pure] at h
    simp only [↓Option.bind_eq_some_iff, Option.some.injEq] at h
    obtain ⟨ms, hms, context, hcontext, _, -, _, -, actor, hactor, _, -, _, -, addressees,
      haddressees, cc, hcc, _, -, object, hobject, rfl⟩ := h
    have stored := Value.isStored_of_read hms hcontext kept
    have referred := exists_of_read_nullable hobject
    refine ⟨fun x hx => (stored x hx).1, ?_, ?_⟩
    · have same : object.map ObjectRef.cleared = object := by
        cases object with
        | none => rfl
        | some r =>
          obtain ⟨v, hv⟩ := referred r rfl
          exact congrArg some (ObjectRef.settled_of_decode? hv).1
      rw [cleared, same]
    · rw [encode_eq, fits_given]
      refine ⟨Nat.pos_of_ne_zero hpos, forall_slots (fun _ hv => hv.fits _) _
        (fun x hx => (stored x hx).2) (fun r hr => ?actor)
        (fun hne => fits_texts _ (pos_of_texts haddressees hne))
        (fun hne => fits_texts _ (pos_of_texts hcc hne)) fun r hr => ?object⟩
      case actor =>
        obtain ⟨v, hv⟩ := exists_of_read_nullable hactor r hr
        exact ActorRef.fits_of_decode? hv
      case object =>
        obtain ⟨v, hv⟩ := referred r hr
        exact (ObjectRef.settled_of_decode? hv).2

end Activity

theorem Object.roundTrips :
    RoundTrips Object.encode Object.decode? Object.cleared (fun _ => True) Object.IsRegular := by
  apply RoundTrips.of
  case value => exact fun _ o _ regular hfits => o.decode?_encode regular hfits
  case written => exact fun _ o _ _ _ => o.isExact_encode
  case settled =>
    intro w o _ read
    have settled := isSettled_of_decode? read
    exact ⟨trivial, settled.cleared, settled.fits⟩

theorem Listing.roundTrips :
    RoundTrips (fun l => .obj (Object.encodeListing l)) Object.decodeListing?
      Object.clearedListing (fun _ => True) Listing.IsRegular := by
  apply RoundTrips.of
  case value => exact fun _ l _ regular hfits => Object.decodeListing?_encode l regular hfits
  case written =>
    intro _ l _ _ _
    rw [Object.encodeListing_eq, isExact_given]
    exact Object.isExact_slots l fun p _ => p.isExact_encode
  case settled =>
    intro w l _ read
    have settled := Object.isSettled_of_decodeListing? read
    rw [Object.encodeListing_eq]
    exact ⟨trivial, settled.cleared, settled.fits⟩

theorem Collection.roundTrips :
    RoundTrips Collection.encode Collection.decode? Collection.cleared
      (fun c => ∀ x ∈ c.context, x.IsStored) Collection.IsRegular :=
  .of (fun _ _ stored regular hfits => decode?_encode stored regular hfits)
    (fun _ _ stored regular hfits => isExact_encode stored regular hfits)
    fun _ _ kept read => settled_of_decode? kept read

theorem Actor.roundTrips :
    RoundTrips Actor.encode Actor.decode? (fun a => a) (fun _ => True) (fun _ => True) :=
  .of (fun _ a _ _ hfits => a.decode?_encode hfits) (fun _ a _ _ _ => a.isExact_encode)
    fun _ _ _ read => ⟨trivial, rfl, fits_of_decode? read⟩

theorem Activity.roundTrips :
    RoundTrips Activity.encode Activity.decode? Activity.cleared
      (fun a => ∀ x ∈ a.context, x.IsStored) Activity.IsRegular :=
  .of (fun _ _ stored regular hfits => decode?_encode stored regular hfits)
    (fun _ _ stored regular hfits => isExact_encode stored regular hfits)
    fun _ _ kept read => settled_of_decode? kept read

/-- Objects, listings, listings with a context, actors and activities are given back by what is
written of them, without the wishes of posters. -/
theorem documents_roundTrip :
    RoundTrips Object.encode Object.decode? Object.cleared (fun _ => True) Object.IsRegular ∧
    RoundTrips (fun l => .obj (Object.encodeListing l)) Object.decodeListing?
      Object.clearedListing (fun _ => True) Listing.IsRegular ∧
    RoundTrips Collection.encode Collection.decode? Collection.cleared
      (fun c => ∀ x ∈ c.context, x.IsStored) Collection.IsRegular ∧
    RoundTrips Actor.encode Actor.decode? (fun a => a) (fun _ => True) (fun _ => True) ∧
    RoundTrips Activity.encode Activity.decode? Activity.cleared
      (fun a => ∀ x ∈ a.context, x.IsStored) Activity.IsRegular :=
  ⟨Object.roundTrips, Listing.roundTrips, Collection.roundTrips, Actor.roundTrips,
    Activity.roundTrips⟩

theorem documents_roundTrip_of_reply :
    let reply : Object :=
      { type := some .note, id := "https://a.example/b/2", options := ["sage"],
        inReplyTo := [.reference "https://a.example/b/1"] }
    let create : Activity :=
      { context := some (.str vocabulary), type := "Create", object := some (.object reply) }
    Activity.parse? create.encode.render =
      some { create with object := some (.object { reply with options := [] }) } := by
  intro reply create
  have reference (id : String) : (Object.reference id).IsRegular := .intro nofun nofun
  have regular : reply.IsRegular := by
    refine .intro (fun t ht => ?_) fun p hp => ?_
    · cases ht
      trivial
    · obtain rfl := List.mem_singleton.1 hp
      exact reference _
  exact documents_roundTrip.2.2.2.2.text create (fun x hx => by cases hx; exact ⟨rfl, rfl⟩)
    ⟨fun x hx => by cases hx; exact ⟨nofun, rfl⟩, fun o ho => by cases ho; exact regular⟩ rfl

end Imageboard
