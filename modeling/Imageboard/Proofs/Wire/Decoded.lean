import Imageboard.Proofs.Wire.Objects

namespace Imageboard

open Json

namespace Json

variable {α : Type} {depth : Nat} {name : String} {ms : Members} {v : Value}

theorem exists_of_read_nullable {read : Value → Option α} {x : Option α}
    (h : ms.read name none (Value.nullable? read) = some x) : ∀ a ∈ x, ∃ v, read v = some a := by
  rintro a rfl
  rcases read_eq_some h with he | ⟨v, -, hv⟩
  · cases he
  · unfold Value.nullable? at hv
    split at hv
    next => cases hv
    next =>
      obtain ⟨b, hb, he⟩ := Option.map_eq_some_iff.1 hv
      exact ⟨v, Option.some.inj he ▸ hb⟩

theorem pos_of_texts {ss : List String} (h : ms.texts depth name = some ss) (hne : ss ≠ []) :
    0 < depth := by
  obtain ⟨v, -, hv⟩ := (read_eq_some h).resolve_left hne
  split at hv
  next => cases hv
  next hpos => omega

theorem fits_texts (ss : List String) (h : 0 < depth) :
    Value.fits (.arr (ss.map .str)) depth = true := by
  rw [Value.fits_arr]
  exact ⟨h, List.forall_mem_map.2 fun s _ => (isFlat_str s).fits _⟩

end Json

variable {depth : Nat} {v : Value}

theorem PublicKey.fits_of_decode? {k : PublicKey} (h : decode? depth v = some k) :
    k.encode.fits depth = true := by
  unfold decode? at h
  split at h
  next => cases h
  next hpos =>
    rw [encode_eq, fits_given]
    exact ⟨Nat.pos_of_ne_zero hpos, k.forall_slots fun _ hv => hv.fits _⟩

theorem Actor.fits_of_decode? {a : Actor} (h : decode? depth v = some a) :
    a.encode.fits depth = true := by
  unfold decode? at h
  split at h
  next => cases h
  next hpos =>
    dsimp only [bind, pure] at h
    simp only [↓Option.bind_eq_some_iff, Option.some.injEq] at h
    obtain ⟨ms, -, _, -, _, -, _, -, _, -, _, -, _, -, _, -, _, -, key, hkey, _, -, _, -, rfl⟩ := h
    rw [encode_eq, fits_given]
    refine ⟨Nat.pos_of_ne_zero hpos, forall_slots (fun _ hv => hv.fits _) _ fun k hk => ?_⟩
    obtain ⟨w, hw⟩ := exists_of_read_nullable hkey k hk
    exact PublicKey.fits_of_decode? hw

namespace Object

variable {o : Object} {l : Listing Object} {os : List Object}

def AreRead (depth : Nat) (os : List Object) : Prop :=
  os ≠ [] → 0 < depth ∧ ∀ p ∈ os, ∃ v, decode? (depth - 1) v = some p

theorem mapM_eq_some {α β : Type} {f : α → Option β} {as : List α} {bs : List β}
    (h : as.mapM f = some bs) : ∀ b ∈ bs, ∃ a, f a = some b := by
  induction as generalizing bs with
  | nil =>
    cases h
    exact nofun
  | cons a as ih =>
    rw [List.mapM_cons] at h
    dsimp only [bind, pure] at h
    simp only [↓Option.bind_eq_some_iff, Option.some.injEq] at h
    obtain ⟨b, hb, cs, hcs, rfl⟩ := h
    intro c hc
    rcases List.mem_cons.1 hc with rfl | hc
    · exact ⟨a, hb⟩
    · exact ih hcs c hc

theorem areRead_of_read {ms : Members} {name : String}
    (h : ms.read name [] (decodeAll? depth) = some os) : AreRead depth os := by
  intro hne
  obtain ⟨v, -, hv⟩ := (read_eq_some h).resolve_left hne
  cases depth with
  | zero => cases hv
  | succ depth =>
    cases v with
    | arr vs => exact ⟨Nat.succ_pos depth, mapM_eq_some hv⟩
    | _ => cases hv

theorem read_of_decodeListing? (h : decodeListing? (depth + 1) v = some l) :
    (∀ a ∈ l.actor, ∃ w, Actor.decode? depth w = some a) ∧ AreRead depth l.orderedItems ∧
      AreRead depth l.items := by
  simp only [decodeListing?, bind, Option.bind_eq_some_iff, pure, Option.some.injEq] at h
  obtain ⟨ms, -, actor, hactor, _, -, _, -, _, -, _, -, ordered, hordered, items, hitems, rfl⟩ := h
  exact ⟨exists_of_read_nullable hactor, areRead_of_read hordered, areRead_of_read hitems⟩

structure IsRead (depth : Nat) (o : Object) : Prop where
  type : ∀ t ∈ o.type, t.IsPlain
  options : o.options = []
  inReplyTo : AreRead depth o.inReplyTo
  preview : ∀ p ∈ o.preview, ∃ v, decode? depth v = some p
  attachment : AreRead depth o.attachment
  replies : ∀ l ∈ o.replies, ∃ v, decodeListing? depth v = some l
  addressees : o.addressees ≠ [] → 0 < depth
  cc : o.cc ≠ [] → 0 < depth

theorem isPlain_ofText {s : String} (h : Text.isBlankText s = false) :
    (ObjectType.ofText s).IsPlain := by
  by_cases known : s ∈ ["Note", "Archive", "Tombstone", "Preview", "Attachment"]
  · simp only [List.mem_cons, List.not_mem_nil, or_false] at known
    rcases known with rfl | rfl | rfl | rfl | rfl <;> trivial
  · have other : ObjectType.ofText s = .other s := by
      simp only [List.mem_cons, List.not_mem_nil, or_false, not_or] at known
      simp only [ObjectType.ofText, known, if_false]
    rw [other]
    exact ⟨h, known⟩

theorem isPlain_of_objectType? {x : Option ObjectType} (h : Value.objectType? v = some x) :
    ∀ t ∈ x, t.IsPlain := by
  rintro t rfl
  cases v with
  | str s =>
    simp only [Value.objectType?] at h
    split at h
    next => cases h
    next filled =>
      cases h
      exact isPlain_ofText (Bool.eq_false_of_not_eq_true filled)
  | _ => cases h

theorem isRead_of_decode? (h : decode? (depth + 1) v = some o) : IsRead depth o := by
  dsimp only [decode?, bind, pure] at h
  simp only [↓Option.bind_eq_some_iff, Option.some.injEq] at h
  obtain ⟨ms, -, type, htype, _, -, _, -, _, -, _, -, _, -, _, -, inReplyTo, hinReplyTo, preview,
    hpreview, _, -, _, -, attachment, hattachment, replies, hreplies, _, -, _, -, addressees,
    haddressees, cc, hcc, _, -, _, -, _, -, _, -, _, -, rfl⟩ := h
  constructor
  case type =>
    rintro t rfl
    obtain ⟨w, -, hw⟩ := (read_eq_some htype).resolve_left nofun
    exact isPlain_of_objectType? hw t rfl
  case options => rfl
  case inReplyTo => exact areRead_of_read hinReplyTo
  case preview => exact exists_of_read_nullable hpreview
  case attachment => exact areRead_of_read hattachment
  case replies => exact exists_of_read_nullable hreplies
  case addressees => exact pos_of_texts haddressees
  case cc => exact pos_of_texts hcc

/-- What was read, and is written again as deep as was allowed. -/
structure IsSettled (depth : Nat) (o : Object) : Prop where
  regular : o.IsRegular
  cleared : o.cleared = o
  fits : o.encode.fits depth = true

end Object

structure Listing.IsSettled (depth : Nat) (l : Listing Object) : Prop where
  regular : ∀ p ∈ l.orderedItems ++ l.items, p.IsRegular
  cleared : Object.clearedListing l = l
  fits : Value.fits (.obj (given l.slots)) depth = true

namespace Object

variable {o : Object} {l : Listing Object} {os : List Object}

theorem fits_objects (hread : AreRead depth os) (h : ∀ p ∈ os, IsSettled (depth - 1) p)
    (hne : os ≠ []) : Value.fits (.arr (os.map encode)) depth = true := by
  rw [Value.fits_arr]
  exact ⟨(hread hne).1, List.forall_mem_map.2 fun p hp => (h p hp).fits⟩

theorem map_cleared (h : ∀ p ∈ os, p.cleared = p) : os.map cleared = os := by
  rw [List.map_congr_left h, List.map_id']

theorem isSettled_of_isRead (h : IsRead depth o)
    (objects : ∀ os, AreRead depth os → ∀ p ∈ os, IsSettled (depth - 1) p)
    (preview : ∀ p ∈ o.preview, IsSettled depth p)
    (replies : ∀ l ∈ o.replies, l.IsSettled depth) : IsSettled (depth + 1) o := by
  have inReplyTo := objects _ h.inReplyTo
  have attachment := objects _ h.attachment
  constructor
  case regular =>
    refine .intro h.type fun p hp => ?_
    rcases mem_children.1 hp with hp | hp | hp | ⟨l, hl, hp⟩
    · exact (inReplyTo p hp).regular
    · exact (preview p hp).regular
    · exact (attachment p hp).regular
    · exact (replies l hl).regular p hp
  case cleared =>
    have same {x : Option Object} (hx : ∀ p ∈ x, p.cleared = p) : x.map cleared = x := by
      cases x with
      | none => rfl
      | some p => exact congrArg some (hx p rfl)
    have sameListing {x : Option (Listing Object)} (hx : ∀ l ∈ x, clearedListing l = l) :
        x.map clearedListing = x := by
      cases x with
      | none => rfl
      | some l => exact congrArg some (hx l rfl)
    rw [cleared_eq, map_cleared fun p hp => (inReplyTo p hp).cleared,
      same fun p hp => (preview p hp).cleared,
      map_cleared fun p hp => (attachment p hp).cleared,
      sameListing fun l hl => (replies l hl).cleared, ← h.options]
    cases o
    rfl
  case fits =>
    rw [encode_eq, fits_given]
    exact ⟨Nat.succ_pos depth, o.forall_slots (fun _ hv => hv.fits _)
      (fits_objects h.inReplyTo inReplyTo) (fun p hp => (preview p hp).fits)
      (fits_objects h.attachment attachment) (fun l hl => (replies l hl).fits)
      (fun hne => fits_texts _ (h.addressees hne)) fun hne => fits_texts _ (h.cc hne)⟩

theorem isSettled_listing (h : decodeListing? depth v = some l)
    (objects : ∀ d < depth, ∀ os, AreRead d os → ∀ p ∈ os, IsSettled (d - 1) p) :
    l.IsSettled depth := by
  cases depth with
  | zero => cases h
  | succ depth =>
    obtain ⟨actor, hordered, hitems⟩ := read_of_decodeListing? h
    have ordered := objects depth (Nat.lt_succ_self depth) _ hordered
    have items := objects depth (Nat.lt_succ_self depth) _ hitems
    constructor
    case regular =>
      intro p hp
      rcases List.mem_append.1 hp with hp | hp
      · exact (ordered p hp).regular
      · exact (items p hp).regular
    case cleared =>
      rw [clearedListing_eq, map_cleared fun p hp => (ordered p hp).cleared,
        map_cleared fun p hp => (items p hp).cleared]
    case fits =>
      rw [fits_given]
      refine ⟨Nat.succ_pos depth, l.forall_slots (fun _ hv => hv.fits _) (fun a ha => ?_)
        (fits_objects hordered ordered) (fits_objects hitems items)⟩
      obtain ⟨w, hw⟩ := actor a ha
      exact Actor.fits_of_decode? hw

/-- An object that was read is written and read again as itself. -/
theorem isSettled_of_decode? (h : decode? depth v = some o) : IsSettled depth o := by
  induction depth using Nat.strongRecOn generalizing v o with
  | ind depth ih =>
    cases depth with
    | zero => cases h
    | succ depth =>
      have objects (d : Nat) (hd : d ≤ depth) (os : List Object) (hos : AreRead d os) :
          ∀ p ∈ os, IsSettled (d - 1) p := by
        intro p hp
        obtain ⟨hpos, hread⟩ := hos (List.ne_nil_of_mem hp)
        obtain ⟨w, hw⟩ := hread p hp
        exact ih (d - 1) (by omega) hw
      have read := isRead_of_decode? h
      refine isSettled_of_isRead read (objects depth (Nat.le_refl depth)) (fun p hp => ?_)
        fun l hl => ?_
      · obtain ⟨w, hw⟩ := read.preview p hp
        exact ih depth (Nat.lt_succ_self depth) hw
      · obtain ⟨w, hw⟩ := read.replies l hl
        exact isSettled_listing hw fun d hd => objects d (Nat.le_of_lt hd)

theorem isSettled_of_decodeListing? (h : decodeListing? depth v = some l) : l.IsSettled depth := by
  refine isSettled_listing h fun d _ os hos p hp => ?_
  obtain ⟨-, hread⟩ := hos (List.ne_nil_of_mem hp)
  obtain ⟨w, hw⟩ := hread p hp
  exact isSettled_of_decode? hw

end Object
end Imageboard
