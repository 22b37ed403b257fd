import Imageboard.Proofs.Board.Selection
import Imageboard.Proofs.Board.Tiers

namespace Imageboard

variable {e : Entry} {t : Tier} {now : Instant} {link : Option String}

theorem bind_nonEmpty?_eq_self_iff : link.bind nonEmpty? = link ↔ link ≠ some "" := by
  cases link with
  | none => simp
  | some s =>
    by_cases hs : s = ""
    · simp [nonEmpty?, hs]
    · simp [nonEmpty?, hs]

theorem nonEmpty?_getD : nonEmpty? (link.getD "") = link.bind nonEmpty? := by
  cases link <;> rfl

def Payload.kind? : Payload → Option ObjectType
  | .media type .. => some type
  | .post .. | .tombstone .. => none

def Payload.removedAt (time : Option Instant) : Payload → Payload
  | .tombstone _ href mediaType => .tombstone time href mediaType
  | payload => payload

namespace Entry

/-- The date that is sent as the last change: of a tombstone the removal, if its date is known. -/
def lastChange (e : Entry) : Option Instant :=
  match e.payload with
  | .tombstone deleted .. => deleted.orElse fun _ => e.updated
  | .post .. | .media .. => e.updated

def settled (e : Entry) : Entry :=
  { e with updated := e.lastChange, payload := e.payload.removedAt e.lastChange }

/-- An entry with a last change, without empty links, and of a type that its payload fits. -/
structure IsSendable (e : Entry) : Prop where
  dated : e.lastChange ≠ none
  attachment : e.attachment ≠ some ""
  preview : e.preview ≠ some ""
  media : ∀ type ∈ e.payload.kind?, type ∉ [.note, .archive, .tombstone]

theorem settled_of_not_tombstone (h : e.isTombstone = false) : e.settled = e := by
  obtain ⟨tier, id, actor, published, updated, attachment, preview, sensitive, payload⟩ := e
  cases payload with
  | post | media => rfl
  | tombstone => cases h

theorem lastChange_ne_none (h : e.updated ≠ none) : e.lastChange ≠ none := by
  unfold lastChange
  cases e.payload with
  | post | media => exact h
  | tombstone deleted =>
    cases deleted with
    | none => exact h
    | some time => exact Option.some_ne_none time

theorem toWire_settled (e : Entry) : e.settled.toWire = e.toWire := by
  obtain ⟨tier, id, actor, published, updated, attachment, preview, sensitive, payload⟩ := e
  cases payload with
  | post | media => rfl
  | tombstone deleted =>
    cases deleted with
    | none => cases updated <;> rfl
    | some => rfl

theorem updated_ofWire_toWire :
    (ofWire e.toWire t now).updated = some (e.lastChange.getD e.published) := by
  obtain ⟨tier, id, actor, published, updated, attachment, preview, sensitive, payload⟩ := e
  cases payload with
  | post | media => rfl
  | tombstone deleted => cases deleted <;> rfl

theorem attachment_ofWire_toWire :
    (ofWire e.toWire t now).attachment = e.attachment.bind nonEmpty? := by
  obtain ⟨tier, id, actor, published, updated, attachment, preview, sensitive, payload⟩ := e
  cases payload <;> cases attachment <;> rfl

theorem preview_ofWire_toWire : (ofWire e.toWire t now).preview = e.preview.bind nonEmpty? := by
  obtain ⟨tier, id, actor, published, updated, attachment, preview, sensitive, payload⟩ := e
  cases payload <;> cases preview <;> rfl

/-- Media that call themselves a post or a tombstone are read as one. -/
theorem payload_ofWire_toWire_iff : (ofWire e.toWire t now).payload = e.settled.payload ↔
    ∀ type ∈ e.payload.kind?, type ∉ [.note, .archive, .tombstone] := by
  obtain ⟨tier, id, actor, published, updated, attachment, preview, sensitive, payload⟩ := e
  cases payload with
  | post archived => cases archived <;> exact iff_of_true rfl nofun
  | tombstone deleted => cases deleted <;> exact iff_of_true rfl nofun
  | media kind =>
    cases kind with
    | note | archive | tombstone => exact iff_of_false nofun fun h => h _ rfl (by decide)
    | preview | attachment | other =>
      refine iff_of_true rfl ?_
      rintro type ⟨⟩
      simp

theorem rest_ofWire_toWire (e : Entry) (t : Tier) (now : Instant) :
    let read := ofWire e.toWire t now
    read = { e with
      tier := t
      updated := read.updated
      attachment := read.attachment
      preview := read.preview
      payload := read.payload } := by
  obtain ⟨tier, id, actor, published, updated, attachment, preview, sensitive, payload⟩ := e
  cases payload <;> rfl

/-- An entry is given back by its wire object exactly where that can hold all of it. -/
theorem ofWire_toWire_iff : ofWire e.toWire e.tier now = e.settled ↔ e.IsSendable := by
  constructor
  · intro h
    have updated : (ofWire e.toWire e.tier now).updated = e.lastChange := congrArg Entry.updated h
    have attachment := congrArg Entry.attachment h
    have preview := congrArg Entry.preview h
    refine ⟨fun hnone => ?_, ?_, ?_, payload_ofWire_toWire_iff.1 (congrArg Entry.payload h)⟩
    · rw [hnone, updated_ofWire_toWire] at updated
      cases updated
    · exact bind_nonEmpty?_eq_self_iff.1 (attachment_ofWire_toWire.symm.trans attachment)
    · exact bind_nonEmpty?_eq_self_iff.1 (preview_ofWire_toWire.symm.trans preview)
  · intro h
    obtain ⟨time, htime⟩ := Option.ne_none_iff_exists'.1 h.dated
    have updated : (ofWire e.toWire e.tier now).updated = e.lastChange := by
      rw [updated_ofWire_toWire, htime, Option.getD_some]
    rw [rest_ofWire_toWire, updated, attachment_ofWire_toWire, preview_ofWire_toWire,
      bind_nonEmpty?_eq_self_iff.2 h.attachment, bind_nonEmpty?_eq_self_iff.2 h.preview,
      payload_ofWire_toWire_iff.2 h.media]
    rfl

/-- An entry that is sent as a wire object and read again is the same, but that the dates of the
removal and of the last change of a tombstone become one. What is sent of it then is the same. -/
theorem sent_and_read (e : Entry) (now : Instant) (updated : e.updated ≠ none)
    (attachment : e.attachment ≠ some "") (preview : e.preview ≠ some "")
    (media : ∀ type ∈ e.payload.kind?, type ∉ [.note, .archive, .tombstone]) :
    (e.isTombstone = false → ofWire e.toWire e.tier now = e) ∧
    (∀ deleted href mediaType, e.payload = .tombstone deleted href mediaType →
      let removed := deleted.orElse fun _ => e.updated
      ofWire e.toWire e.tier now =
        { e with updated := removed, payload := .tombstone removed href mediaType }) ∧
    (ofWire e.toWire e.tier now).toWire = e.toWire := by
  have read : ofWire e.toWire e.tier now = e.settled :=
    ofWire_toWire_iff.2 ⟨lastChange_ne_none updated, attachment, preview, media⟩
  rw [read]
  refine ⟨settled_of_not_tombstone, ?_, e.toWire_settled⟩
  intro deleted href mediaType hpayload
  rw [settled, lastChange, hpayload]
  rfl

theorem sent_and_read_of_tombstone :
    let minute : Instant := ⟨60, 0, by decide, by decide, by decide, by decide⟩
    let e : Entry :=
      { tier := .replica, id := "x", actor := "a", published := .epoch, updated := some minute,
        attachment := some "y", preview := none, sensitive := true,
        payload := .tombstone (some .epoch) "z" "image/png" }
    e.updated ≠ none ∧ e.attachment ≠ some "" ∧ e.preview ≠ some "" ∧
      (∀ type ∈ e.payload.kind?, type ∉ [.note, .archive, .tombstone]) ∧
      ofWire e.toWire .replica minute = { e with updated := some .epoch } ∧
      (ofWire e.toWire .replica minute).toWire = e.toWire := by
  intro minute e
  have updated : e.updated ≠ none := nofun
  have attachment : e.attachment ≠ some "" := by decide
  have media : ∀ type ∈ e.payload.kind?, type ∉ [.note, .archive, .tombstone] := nofun
  obtain ⟨-, read, again⟩ := sent_and_read e minute updated attachment nofun media
  exact ⟨updated, attachment, nofun, media, read _ _ _ rfl, again⟩

end Entry

namespace Instant

/-- A moment at a whole millisecond and outside leap seconds. -/
structure IsWhole (time : Instant) : Prop where
  nano_lt : time.nano < 1000000000
  nano_mod : time.nano % 1000000 = 0

theorem of?_self (time : Instant) : of? time.second time.nano = some time :=
  dif_pos ⟨time.nano_lt, time.leap, time.first_le, time.le_last⟩

theorem ofMillis?_millis (h : time.IsWhole) : ofMillis? time.millis = some time := by
  obtain ⟨hlt, hmod⟩ := h
  have seconds : time.millis / 1000 = time.second := by
    unfold millis
    omega
  have nanos : (time.millis % 1000).toNat * 1000000 = time.nano := by
    unfold millis
    omega
  rw [ofMillis?, seconds, nanos, of?_self]

theorem bind_ofMillis? {time : Option Instant} (h : ∀ x ∈ time, x.IsWhole) :
    (time.map millis).bind ofMillis? = time := by
  cases time with
  | none => rfl
  | some x => rw [Option.map_some, Option.bind_some, ofMillis?_millis (h x rfl)]

end Instant

/-- A payload as it is shown after it was stored: the type of media is read off its name. -/
def Payload.shown : Payload → Payload
  | .media type name href mediaType size author =>
    .media (.ofText type.text) name href mediaType size author
  | payload => payload

/-- Media are not named like a post or a tombstone, and the removal of a tombstone has a date. -/
def Payload.IsStorable : Payload → Prop
  | .post .. => True
  | .media type .. => type.text ∉ ["Note", "Archive", "Tombstone"]
  | .tombstone deleted .. => ∃ time, deleted = some time ∧ time.IsWhole

namespace Entry

structure IsStorable (e : Entry) : Prop where
  published : e.published.IsWhole
  updated : ∀ time ∈ e.updated, time.IsWhole
  attachment : e.attachment ≠ some ""
  preview : e.preview ≠ some ""
  payload : e.payload.IsStorable

def shownIn (e : Entry) (t : Tier) : Entry :=
  { e with tier := t, payload := e.payload.shown }

end Entry

namespace Row

theorem payload_entry_of_media {r : Row} (h : r.type ∉ ["Note", "Archive", "Tombstone"]) :
    (r.entry t).payload =
      .media (.ofText r.type) r.name r.href r.mediaType r.size r.attributedTo := by
  have named {type : ObjectType} (he : ObjectType.ofText r.type = type) : r.type = type.text := by
    rw [← he, ObjectType.text_ofText]
  unfold entry
  dsimp only
  split
  next he => exact absurd (named he) fun hn => h (by simp [hn, ObjectType.text])
  next he => exact absurd (named he) fun hn => h (by simp [hn, ObjectType.text])
  next he => exact absurd (named he) fun hn => h (by simp [hn, ObjectType.text])
  next => rfl

theorem payload_entry_ofEntry (h : e.payload.IsStorable) :
    ((ofEntry e now).entry t).payload = e.payload.shown := by
  obtain ⟨tier, id, actor, published, updated, attachment, preview, sensitive, payload⟩ := e
  cases payload with
  | post archived => cases archived <;> rfl
  | media type => exact payload_entry_of_media h
  | tombstone deleted href mediaType =>
    obtain ⟨time, rfl, whole⟩ := h
    have removal : (some time.millis).bind Instant.ofMillis? = some time := by
      rw [Option.bind_some, Instant.ofMillis?_millis whole]
    exact congrArg (Payload.tombstone · href mediaType) removal

theorem rest_entry_ofEntry (e : Entry) (now : Instant) (t : Tier) :
    (ofEntry e now).entry t = { e with
      tier := t
      published := (Instant.ofMillis? e.published.millis).getD .epoch
      updated := (e.updated.map Instant.millis).bind Instant.ofMillis?
      attachment := nonEmpty? (e.attachment.getD "")
      preview := nonEmpty? (e.preview.getD "")
      payload := ((ofEntry e now).entry t).payload } := by
  obtain ⟨tier, id, actor, published, updated, attachment, preview, sensitive, payload⟩ := e
  cases payload <;> rfl

theorem entry_ofEntry (h : e.IsStorable) (now : Instant) (t : Tier) :
    (ofEntry e now).entry t = e.shownIn t := by
  rw [rest_entry_ofEntry, payload_entry_ofEntry h.payload, Instant.ofMillis?_millis h.published,
    Instant.bind_ofMillis? h.updated, nonEmpty?_getD, nonEmpty?_getD,
    bind_nonEmpty?_eq_self_iff.2 h.attachment, bind_nonEmpty?_eq_self_iff.2 h.preview]
  rfl

end Row

namespace Entry

theorem text_type_shownIn : (e.shownIn t).type.text = e.type.text := by
  obtain ⟨tier, id, actor, published, updated, attachment, preview, sensitive, payload⟩ := e
  cases payload with
  | post | tombstone => rfl
  | media type => exact ObjectType.text_ofText type.text

theorem shownIn_eq_iff : e.shownIn t = { e with tier := t } ↔
    ∀ type ∈ e.payload.kind?, .ofText type.text = type := by
  obtain ⟨tier, id, actor, published, updated, attachment, preview, sensitive, payload⟩ := e
  cases payload with
  | post | tombstone => exact iff_of_true rfl nofun
  | media type => simp [shownIn, Payload.shown, Payload.kind?]

end Entry

namespace Board

variable {b b' : Board}

/-- A tier has taken an entry, which it now shows, and all else is shown as it was. -/
structure Takes (b : Board) (t : Tier) (e : Entry) (b' : Board) : Prop where
  own : b'.getIn t e.id = some (e.shownIn t)
  others : ∀ u id, u ≠ t ∨ id ≠ e.id → b'.getIn u id = b.getIn u id
  rest : b' = { b with authored := b'.authored, replicas := b'.replicas }

/-- A board that gains the row of an entry shows the entry. -/
theorem takes_of_mem_iff (h : e.IsStorable)
    (rows : ∀ u r, r ∈ (b'.tier u).rows ↔ r ∈ (b.tier u).rows ∨ (u = t ∧ r = Row.ofEntry e now))
    (rest : b' = { b with authored := b'.authored, replicas := b'.replicas }) : b.Takes t e b' := by
  refine ⟨?_, ?_, rest⟩
  · have new : Row.ofEntry e now ∈ (b'.tier t).rows := (rows t _).2 (.inr ⟨rfl, rfl⟩)
    have found := getIn_of_mem new
    rwa [Row.id_ofEntry, Row.entry_ofEntry h] at found
  · intro u id other
    apply getIn_congr
    intro r hid
    refine (rows u r).trans (or_iff_left ?_)
    rintro ⟨hu, hr⟩
    rw [hr, Row.id_ofEntry] at hid
    exact other.elim (fun hne => hne hu) fun hne => hne hid.symm

/-- What is stored in a tier that has nothing of its id is shown there as it was, but that a type is
read off its name, and nothing else is shown otherwise than before. Where there is a row of its id,
nothing is stored. -/
theorem stored_and_read (b : Board) (e : Entry) (now : Instant) (h : e.IsStorable) :
    (b.holds .authored e.id = false →
      ∃ b', b.insertAuthored e now = .ok b' ∧ b.Takes .authored e b') ∧
    (b.holds .replica e.id = false →
      ∃ b', b.insertReplica e now = (b', true) ∧ b.Takes .replica e b') ∧
    (b.holds .authored e.id = true → b.insertAuthored e now =
      .error ((Fault.broke .storage).doing (.insertingLocal e.id))) ∧
    (b.holds .replica e.id = true → b.insertReplica e now = (b, false)) ∧
    ∀ t, (e.shownIn t).type.text = e.type.text ∧
      (e.shownIn t = { e with tier := t } ↔
        ∀ type ∈ e.payload.kind?, .ofText type.text = type) := by
  refine ⟨fun free => ?_, fun free => ?_, fun taken => ?_, fun taken => ?_,
    fun t => ⟨Entry.text_type_shownIn, Entry.shownIn_eq_iff⟩⟩
  · have inserted : b.insertAuthored e now =
        .ok { b with authored := b.authored.put (Row.ofEntry e now) } :=
      insertAuthored_eq_ok_iff.2 ⟨holds_eq_false_iff.1 free, rfl⟩
    exact ⟨_, inserted, takes_of_mem_iff h (fun _ _ => mem_insertAuthored inserted) rfl⟩
  · have rows (u : Tier) (r : Row) : r ∈ ((b.insertReplica e now).1.tier u).rows ↔
        r ∈ (b.tier u).rows ∨ (u = .replica ∧ r = Row.ofEntry e now) := by
      refine mem_insertReplica.trans (or_congr_right (and_congr_right fun _ => ?_))
      exact and_iff_right (holds_eq_false_iff.1 free)
    refine ⟨(b.insertReplica e now).1, ?_, takes_of_mem_iff h rows rfl⟩
    rw [insertReplica_eq, free]
    rfl
  · obtain ⟨r, hr, hid⟩ := holds_iff.1 taken
    exact insertAuthored_eq_error hr hid
  · rw [insertReplica_eq, taken]
    rfl

theorem stored_and_read_of_media :
    let minute : Instant := ⟨60, 5000000, by decide, by decide, by decide, by decide⟩
    let e : Entry :=
      { tier := .replica, id := "x", actor := "a", published := minute, updated := some minute,
        attachment := none, preview := some "y", sensitive := true,
        payload := .media (.other "Image") "n" "z" "image/png" 1 "w" }
    let b := (({} : Board).insertReplica e minute).1
    e.IsStorable ∧ b.insertReplica e minute = (b, false) ∧
      ∃ b', b.insertAuthored e minute = .ok b' ∧
        b'.getIn .authored "x" = some { e with tier := .authored } ∧
        b'.getIn .replica "x" = b.getIn .replica "x" := by
  intro minute e b
  have whole : minute.IsWhole := ⟨by decide, by decide⟩
  have storable : e.IsStorable := by
    refine ⟨whole, ?_, nofun, by decide, ?_⟩
    · rintro time ⟨⟩
      exact whole
    · show (_ : String) ∉ _
      decide
  obtain ⟨written, -, -, again, shown⟩ := b.stored_and_read e minute storable
  obtain ⟨b', written, takes⟩ := written rfl
  refine ⟨storable, again rfl, b', written, ?_, takes.others .replica "x" (.inl nofun)⟩
  rw [← (shown .authored).2.2 fun type htype => ?_]
  · exact takes.own
  · cases htype
    rfl

end Board
end Imageboard
