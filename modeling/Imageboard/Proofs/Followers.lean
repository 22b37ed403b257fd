import Imageboard.Proofs.Board.Table
import Imageboard.Proofs.Operation
import Mathlib.Data.List.Induction

namespace Imageboard

namespace Board

variable {b b' : Board} {r : Relation} {actor other resident follower : String} {follows : Bool}

theorem mem_contactsOf : other ∈ b.contactsOf r actor ↔ ⟨actor, other⟩ ∈ (b.contacts r).rows := by
  unfold contactsOf
  simp only [List.mem_map, List.mem_filter, beq_iff_eq]
  constructor
  · rintro ⟨c, ⟨hc, rfl⟩, rfl⟩
    exact hc
  · intro h
    exact ⟨_, ⟨h, rfl⟩, rfl⟩

theorem contactsOf_sorted (b : Board) (r : Relation) (actor : String) :
    (b.contactsOf r actor).Pairwise (· < ·) := by
  apply List.pairwise_map.2
  refine (List.Pairwise.filter _ (b.contacts r).sorted).imp_of_mem ?_
  intro c d hc hd hlt
  -- the keys begin with the same actor, so they are ordered by what comes second
  have he : c.actor = d.actor := by
    rw [eq_of_beq (List.mem_filter.1 hc).2, eq_of_beq (List.mem_filter.1 hd).2]
  rcases List.cons_lt_cons_iff.1 hlt with hlt | ⟨-, hlt⟩
  · exact absurd (he ▸ hlt) (String.lt_irrefl _)
  · rcases List.cons_lt_cons_iff.1 hlt with hlt | ⟨-, hlt⟩
    · exact hlt
    · exact absurd hlt (List.lt_irrefl _)

theorem contactsOf_ext (h : ∀ other, other ∈ b.contactsOf r actor ↔ other ∈ b'.contactsOf r actor) :
    b.contactsOf r actor = b'.contactsOf r actor :=
  List.Pairwise.eq_of_mem_iff (b.contactsOf_sorted r actor) (b'.contactsOf_sorted r actor) h

theorem followers_ext
    (h : ∀ actor, b.contactsOf .follower actor = b'.contactsOf .follower actor) :
    b.followers = b'.followers :=
  Table.eq_of_mem_iff fun c => by
    have lists : c.other ∈ b.contactsOf .follower c.actor ↔
        c.other ∈ b'.contactsOf .follower c.actor := by rw [h]
    rwa [mem_contactsOf, mem_contactsOf] at lists

theorem setFollower_eq (b : Board) (resident follower : String) (follows : Bool) :
    (b.setFollower resident follower follows).1 =
      { b with followers := (b.setFollower resident follower follows).1.followers } := by
  cases follows <;> rfl

theorem contact_key_injective : Function.Injective (Keyed.key : Contact → List String) := by
  rintro ⟨a, o⟩ ⟨a', o'⟩ h
  obtain ⟨rfl, h⟩ := List.cons.inj h
  obtain ⟨rfl, -⟩ := List.cons.inj h
  rfl

theorem mem_setFollower :
    other ∈ (b.setFollower resident follower follows).1.contactsOf .follower actor ↔
      if actor = resident ∧ other = follower then follows = true
      else other ∈ b.contactsOf .follower actor := by
  rw [mem_contactsOf, mem_contactsOf]
  cases follows with
  | true =>
    have added : ⟨actor, other⟩ ∈ (b.followers.insertNew ⟨resident, follower⟩).1.rows ↔ _ :=
      Table.mem_insertNew_iff contact_key_injective
    rw [Contact.mk.injEq] at added
    refine added.trans ?_
    split
    next he => exact iff_of_true (.inr he) rfl
    next hne => exact or_iff_left hne
  | false =>
    have kept : ⟨actor, other⟩ ∈
        (b.followers.remove fun c => c.actor == resident && c.other == follower).1.rows ↔ _ :=
      Table.mem_filter
    refine kept.trans ?_
    split
    next he => simp [he]
    next hne =>
      refine and_iff_left ?_
      simpa [← not_and_or] using hne

theorem setFollower_changed : (b.setFollower resident follower follows).2 = true ↔
    ¬ (follower ∈ b.contactsOf .follower resident ↔ follows = true) := by
  rw [mem_contactsOf]
  cases follows with
  | true =>
    have added : (b.setFollower resident follower true).2 = true ↔ _ :=
      Table.insertNew_added_iff (t := b.followers) (a := ⟨resident, follower⟩) contact_key_injective
    rw [added, iff_true_right rfl]
    rfl
  | false =>
    have gone : (b.setFollower resident follower false).2 = true ↔ _ :=
      decide_eq_true_iff.trans List.countP_pos_iff
    rw [gone, iff_false_right Bool.false_ne_true, not_not]
    constructor
    · rintro ⟨c, hc, he⟩
      obtain ⟨rfl, rfl⟩ : c.actor = resident ∧ c.other = follower := by simpa using he
      exact hc
    · exact fun h => ⟨_, h, by simp⟩

end Board

namespace Activity

/-- What an activity says of its sender as a follower of a resident. A Follow counts if its object
is the resident, an Undo if it has an object of type Follow in it, whoever followed whom. -/
def word? (resident : String) (a : Activity) : Option Bool :=
  match a.verb? with
  | some .follow => if a.object.map ObjectRef.target = some resident then some true else none
  | some .undo =>
    if (a.object?.bind Object.type).map ObjectType.text = some "Follow" then some false else none
  | _ => none

end Activity

/-- A Follow or an Undo by a named sender as it arrives: with the world around it, the time, and the
record of what went out before. -/
structure Arrival where
  around : Surroundings
  now : Instant
  log : Log
  activity : Activity
  verb : activity.verb? = some .follow ∨ activity.verb? = some .undo
  named : Text.isBlankText activity.actorId = false

namespace Arrival

open Serving

variable {s : Site} {resident actor : String} {follows : Bool} {n n' n'' : Node} {x : Arrival}
  {xs ys : List Arrival}

def sender (x : Arrival) : String :=
  x.activity.actorId

theorem not_blank (x : Arrival) : ¬ Text.isBlankText x.sender = true :=
  Bool.eq_false_iff.1 x.named

def operation (resident : String) (x : Arrival) : Operation :=
  .receive x.around x.now x.log resident x.activity

def answer (s : Site) (resident : String) (n : Node) (x : Arrival) : Except Fault Outcome :=
  ((s.apply x.around x.now resident x.activity).run.run (n, x.log)).1

def sentBy (actor : String) (xs : List Arrival) : List Activity :=
  (xs.filter (·.sender == actor)).map (·.activity)

def lastWord? (resident actor : String) (xs : List Arrival) : Option Bool :=
  ((sentBy actor xs).filterMap (Activity.word? resident)).getLast?

theorem lastWord?_concat (resident actor : String) (xs : List Arrival) (x : Arrival) :
    lastWord? resident actor (xs ++ [x]) =
      (if x.sender = actor then x.activity.word? resident else none).or
        (lastWord? resident actor xs) := by
  unfold lastWord? sentBy
  rw [List.filter_append, List.map_append, List.filterMap_append, List.getLast?_append]
  by_cases h : x.sender = actor
  · cases hw : x.activity.word? resident <;> simp [h, hw]
  · simp [h]

theorem apply_eq (s : Site) (resident : String) (x : Arrival) :
    s.apply x.around x.now resident x.activity =
      match x.activity.word? resident with
      | some true => do return .followed (← Site.setFollower resident x.sender true)
      | some false => do return .unfollowed (← Site.setFollower resident x.sender false)
      | none => return .ignored := by
  unfold Site.apply Activity.word?
  rcases x.verb with hv | hv <;>
  · rw [hv]
    dsimp only
    split <;> rfl

theorem received_of_none (hw : x.activity.word? resident = none) :
    x.answer s resident n = .ok .ignored ∧ (x.operation resident).perform s n = n := by
  suffices h : Ends (s.apply x.around x.now resident x.activity) n fun answer n' =>
    answer = .ok .ignored ∧ n' = n from h x.log
  rw [apply_eq, hw]
  exact ends_pure.2 ⟨rfl, rfl⟩

theorem received_of_hosted (hw : x.activity.word? resident = some follows)
    (hosted : n.board.hosts resident = true) :
    let set := n.board.setFollower resident x.sender follows
    x.answer s resident n = .ok (if follows then .followed set.2 else .unfollowed set.2) ∧
      (x.operation resident).perform s n = { n with board := set.1 } := by
  intro set
  suffices h : Ends (s.apply x.around x.now resident x.activity) n fun answer n' =>
    answer = .ok (if follows then .followed set.2 else .unfollowed set.2) ∧
      n' = { n with board := set.1 } from h x.log
  rw [apply_eq, hw]
  cases follows <;>
  · refine .map (Site.ends_setFollower.2 ?_)
    rw [if_neg x.not_blank, if_pos hosted]
    exact ⟨rfl, rfl⟩

theorem received_of_not_hosted (s : Site) (x : Arrival)
    (elsewhere : n.board.hosts resident = false) :
    x.answer s resident n = (match x.activity.word? resident with
        | none => .ok .ignored
        | some _ => .error (.refused (.notHosted resident))) ∧
      (x.operation resident).perform s n = n := by
  cases hw : x.activity.word? resident with
  | none => exact received_of_none hw
  | some follows =>
    suffices h : Ends (s.apply x.around x.now resident x.activity) n fun answer n' =>
      answer = .error (.refused (.notHosted resident)) ∧ n' = n from h x.log
    rw [apply_eq, hw]
    cases follows <;>
    · refine .map (Site.ends_setFollower.2 ?_)
      rw [if_neg x.not_blank, if_neg (Bool.eq_false_iff.1 elsewhere)]
      exact ⟨rfl, rfl⟩

/-- What some activities make of a node: the followers of the resident are those before with each
sender added or taken out as it said last, and all else is as before. -/
structure Heeded (resident : String) (xs : List Arrival) (n n' : Node) : Prop where
  sorted : (n'.board.contactsOf .follower resident).Pairwise (· < ·)
  lastWord : ∀ actor, actor ∈ n'.board.contactsOf .follower resident ↔
    match lastWord? resident actor xs with
    | some follows => follows = true
    | none => actor ∈ n.board.contactsOf .follower resident
  others : ∀ other, other ≠ resident →
    n'.board.contactsOf .follower other = n.board.contactsOf .follower other
  following : ∀ actor, n'.board.contactsOf .following actor = n.board.contactsOf .following actor
  rest : n' = { n with board := { n.board with followers := n'.board.followers } }

theorem Heeded.nil (resident : String) (n : Node) : Heeded resident [] n n where
  sorted := n.board.contactsOf_sorted .follower resident
  lastWord _ := .rfl
  others _ _ := rfl
  following _ := rfl
  rest := rfl

theorem Heeded.hosts (h : Heeded resident xs n n') :
    n'.board.hosts resident = n.board.hosts resident := by
  rw [h.rest]
  rfl

theorem Heeded.concat_word (h : Heeded resident xs n n')
    (hw : x.activity.word? resident = some follows) :
    Heeded resident (xs ++ [x]) n
      { n' with board := (n'.board.setFollower resident x.sender follows).1 } where
  sorted := Board.contactsOf_sorted ..
  lastWord actor := by
    refine Board.mem_setFollower.trans ?_
    rw [lastWord?_concat, hw]
    by_cases he : x.sender = actor
    · subst he
      simp
    · rw [if_neg fun hand => he hand.2.symm, if_neg he, Option.none_or]
      exact h.lastWord actor
  others other hne := by
    rw [← h.others other hne]
    refine Board.contactsOf_ext fun actor => ?_
    refine Board.mem_setFollower.trans ?_
    rw [if_neg fun hand => hne hand.1]
  following actor := by
    rw [← h.following actor, Board.setFollower_eq]
    rfl
  rest := by
    rw [Board.setFollower_eq, h.rest]

theorem Heeded.concat (h : Heeded resident xs n n') (hosted : n.board.hosts resident = true) :
    Heeded resident (xs ++ [x]) n ((x.operation resident).perform s n') := by
  cases hw : x.activity.word? resident with
  | none =>
    rw [(received_of_none hw).2]
    refine { h with lastWord := fun actor => ?_ }
    rw [lastWord?_concat, hw, ite_self, Option.none_or]
    exact h.lastWord actor
  | some follows =>
    rw [(received_of_hosted hw (h.hosts.trans hosted)).2]
    exact h.concat_word hw

theorem heeded_run (s : Site) (xs : List Arrival) (hosted : n.board.hosts resident = true) :
    Heeded resident xs n (Operation.run s (xs.map (operation resident)) n) := by
  -- from the end, where the last word of a sender is
  induction xs using List.reverseRecOn with
  | nil => exact .nil resident n
  | append_singleton xs x ih =>
    rw [List.map_append, List.map_singleton, Operation.run_concat]
    exact ih.concat hosted

/-- The answer to an activity for an actor hosted here: it is passed over if it has no word on
following, and else tells whether its sender came or went. -/
def Answered (resident : String) (x : Arrival) (answer : Except Fault Outcome) (n n' : Node) :
    Prop :=
  match x.activity.word? resident with
  | none => answer = .ok .ignored ∧ n' = n
  | some follows => ∃ changed,
    answer = .ok (if follows then .followed changed else .unfollowed changed) ∧
      (changed = true ↔ ¬ (x.sender ∈ n.board.contactsOf .follower resident ↔
        x.sender ∈ n'.board.contactsOf .follower resident))

theorem answered_of_hosted (s : Site) (x : Arrival) (hosted : n.board.hosts resident = true) :
    x.Answered resident (x.answer s resident n) n ((x.operation resident).perform s n) := by
  unfold Answered
  cases hw : x.activity.word? resident with
  | none => exact received_of_none hw
  | some follows =>
    obtain ⟨answer, left⟩ := received_of_hosted (s := s) hw hosted
    refine ⟨_, answer, Board.setFollower_changed.trans ?_⟩
    have now : x.sender ∈ ((x.operation resident).perform s n).board.contactsOf .follower resident ↔
        follows = true := by
      rw [left]
      refine Board.mem_setFollower.trans ?_
      rw [if_pos ⟨rfl, rfl⟩]
    rw [now]

/-- What senders said in their own order decides alone what becomes of a node. -/
theorem Heeded.unique (hx : Heeded resident xs n n') (hy : Heeded resident ys n n'')
    (same : ∀ actor, sentBy actor ys = sentBy actor xs) : n'' = n' := by
  have lists (actor : String) :
      n''.board.contactsOf .follower actor = n'.board.contactsOf .follower actor := by
    by_cases he : actor = resident
    · subst he
      refine Board.contactsOf_ext fun other => ?_
      rw [hx.lastWord, hy.lastWord, lastWord?, lastWord?, same]
    · rw [hx.others actor he, hy.others actor he]
  rw [hx.rest, hy.rest, Board.followers_ext lists]

end Arrival

namespace Operation

open Arrival (sentBy Heeded)

/-- The followers of an actor hosted here are what each sender said last, in whatever order the
activities of different senders arrive. For an actor who is not hosted here, each word is refused
and nothing is changed. -/
theorem run_heeds_last_word (s : Site) (resident : String) (xs : List Arrival) (n : Node) :
    let after (xs : List Arrival) := run s (xs.map (Arrival.operation resident)) n
    (n.board.hosts resident = true →
      Heeded resident xs n (after xs) ∧
      (∀ front x back, xs = front ++ x :: back →
        x.Answered resident (x.answer s resident (after front)) (after front)
          (after (front ++ [x]))) ∧
      ∀ ys, (∀ actor, sentBy actor ys = sentBy actor xs) → after ys = after xs) ∧
    (n.board.hosts resident = false →
      after xs = n ∧
      ∀ front x back, xs = front ++ x :: back →
        x.answer s resident (after front) = match x.activity.word? resident with
          | none => .ok .ignored
          | some _ => .error (.refused (.notHosted resident))) := by
  intro after
  have step (xs : List Arrival) (x : Arrival) :
      after (xs ++ [x]) = (x.operation resident).perform s (after xs) := by
    simp only [after, List.map_append, List.map_singleton, run_concat]
  constructor
  · intro hosted
    have heeded (xs : List Arrival) : Heeded resident xs n (after xs) :=
      Arrival.heeded_run s xs hosted
    refine ⟨heeded xs, fun front x back _ => ?_, fun ys same => (heeded xs).unique (heeded ys) same⟩
    rw [step]
    exact Arrival.answered_of_hosted s x ((heeded front).hosts.trans hosted)
  · intro elsewhere
    have unchanged (xs : List Arrival) : after xs = n := by
      induction xs using List.reverseRecOn with
      | nil => rfl
      | append_singleton xs x ih =>
        rw [step, ih]
        exact (Arrival.received_of_not_hosted s x elsewhere).2
    refine ⟨unchanged xs, fun front x back _ => ?_⟩
    rw [unchanged]
    exact (Arrival.received_of_not_hosted s x elsewhere).1

theorem run_heeds_last_word_of_two_senders :
    let s : Site := { config := {}, boardFile := "", filesRoot := "" }
    let around : Surroundings :=
      { web := fun _ _ => .dropped, graph := .hosted, sender := fun _ _ _ => return {} }
    let undone : Object := { type := some (.ofText "Follow") }
    let follow : Arrival := ⟨around, .epoch, [],
      { type := "Follow", actor := some (.bare "v"), object := some (.bare "u") },
      .inl (by decide), by decide⟩
    let vague : Arrival := ⟨around, .epoch, [],
      { type := "Undo", actor := some (.bare "v"), object := some (.bare "u") },
      .inr (by decide), by decide⟩
    let undo : Arrival := ⟨around, .epoch, [],
      { type := "Undo", actor := some (.bare "w"), object := some (.object undone) },
      .inr (by decide), by decide⟩
    let xs := [follow, undo, follow, vague]
    let ys := [undo, follow, follow, vague]
    let n : Node := { board :=
      { residents := .ofList [{ actor := { id := "u" } }]
        followers := .ofList [⟨"u", "w"⟩, ⟨"t", "w"⟩] } }
    let after (resident : String) (xs : List Arrival) :=
      run s (xs.map (Arrival.operation resident)) n
    (n.board.hosts "u" = true ∧ (after "u" xs).board.contactsOf .follower "u" = ["v"]) ∧
      Heeded "u" xs n (after "u" xs) ∧ after "u" ys = after "u" xs ∧
      n.board.hosts "t" = false ∧ after "t" xs = n := by
  intro s around undone follow vague undo xs ys n after
  have hosted : n.board.hosts "u" = true := by decide +kernel
  have elsewhere : n.board.hosts "t" = false := by decide +kernel
  have followers : (after "u" xs).board.contactsOf .follower "u" = ["v"] := by decide +kernel
  obtain ⟨heeded, -, same⟩ := (run_heeds_last_word s "u" xs n).1 hosted
  refine ⟨⟨hosted, followers⟩, heeded, same ys fun actor => ?_, elsewhere,
    ((run_heeds_last_word s "t" xs n).2 elsewhere).1⟩
  by_cases he : actor = "w"
  · subst he
    rfl
  · have hne : (undo.sender == actor) = false := beq_false_of_ne (Ne.symm he)
    simp [sentBy, xs, ys, List.filter_cons, hne]

end Operation
end Imageboard
