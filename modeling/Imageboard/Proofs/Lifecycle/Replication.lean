import Imageboard.Lifecycle.Replicate
import Imageboard.Proofs.Board.Linking

namespace Imageboard

/-- An object in a tree of replies, and the id of the one that it is nested in. -/
structure Visit where
  object : Object
  holder : Option String := none

namespace Visit

def nested (v : Visit) : List Visit :=
  v.object.nested.map fun r => { object := r, holder := some v.object.id }

/-- What an object answers: the first that it names itself, or else the one that it is nested in. It
is empty for the root of a thread. -/
def parent (v : Visit) : String :=
  if v.object.inReplyTo.isEmpty then (v.holder.map Text.trim).getD ""
  else v.object.replyParent?.getD ""

def edge (v : Visit) : Edge :=
  ⟨v.object.id, v.parent⟩

def answered (v : Visit) : List Object :=
  if v.object.inReplyTo.isEmpty then (v.holder.map Object.reference).toList else v.object.inReplyTo

def linked (v : Visit) : Object :=
  { v.object with inReplyTo := v.answered }

def published (v : Visit) (now : Instant) : Instant :=
  v.object.published.getD now

def renews (v : Visit) : Bool :=
  v.parent != "" && !(v.object.hasOption "sage" || v.object.hasOption "nokosage")

def renew (now : Instant) (r : Row) (v : Visit) : Row :=
  if v.renews && r.id == v.parent then { r with updated := some (v.published now).millis } else r

/-- Goes through a level. An object with a blank id, with one met before, or with blocked content is
passed over. Tells which are left, and the ids met by then. -/
def sift (blocks : String → Bool) : List Visit → List String → List Visit × List String
  | [], met => ([], met)
  | v :: level, met =>
    if Text.isBlankText v.object.id ∨ v.object.id ∈ met then sift blocks level met
    else if blocks v.object.content then sift blocks level (v.object.id :: met)
    else
      let rest := sift blocks level (v.object.id :: met)
      (v :: rest.1, rest.2)

def weight (level : List Visit) : Nat :=
  Object.allWeights (level.map (·.object))

theorem weight_append (level level' : List Visit) :
    weight (level ++ level') = weight level + weight level' := by
  simp only [weight, List.map_append, Object.allWeights_append]

theorem weight_cons (v : Visit) (level : List Visit) :
    weight (v :: level) = 1 + weight v.nested + weight level := by
  simp only [weight, nested, List.map_cons, Object.allWeights, Object.weight_eq, List.map_map]
  congr
  exact (List.map_id _).symm

theorem weight_nested_sift (blocks : String → Bool) (level : List Visit) (met : List String) :
    weight ((sift blocks level met).1.flatMap nested) + level.length ≤ weight level := by
  induction level generalizing met with
  | nil => simp [sift, weight]
  | cons v level ih =>
    have skipped := ih met
    have rest := ih (v.object.id :: met)
    rw [sift, weight_cons, List.length_cons]
    split
    · omega
    · split
      · omega
      · rw [List.flatMap_cons, weight_append]
        omega

/-- The objects of a level and of all levels below it, level by level. What is nested in an object
that is passed over is not among them. -/
def levels (blocks : String → Bool) (level : List Visit) (met : List String) : List Visit :=
  match level with
  | [] => []
  | v :: level =>
    let next := sift blocks (v :: level) met
    next.1 ++ levels blocks (next.1.flatMap nested) next.2
termination_by weight level
decreasing_by
  exact Nat.lt_of_lt_of_le (Nat.lt_add_of_pos_right (Nat.succ_pos _)) (weight_nested_sift ..)

def all (blocks : String → Bool) (o : Object) : List Visit :=
  levels blocks [{ object := o }] []

/-- A blocked reply hides what is nested in it, and so does one without an id; an id counts once. -/
example :
    let reply (id : String) (os : List Object) : Object :=
      { id, content := id, replies := some { orderedItems := os } }
    let tree := reply "a"
      [reply "b" [reply "d" [], reply "x" []], reply "x" [reply "e" []], reply " " [reply "f" []],
        reply "c" [reply "b" [reply "h" []], reply "g" []]]
    (all (· == "x") tree).map (·.object.id) = ["a", "b", "c", "d", "g"] := by
  cbv

/-- An object that is not passed over where it comes up first: it has an id, and its content is not
blocked. -/
structure Passes (blocks : String → Bool) (v : Visit) : Prop where
  named : Text.isBlankText v.object.id = false
  allowed : blocks v.object.content = false

theorem mem_sift {blocks : String → Bool} {level : List Visit} {met : List String} {v : Visit}
    (h : v ∈ (sift blocks level met).1) : v ∈ level ∧ v.Passes blocks := by
  fun_induction sift blocks level met with
  | case1 => cases h
  | case2 u level met _ ih | case3 u level met _ _ ih =>
    exact (ih h).imp_left (List.mem_cons_of_mem u)
  | case4 u level met hid hblocked rest ih =>
    rcases List.mem_cons.1 h with rfl | h
    · exact ⟨List.mem_cons_self, Bool.eq_false_iff.2 fun hb => hid (.inl hb),
        Bool.eq_false_iff.2 hblocked⟩
    · exact (ih h).imp_left (List.mem_cons_of_mem u)

theorem mem_levels {blocks : String → Bool} {level : List Visit} {met : List String} {v : Visit}
    (h : v ∈ levels blocks level met) :
    v.Passes blocks ∧ (v ∈ level ∨ ∃ u : Visit, u.Passes blocks ∧ v ∈ u.nested) := by
  fun_induction levels blocks level met with
  | case1 => cases h
  | case2 met u level next ih =>
    rcases List.mem_append.1 h with h | h
    · exact (mem_sift h).symm.imp_right .inl
    · obtain ⟨passes, hv | below⟩ := ih h
      · obtain ⟨w, hw, hv⟩ := List.mem_flatMap.1 hv
        exact ⟨passes, .inr ⟨w, (mem_sift hw).2, hv⟩⟩
      · exact ⟨passes, .inr below⟩

theorem all_of_blocked {blocks : String → Bool} {o : Object} (h : blocks o.content = true) :
    all blocks o = [] := by
  have passed : (sift blocks [{ object := o }] []).1 = [] := by
    by_cases blank : Text.isBlankText o.id = true <;> simp [sift, blank, h]
  rw [all, levels]
  simp only [passed, List.flatMap_nil, List.nil_append]
  rw [levels]

theorem mem_all {blocks : String → Bool} {o : Object} {v : Visit} (h : v ∈ all blocks o) :
    v.Passes blocks ∧ (v = { object := o } ∨ ∃ u : Visit, u.Passes blocks ∧ v ∈ u.nested) :=
  (mem_levels h).imp_right fun h => h.imp_left List.mem_singleton.1

theorem linked_of_answered {v : Visit} (h : v.answered = v.object.inReplyTo) :
    v.linked = v.object := by
  rw [linked, h]
  cases v.object
  rfl

theorem linked_root (o : Object) : linked { object := o } = o := by
  refine linked_of_answered ?_
  unfold answered
  split
  next h => exact (List.isEmpty_iff.1 h).symm
  next => rfl

theorem map_linked_nested (v : Visit) : v.nested.map linked = v.linked.nestedReplies := by
  unfold nested Object.nestedReplies
  rw [List.map_map]
  refine List.map_congr_left fun r _ => ?_
  dsimp only [Function.comp_apply]
  split
  next h => simp only [linked, answered, h, if_true, Option.map_some, Option.toList_some]
  next h => exact linked_of_answered (if_neg h)

theorem replyParent?_linked (v : Visit) : v.linked.replyParent?.getD "" = v.parent := by
  unfold parent linked answered Object.replyParent?
  cases v.object.inReplyTo with
  | cons p ps => rfl
  | nil =>
    cases v.holder with
    | none => rfl
    | some id =>
      -- a blank id of the holder reads as no parent, as the empty text does
      change (if Text.trim id = "" then none else some (Text.trim id)).getD "" = Text.trim id
      split
      next h => exact h.symm
      next => rfl

end Visit

theorem Object.replyParent?_ne {o : Object} {parent : String} (h : o.replyParent? = some parent) :
    parent ≠ "" := by
  unfold replyParent? at h
  split at h
  · cases h
  · dsimp only at h
    split at h
    · cases h
    next hne => exact Option.some.inj h ▸ hne

namespace Board

variable {b b' b'' : Board} {now : Instant} {v : Visit} {vs vs' added added' : List Visit}
  {t : Tier} {r : Row} {e : Edge}

def withMedia (b : Board) (o : Object) (now : Instant) : Board :=
  (mediaEntries o now).foldl (fun b e => (b.insertReplica e now).1) b

def Mirrors (b : Board) (id : String) : Prop :=
  ∃ r ∈ b.replicas.rows, r.id = id

/-- Objects take their turns, one after the other: the media of each is written, and then it is
itself added and linked, if there is no replica of it by then. `added` are those that were. -/
inductive Turns (now : Instant) : Board → List Visit → List Visit → Board → Prop
  | done (b : Board) : Turns now b [] [] b
  | add {b b' : Board} {v : Visit} {vs added : List Visit}
    (new : ¬ (b.withMedia v.object now).Mirrors v.object.id)
    (rest : Turns now ((((b.withMedia v.object now).insertReplica (.ofWire v.object .replica now)
      now).1.link v.linked (v.published now)).1) vs added b') :
        Turns now b (v :: vs) (v :: added) b'
  | pass {b b' : Board} {v : Visit} {vs added : List Visit}
    (old : (b.withMedia v.object now).Mirrors v.object.id)
    (rest : Turns now (b.withMedia v.object now) vs added b') : Turns now b (v :: vs) added b'

theorem Turns.append (h : Turns now b vs added b') (h' : Turns now b' vs' added' b'') :
    Turns now b (vs ++ vs') (added ++ added') b'' := by
  induction h with
  | done b => exact h'
  | add new _ ih => exact .add new (ih h')
  | pass old _ ih => exact .pass old (ih h')

theorem Turns.added_subset (h : Turns now b vs added b') : ∀ v ∈ added, v ∈ vs := by
  induction h with
  | done b => exact nofun
  | add _ _ ih =>
    exact List.forall_mem_cons.2
      ⟨List.mem_cons_self, fun v hv => List.mem_cons_of_mem _ (ih v hv)⟩
  | pass _ _ ih => exact fun v hv => List.mem_cons_of_mem _ (ih v hv)

theorem contains_replica (entry : Entry) (now : Instant) :
    b.replicas.contains (Keyed.key (Row.ofEntry entry now)) = true ↔ b.Mirrors entry.id := by
  rw [Table.contains_iff]
  simp only [Keyed.key, Row.id_ofEntry, List.cons.injEq, and_true, Mirrors]

theorem insertReplica_new (entry : Entry) (now : Instant) (h : ¬ b.Mirrors entry.id) :
    (b.insertReplica entry now).2 = true := by
  simp only [insertReplica, Table.insertNew, if_neg (mt (contains_replica entry now).1 h)]

theorem insertReplica_old (entry : Entry) (now : Instant) (h : b.Mirrors entry.id) :
    b.insertReplica entry now = (b, false) := by
  simp only [insertReplica, Table.insertNew, if_pos ((contains_replica entry now).2 h)]

theorem edges_withMedia (o : Object) : (b.withMedia o now).edges = b.edges :=
  List.foldlRecOn (motive := fun c : Board => c.edges = b.edges) _ _ rfl fun _ h _ _ => h

theorem mem_withMedia (o : Object) (h : r ∈ (b.tier t).rows) :
    r ∈ ((b.withMedia o now).tier t).rows :=
  List.foldlRecOn (motive := fun c : Board => r ∈ (c.tier t).rows) _ _ h
    fun _ h _ _ => mem_insertReplica.2 (.inl h)

theorem Mirrors.withMedia {id : String} (h : b.Mirrors id) (o : Object) :
    (b.withMedia o now).Mirrors id := by
  obtain ⟨r, hr, hid⟩ := h
  exact ⟨r, mem_withMedia (t := .replica) o hr, hid⟩

theorem Mirrors.link {id : String} (h : b.Mirrors id) (o : Object) (published : Instant) :
    (b.link o published).1.Mirrors id := by
  obtain ⟨r, hr, rfl⟩ := h
  exact ⟨_, (mem_link_iff (t := .replica)).2 ⟨r, hr, rfl⟩, r.id_linked ..⟩

theorem renews_linked (v : Visit) (id : String) :
    v.linked.renews id = (v.renews && id == v.parent) := by
  have wishes : v.linked.hasOption = v.object.hasOption := rfl
  have hparent := v.replyParent?_linked
  unfold Object.renews Visit.renews
  rw [wishes]
  cases hanswers : v.linked.replyParent? with
  | none => simp [← hparent, hanswers]
  | some parent =>
    have named : (parent != "") = true := bne_iff_ne.2 (Object.replyParent?_ne hanswers)
    have order : (some parent == some id) = (id == parent) := BEq.comm
    rw [← hparent, hanswers, Option.getD_some, named, Bool.true_and, Bool.and_comm, order]

theorem mem_link (h : r ∈ (b.tier t).rows) (hid : r.id ≠ v.object.id) :
    Visit.renew now r v ∈ ((b.link v.linked (v.published now)).1.tier t).rows := by
  have other : r.id ≠ v.linked.id := hid
  refine mem_link_iff.2 ⟨r, h, ?_⟩
  rw [Row.linked_of_ne other, Row.after, renews_linked]
  rfl

theorem Turns.mem_edges (h : Turns now b vs added b') :
    e ∈ b'.edges.rows ↔ e ∈ b.edges.rows ∨ ∃ v ∈ added, e = v.edge := by
  induction h with
  | done b => simp
  | @add b b' v vs added new rest ih =>
    have linked : v.linked.id = v.object.id := rfl
    have edges : ((b.withMedia v.object now).insertReplica (.ofWire v.object .replica now)
        now).1.edges = b.edges := edges_withMedia v.object
    rw [ih, edges_link, mem_recordEdge, edges, v.replyParent?_linked, linked, ← Visit.edge,
      or_assoc]
    simp
  | pass old rest ih => rw [ih, edges_withMedia]

theorem Turns.mem_replicas (h : Turns now b vs added b') (hr : r ∈ b.replicas.rows) :
    added.foldl (Visit.renew now) r ∈ b'.replicas.rows := by
  induction h generalizing r with
  | done b => exact hr
  | @add b b' v vs added new rest ih =>
    have media : r ∈ ((b.withMedia v.object now).tier .replica).rows := mem_withMedia v.object hr
    have hid : r.id ≠ v.object.id := fun hid => new ⟨r, media, hid⟩
    exact ih (mem_link (t := .replica) (mem_insertReplica.2 (.inl media)) hid)
  | @pass b b' v vs added old rest ih => exact ih (mem_withMedia (t := .replica) v.object hr)

theorem Turns.mirrors (h : Turns now b vs added b') :
    (∀ id, b.Mirrors id → b'.Mirrors id) ∧ ∀ v ∈ vs, b'.Mirrors v.object.id := by
  induction h with
  | done b => exact ⟨fun id hid => hid, nofun⟩
  | @add b b' v vs added new rest ih =>
    have media : ∀ r ∈ (b.withMedia v.object now).replicas.rows, r.id ≠ v.object.id :=
      fun r hr hid => new ⟨r, hr, hid⟩
    have inserted : ((b.withMedia v.object now).insertReplica (.ofWire v.object .replica now)
        now).1.Mirrors v.object.id :=
      ⟨_, (mem_insertReplica (t := .replica)).2 (.inr ⟨rfl, media, rfl⟩), Row.id_ofEntry _ now⟩
    have others (id : String) (hid : b.Mirrors id) : ((b.withMedia v.object now).insertReplica
        (.ofWire v.object .replica now) now).1.Mirrors id := by
      obtain ⟨r, hr, he⟩ := hid.withMedia v.object
      exact ⟨r, (mem_insertReplica (t := .replica)).2 (.inl hr), he⟩
    refine ⟨fun id hid => ih.1 id ((others id hid).link _ _), fun w hw => ?_⟩
    rcases List.mem_cons.1 hw with rfl | hw
    · exact ih.1 _ (inserted.link _ _)
    · exact ih.2 w hw
  | @pass b b' v vs added old rest ih =>
    refine ⟨fun id hid => ih.1 id (hid.withMedia v.object), fun w hw => ?_⟩
    rcases List.mem_cons.1 hw with rfl | hw
    · exact ih.1 _ old
    · exact ih.2 w hw

theorem renewals_eq (now : Instant) (vs : List Visit) (r : Row) :
    ∃ updated, vs.foldl (Visit.renew now) r = { r with updated } := by
  induction vs generalizing r with
  | nil => exact ⟨r.updated, rfl⟩
  | cons v vs ih =>
    obtain ⟨updated, h⟩ := ih (Visit.renew now r v)
    refine ⟨updated, h.trans ?_⟩
    unfold Visit.renew
    split <;> rfl

theorem Turns.row_stays (h : Turns now b vs added b') (hr : r ∈ b.replicas.rows) :
    ∃ updated, { r with updated } ∈ b'.replicas.rows := by
  obtain ⟨updated, he⟩ := renewals_eq now added r
  exact ⟨updated, he ▸ h.mem_replicas hr⟩

theorem Turns.added_rows (h : Turns now b vs added b') {v : Visit} (hv : v ∈ added) :
    ¬ b.Mirrors v.object.id ∧
      ∃ r ∈ b'.replicas.rows, r.id = v.object.id ∧ r.actor = v.object.actor := by
  induction h with
  | done b => cases hv
  | @add b b' u vs added new rest ih =>
    rcases List.mem_cons.1 hv with rfl | hv
    · refine ⟨fun hid => new (hid.withMedia v.object), ?_⟩
      have inserted : Row.ofEntry (.ofWire v.object .replica now) now ∈
          ((b.withMedia v.object now).insertReplica (.ofWire v.object .replica now)
            now).1.replicas.rows :=
        (mem_insertReplica (t := .replica)).2 (.inr ⟨rfl, fun r hr hid => new ⟨r, hr, hid⟩, rfl⟩)
      obtain ⟨type, time, linked⟩ := mem_link_of_mem (t := .replica) inserted
      obtain ⟨updated, stays⟩ := rest.row_stays linked
      exact ⟨_, stays, Row.id_ofEntry .., Row.actor_ofEntry ..⟩
    · obtain ⟨before, after⟩ := ih hv
      exact ⟨fun hid => before ((Turns.add new (.done _)).mirrors.1 _ hid), after⟩
  | @pass b b' u vs added old rest ih =>
    obtain ⟨before, after⟩ := ih hv
    exact ⟨fun hid => before (hid.withMedia u.object), after⟩

theorem replicateOne_turn (b : Board) (v : Visit) (now : Instant) : ∃ added,
    Turns now b [v] added (b.replicateOne v.linked now).1 ∧
      added.length = if (b.replicateOne v.linked now).2 then 1 else 0 := by
  have written : b.insertWithMedia v.linked now =
    (b.withMedia v.object now).insertReplica (.ofWire v.object .replica now) now := rfl
  unfold replicateOne
  rw [written]
  by_cases h : (b.withMedia v.object now).Mirrors v.object.id
  · rw [insertReplica_old (.ofWire v.object .replica now) now h]
    exact ⟨[], .pass h (.done _), rfl⟩
  · have new := insertReplica_new (.ofWire v.object .replica now) now h
    simp only [new, if_true]
    exact ⟨[v], .add h (.done _), rfl⟩

theorem replicateAll_cons (blocks : String → Bool) (v : Visit) (queue : List Visit)
    (met : List String) (written : Nat) (b : Board) :
    b.replicateAll blocks now ((v :: queue).map Visit.linked) met written =
      if Text.isBlankText v.object.id ∨ v.object.id ∈ met then
        b.replicateAll blocks now (queue.map Visit.linked) met written
      else if blocks v.object.content then
        b.replicateAll blocks now (queue.map Visit.linked) (v.object.id :: met) written
      else
        (b.replicateOne v.linked now).1.replicateAll blocks now
          ((queue ++ v.nested).map Visit.linked) (v.object.id :: met)
          (if (b.replicateOne v.linked now).2 then written + 1 else written) := by
  rw [List.map_cons, replicateAll, List.map_append, v.map_linked_nested]
  rfl

theorem replicateAll_level (blocks : String → Bool) (level next : List Visit) (met : List String)
    (written : Nat) (b : Board) : ∃ added b',
      Turns now b (Visit.sift blocks level met).1 added b' ∧
      b.replicateAll blocks now ((level ++ next).map Visit.linked) met written =
        b'.replicateAll blocks now
          ((next ++ (Visit.sift blocks level met).1.flatMap Visit.nested).map Visit.linked)
          (Visit.sift blocks level met).2 (written + added.length) := by
  induction level generalizing next met written b with
  | nil => exact ⟨[], b, .done b, by simp [Visit.sift]⟩
  | cons v level ih =>
    rw [List.cons_append, replicateAll_cons, Visit.sift]
    split
    · exact ih next met written b
    split
    · exact ih next (v.object.id :: met) written b
    · obtain ⟨first, hfirst, hnew⟩ := replicateOne_turn b v now
      obtain ⟨added, b', hrest, hb⟩ := ih (next ++ v.nested) (v.object.id :: met)
        (if (b.replicateOne v.linked now).2 then written + 1 else written)
        (b.replicateOne v.linked now).1
      have count : (if (b.replicateOne v.linked now).2 then written + 1 else written) +
          added.length = written + (first ++ added).length := by
        rw [List.length_append, hnew]
        split <;> omega
      refine ⟨first ++ added, b', hfirst.append hrest, ?_⟩
      rw [List.append_assoc, hb, count, List.flatMap_cons, List.append_assoc]

/-- The queue goes through all levels. -/
theorem replicateAll_levels (blocks : String → Bool) (now : Instant) (level : List Visit)
    (met : List String) (written : Nat) (b : Board) : ∃ added b',
      Turns now b (Visit.levels blocks level met) added b' ∧
      b.replicateAll blocks now (level.map Visit.linked) met written =
        (b', written + added.length) := by
  fun_induction Visit.levels blocks level met generalizing written b with
  | case1 met => exact ⟨[], b, .done b, by simp [replicateAll]⟩
  | case2 met v level next ih =>
    obtain ⟨first, c, hfirst, hc⟩ := replicateAll_level blocks (v :: level) [] met written b
    obtain ⟨added, b', hrest, hb⟩ := ih (written + first.length) c
    refine ⟨first ++ added, b', hfirst.append hrest, ?_⟩
    rw [List.append_nil, List.nil_append] at hc
    rw [hc, hb, List.length_append, Nat.add_assoc]

end Board

namespace Site

/-- Replication is blocked with the object itself. Otherwise the visited objects take their turns,
and each of them has a replica after that. Those that were added have their edges, no other edge is
new, and the replicas that were there before are there still, renewed by the replies to them that
were added. -/
theorem replicate_visits (s : Site) (now : Instant) (o : Object) (b : Board) :
    (s.replicate now o b = (b, .blocked) ↔ s.blocks o.content = true) ∧
      (s.blocks o.content = true ∨ ∃ added,
        Board.Turns now b (Visit.all s.blocks o) added (s.replicate now o b).1 ∧
        (s.replicate now o b).2 =
          (if added.length = 0 then .alreadyThere else .written added.length) ∧
        (∀ v ∈ Visit.all s.blocks o, (s.replicate now o b).1.Mirrors v.object.id) ∧
        (∀ e, e ∈ (s.replicate now o b).1.edges.rows ↔
          e ∈ b.edges.rows ∨ ∃ v ∈ added, e = v.edge) ∧
        ∀ r ∈ b.replicas.rows,
          added.foldl (Visit.renew now) r ∈ (s.replicate now o b).1.replicas.rows) := by
  by_cases h : s.blocks o.content = true
  · have blocked : s.replicate now o b = (b, .blocked) := if_pos h
    exact ⟨iff_of_true blocked h, .inl h⟩
  · obtain ⟨added, b', turns, hb⟩ :=
      Board.replicateAll_levels s.blocks now [{ object := o }] [] 0 b
    have result : s.replicate now o b =
        (b', if added.length = 0 then .alreadyThere else .written added.length) := by
      rw [List.map_singleton, Visit.linked_root, Nat.zero_add] at hb
      rw [replicate, if_neg h, hb]
    rw [result]
    refine ⟨iff_of_false (fun he => ?_) h, .inr ⟨added, turns, rfl, turns.mirrors.2,
      fun e => turns.mem_edges, fun r => turns.mem_replicas⟩⟩
    split at he <;> cases he

theorem replicate_turns (s : Site) (now : Instant) (o : Object) (b : Board) :
    ∃ added, Board.Turns now b (Visit.all s.blocks o) added (s.replicate now o b).1 := by
  obtain ⟨blocked, h | ⟨added, turns, -⟩⟩ := s.replicate_visits now o b
  · rw [Visit.all_of_blocked h, blocked.2 h]
    exact ⟨[], .done b⟩
  · exact ⟨added, turns⟩

end Site
end Imageboard
