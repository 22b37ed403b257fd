import Imageboard.Proofs.Board.Edges
import Imageboard.Proofs.Board.Groups
import Mathlib.Data.List.DropRight
import Mathlib.Data.List.Nodup

namespace Imageboard

theorem Table.nodup_ids (t : Table Row) : (t.rows.map Row.id).Nodup := by
  refine List.pairwise_map.2 (t.sorted.imp ?_)
  intro r q hlt hid
  have hkey : Keyed.key r = Keyed.key q := congrArg (fun id => [id]) hid
  exact List.lt_irrefl _ (hkey ▸ hlt)

def Row.IsDated (r : Row) : Prop :=
  (Instant.ofMillis? r.published).isSome = true

instance (r : Row) : Decidable r.IsDated :=
  inferInstanceAs (Decidable (_ = true))

theorem Row.IsDated.millis_published {r : Row} (h : r.IsDated) (t : Tier) :
    (r.entry t).published.millis = r.published := by
  obtain ⟨time, htime⟩ := Option.isSome_iff_exists.1 h
  have shown : (r.entry t).published = time := by
    show (Instant.ofMillis? r.published).getD .epoch = time
    rw [htime, Option.getD_some]
  rw [shown]
  unfold Instant.ofMillis? Instant.of? at htime
  split at htime
  next =>
    obtain rfl := Option.some.inj htime
    show r.published / 1000 * 1000 +
      (((r.published % 1000).toNat * 1000000 / 1000000 : Nat) : Int) = r.published
    omega
  next => cases htime

/-- Order of publication, then of ids, no two at the same place. -/
def Row.Precedes (r q : Row) : Prop :=
  r.published < q.published ∨ r.published = q.published ∧ r.id < q.id

def Entry.Precedes (e f : Entry) : Prop :=
  e.published.millis < f.published.millis ∨
    e.published.millis = f.published.millis ∧ e.id < f.id

theorem flatMap_ite {α β : Type} (p : α → Bool) (f : α → β) (xs : List α) :
    (xs.flatMap fun x => if p x then [f x] else []) = (xs.filter p).map f := by
  induction xs with
  | nil => rfl
  | cons x xs ih =>
    rw [List.flatMap_cons, ih, List.filter_cons]
    split <;> rfl

namespace Board

variable {b : Board} {t : Tier} {r : Row} {e : Entry} {p q : String → Bool} {x y z : Tier × Row}
  {parent id v : String} {es : List Entry}

theorem getIn_of_mem (h : r ∈ (b.tier t).rows) : b.getIn t r.id = some (r.entry t) := by
  have found : (b.tier t).get? [r.id] = some r := Table.get?_eq_some_iff.2 ⟨h, rfl⟩
  rw [getIn, found, Option.map_some]

theorem getIn_eq_none (h : ∀ r ∈ (b.tier t).rows, r.id ≠ id) : b.getIn t id = none := by
  have missing : (b.tier t).get? [id] = none :=
    Table.get?_eq_none_iff.2 fun r hr hk => h r hr (List.head_eq_of_cons_eq hk)
  rw [getIn, missing, Option.map_none]

theorem id_of_getIn (h : b.getIn t id = some e) : e.id = id := by
  obtain ⟨r, hr, rfl⟩ := Option.map_eq_some_iff.1 h
  exact List.head_eq_of_cons_eq (Table.get?_eq_some_iff.1 hr).2

theorem id_of_get (h : b.get id = some e) : e.id = id := by
  unfold get at h
  cases own : b.getIn .authored id with
  | none =>
    rw [own, Option.orElse_none] at h
    exact id_of_getIn h
  | some o =>
    rw [own, Option.orElse_some] at h
    exact id_of_getIn (Option.some.inj h ▸ own)

theorem getIn_congr {c : Board}
    (h : ∀ r, r.id = id → (r ∈ (b.tier t).rows ↔ r ∈ (c.tier t).rows)) :
    b.getIn t id = c.getIn t id := by
  have found : (b.tier t).get? [id] = (c.tier t).get? [id] := by
    refine Option.ext fun r => ?_
    rw [Table.get?_eq_some_iff, Table.get?_eq_some_iff]
    exact and_congr_left fun hk => h r (List.head_eq_of_cons_eq hk)
  rw [getIn, getIn, found]

theorem get_congr {c : Board}
    (h : ∀ t r, r.id = id → (r ∈ (b.tier t).rows ↔ r ∈ (c.tier t).rows)) : b.get id = c.get id := by
  rw [get, get, getIn_congr (h .authored), getIn_congr (h .replica)]

/-- A selected replica has no authored row of its id beside it that was selected as well. -/
theorem mem_select {p : Row → Bool} : x ∈ b.select p ↔
    x.2 ∈ (b.tier x.1).rows ∧ p x.2 = true ∧
      (x.1 = .replica → ∀ o ∈ b.authored.rows, p o = true → o.id ≠ x.2.id) := by
  obtain ⟨t, r⟩ := x
  unfold select
  rw [List.mem_append, List.mem_map, List.mem_map]
  cases t with
  | authored => simp [tier]
  | replica =>
    have alone : (!(b.authored.rows.filter p).any fun o => o.id == r.id) = true ↔
        ∀ o ∈ b.authored.rows, p o = true → o.id ≠ r.id := by
      simp
    constructor
    · rintro (⟨_, -, ⟨⟩⟩ | ⟨_, hr, ⟨⟩⟩)
      rw [List.mem_filter, List.mem_filter, alone] at hr
      exact ⟨hr.1.1, hr.1.2, fun _ => hr.2⟩
    · rintro ⟨hr, hp, h⟩
      refine .inr ⟨r, ?_, rfl⟩
      rw [List.mem_filter, List.mem_filter, alone]
      exact ⟨⟨hr, hp⟩, h rfl⟩

theorem nodup_select (b : Board) (p : Row → Bool) : ((b.select p).map (·.2.id)).Nodup := by
  have sub (t : Table Row) : ((t.rows.filter p).map Row.id).Nodup :=
    t.nodup_ids.sublist (List.filter_sublist.map _)
  unfold select
  simp only [List.map_append, List.map_map]
  refine List.nodup_append.2 ⟨sub b.authored, ?_, ?_⟩
  · exact (sub b.replicas).sublist (List.filter_sublist.map _)
  · intro i hi j hj he
    obtain ⟨o, ho, rfl⟩ := List.mem_map.1 hi
    obtain ⟨r, hr, rfl⟩ := List.mem_map.1 hj
    have alone := (List.mem_filter.1 hr).2
    simp only [Bool.not_eq_true', List.any_eq_false, beq_iff_eq] at alone
    exact alone o ho he

theorem eq_of_select {p : Row → Bool} (hx : x ∈ b.select p) (hy : y ∈ b.select p)
    (h : x.2.id = y.2.id) : x = y :=
  List.inj_on_of_nodup_map (b.nodup_select p) hx hy h

theorem filter_select (h : ∀ id, q id = true → p id = true) :
    (b.select fun r => r.isPost && p r.id).filter (fun x => q x.2.id) =
      b.select fun r => r.isPost && q r.id := by
  have narrow (r : Row) : (q r.id && (r.isPost && p r.id)) = (r.isPost && q r.id) := by
    cases hq : q r.id with
    | false => simp
    | true => simp [h r.id hq]
  -- whether a replica stands alone is the same question for both choices of ids
  have alone (r : Row) (hr : q r.id = true) :
      (b.authored.rows.filter fun o => o.isPost && p o.id).any (fun o => o.id == r.id) =
        (b.authored.rows.filter fun o => o.isPost && q o.id).any (fun o => o.id == r.id) := by
    have same (o : Row) :
        (o.isPost && p o.id && o.id == r.id) = (o.isPost && q o.id && o.id == r.id) := by
      by_cases ho : o.id = r.id
      · rw [ho, hr, h r.id hr]
      · rw [beq_false_of_ne ho, Bool.and_false, Bool.and_false]
    simp only [List.any_filter, same]
  unfold select
  dsimp only
  rw [List.filter_append, List.filter_map, List.filter_map]
  congr 2
  · rw [List.filter_filter]
    exact List.filter_congr fun r _ => narrow r
  · rw [List.filter_filter, List.filter_filter, List.filter_filter]
    refine List.filter_congr fun r _ => ?_
    cases hq : q r.id with
    | false => simp [hq]
    | true => simp [hq, h r.id hq, alone r hq]

theorem isEarlier_iff : isEarlier x y = true ↔ x.2.published < y.2.published ∨
    (x.2.published = y.2.published ∧ x.2.id ≤ y.2.id) := by
  simp [isEarlier]

theorem isEarlier_trans (x y z : Tier × Row) (h : isEarlier x y = true)
    (h' : isEarlier y z = true) :
    isEarlier x z = true := by
  rw [isEarlier_iff] at *
  rcases h with h | ⟨h, hid⟩ <;> rcases h' with h' | ⟨h', hid'⟩
  · exact .inl (Int.lt_trans h h')
  · exact .inl (h' ▸ h)
  · exact .inl (h ▸ h')
  · exact .inr ⟨h.trans h', String.le_trans hid hid'⟩

theorem isEarlier_total (x y : Tier × Row) : (isEarlier x y || isEarlier y x) = true := by
  rw [Bool.or_eq_true, isEarlier_iff, isEarlier_iff]
  rcases Int.lt_trichotomy x.2.published y.2.published with h | h | h
  · exact .inl (.inl h)
  · exact (String.le_total x.2.id y.2.id).imp (fun hid => .inr ⟨h, hid⟩) fun hid =>
    .inr ⟨h.symm, hid⟩
  · exact .inr (.inl h)

theorem id_eq_of_isEarlier (h : isEarlier x y = true) (h' : isEarlier y x = true) :
    x.2.id = y.2.id := by
  rw [isEarlier_iff] at h h'
  rcases h with h | ⟨h, hid⟩ <;> rcases h' with h' | ⟨h', hid'⟩
  · omega
  · omega
  · omega
  · exact String.le_antisymm hid hid'

theorem posts_sorted (b : Board) (p : String → Bool) :
    (b.posts p).Pairwise fun x y => isEarlier x y = true :=
  List.pairwise_mergeSort isEarlier_trans isEarlier_total _

theorem mem_posts : x ∈ b.posts p ↔ x ∈ b.select fun r => r.isPost && p r.id :=
  List.mem_mergeSort

theorem eq_posts {xs : List (Tier × Row)} (hs : xs.Pairwise fun x y => isEarlier x y = true)
    (hp : xs.Perm (b.select fun r => r.isPost && p r.id)) : xs = b.posts p := by
  refine List.Perm.eq_of_pairwise (fun x y hx hy h h' => ?_) hs (b.posts_sorted p)
    (hp.trans (List.mergeSort_perm _ _).symm)
  exact eq_of_select (hp.mem_iff.1 hx) (mem_posts.1 hy) (id_eq_of_isEarlier h h')

theorem nodup_posts (b : Board) (p : String → Bool) : ((b.posts p).map (·.2.id)).Nodup :=
  ((List.mergeSort_perm _ _).map _).nodup_iff.2 (b.nodup_select _)

theorem posts_precede (b : Board) (p : String → Bool) :
    (b.posts p).Pairwise fun x y => x.2.Precedes y.2 := by
  have distinct : (b.posts p).Pairwise fun x y => x.2.id ≠ y.2.id :=
    List.pairwise_map.1 (b.nodup_posts p)
  refine ((b.posts_sorted p).and distinct).imp ?_
  rintro x y ⟨earlier, hne⟩
  refine (isEarlier_iff.1 earlier).imp_right fun ⟨heq, hle⟩ => ⟨heq, ?_⟩
  exact Classical.byContradiction fun hlt => hne (String.le_antisymm hle (String.not_lt.1 hlt))

theorem filter_posts (h : ∀ id, q id = true → p id = true) :
    (b.posts p).filter (fun x => q x.2.id) = b.posts q := by
  refine eq_posts ((b.posts_sorted p).filter _) ?_
  rw [← filter_select h]
  exact (List.mergeSort_perm _ _).filter _

/-- One entry comes before another by the rows that they show. -/
def Precedes (b : Board) (e f : Entry) : Prop :=
  ∃ r ∈ (b.tier e.tier).rows, ∃ q ∈ (b.tier f.tier).rows,
    r.entry e.tier = e ∧ q.entry f.tier = f ∧ r.Precedes q

theorem children_precede (b : Board) (parent : String) :
    (b.children parent).Pairwise b.Precedes := by
  have inTier {x : Tier × Row} (h : x ∈ b.posts (b.isChild parent)) : x.2 ∈ (b.tier x.1).rows :=
    (mem_select.1 (mem_posts.1 h)).1
  refine List.pairwise_map.2 ((b.posts_precede _).imp_of_mem fun hx hy h => ?_)
  exact ⟨_, inTier hx, _, inTier hy, rfl, rfl, h⟩

theorem Precedes.entries (h : b.Precedes e f)
    (dated : ∀ t, ∀ r ∈ (b.tier t).rows, r.IsDated) : e.Precedes f := by
  obtain ⟨r, hr, q, hq, he, hf, h⟩ := h
  have first := (dated _ r hr).millis_published e.tier
  have second := (dated _ q hq).millis_published f.tier
  rw [he] at first
  rw [hf] at second
  rw [Entry.Precedes, first, second, ← he, ← hf]
  exact h

theorem answers_of_mem_children (h : e ∈ b.children parent) : b.Answers e.id parent := by
  obtain ⟨⟨t, r⟩, hx, rfl⟩ := List.mem_map.1 h
  have chosen := (mem_select.1 (mem_posts.1 hx)).2.1
  rw [Bool.and_eq_true] at chosen
  exact isChild_iff.1 chosen.2

theorem mem_ids_children : id ∈ (b.children parent).map Entry.id ↔
    b.Answers id parent ∧ ∃ t, ∃ r ∈ (b.tier t).rows, r.id = id ∧ r.isPost = true := by
  have selects (r : Row) : (r.isPost && b.isChild parent r.id) = true ↔
      r.isPost = true ∧ b.Answers r.id parent := by
    rw [Bool.and_eq_true, isChild_iff]
  unfold children
  rw [List.map_map, List.mem_map]
  constructor
  · rintro ⟨⟨t, r⟩, hx, rfl⟩
    obtain ⟨hr, chosen, -⟩ := mem_select.1 (mem_posts.1 hx)
    obtain ⟨post, answers⟩ := (selects r).1 chosen
    exact ⟨answers, t, r, hr, rfl, post⟩
  · rintro ⟨answers, t, r, hr, rfl, post⟩
    have chosen := (selects r).2 ⟨post, answers⟩
    -- a replica shows unless an authored post stands before it
    by_cases hidden : ∃ o ∈ b.authored.rows, o.isPost = true ∧ o.id = r.id
    · obtain ⟨o, ho, hpost, hid⟩ := hidden
      have own := (selects o).2 ⟨hpost, hid ▸ answers⟩
      exact ⟨(.authored, o), mem_posts.2 (mem_select.2 ⟨ho, own, nofun⟩), hid⟩
    · refine ⟨(t, r), mem_posts.2 (mem_select.2 ⟨hr, chosen, fun _ o ho own hid => ?_⟩), rfl⟩
      exact hidden ⟨o, ho, ((selects o).1 own).1, hid⟩

theorem newestChildren_eq (b : Board) (parent : String) (n : UInt64) :
    b.newestChildren parent n =
      if n.toNat < 0x8000000000000000 then
        (b.children parent).drop ((b.children parent).length - n.toNat)
      else b.children parent := by
  let newestFirst := (b.select fun r => r.isPost && b.isChild parent r.id).mergeSort
    fun x y => isEarlier y x
  have sorted : newestFirst.reverse.Pairwise fun x y => isEarlier x y = true :=
    List.pairwise_reverse.2 (List.pairwise_mergeSort (fun x y z h h' => isEarlier_trans z y x h' h)
      (fun x y => isEarlier_total y x) _)
  have reversed : newestFirst.reverse = b.posts (b.isChild parent) :=
    eq_posts sorted ((List.reverse_perm _).trans (List.mergeSort_perm _ _))
  have length : newestFirst.length = (b.posts (b.isChild parent)).length := by
    rw [← reversed, List.length_reverse]
  unfold newestChildren children
  dsimp only
  split
  · rw [List.reverse_take, reversed, length, List.map_drop, List.length_map]
  · rw [reversed]

/-- Replies are listed in the strict order of their times and ids, each once, and the newest of
them are the end of the list. A number that reads as negative is no bound, which makes a difference
only to a list longer than that. -/
theorem newestChildren_end (b : Board) (parent : String) :
    let listed := b.children parent
    listed.Pairwise b.Precedes ∧
      ((∀ t, ∀ r ∈ (b.tier t).rows, r.IsDated) → listed.Pairwise Entry.Precedes) ∧
      (listed.map Entry.id).Nodup ∧
      ∀ n : UInt64, b.newestChildren parent n = listed.rtake (min n.toNat listed.length) ↔
        n.toNat < 0x8000000000000000 ∨ listed.length ≤ n.toNat := by
  intro listed
  have order : listed.Pairwise b.Precedes := b.children_precede parent
  refine ⟨order, fun dated => order.imp fun h => h.entries dated, ?_, fun n => ?_⟩
  · have ids : listed.map Entry.id = (b.posts (b.isChild parent)).map (·.2.id) := List.map_map
    rw [ids]
    exact b.nodup_posts _
  · rw [newestChildren_eq, List.rtake]
    split
    next small =>
      have rest : listed.length - min n.toNat listed.length = listed.length - n.toNat := by omega
      exact iff_of_true (congrArg (listed.drop ·) rest.symm) (.inl small)
    next big =>
      rw [or_iff_right big]
      constructor
      · intro all
        have length := congrArg List.length all
        rw [List.length_drop] at length
        change listed.length = _ at length
        omega
      · intro short
        rw [Nat.min_eq_right short, Nat.sub_self, List.drop_zero]

theorem newestChildren_end_of_tie :
    let note (id : String) (published : Int) : Row := { id, type := "Note", published }
    let board : Board :=
      { authored := .ofList [note "q" 7, note "r" 7]
        replicas := .ofList [note "q" 9, note "s" 8]
        edges := .ofList [⟨"q", "p"⟩, ⟨"r", "p"⟩, ⟨"s", "p"⟩] }
    (board.children "p").map Entry.id = ["q", "r", "s"] ∧
      (∀ t, ∀ r ∈ (board.tier t).rows, r.IsDated) ∧
      (board.children "p").Pairwise Entry.Precedes ∧
      board.newestChildren "p" 0xFFFFFFFFFFFFFFFF = (board.children "p").rtake 3 := by
  intro note board
  have dated : ∀ t, ∀ r ∈ (board.tier t).rows, r.IsDated := by
    intro t
    cases t <;> decide +kernel
  have posts : board.posts (board.isChild "p") =
      [(.authored, note "q" 7), (.authored, note "r" 7), (.replica, note "s" 8)] :=
    (eq_posts (by decide +kernel) (by decide +kernel)).symm
  have listed : (board.children "p").map Entry.id = ["q", "r", "s"] := by
    rw [children, posts]
    rfl
  have length : (board.children "p").length = 3 := by
    rw [← List.length_map Entry.id, listed]
    rfl
  obtain ⟨-, order, -, newest⟩ := newestChildren_end board "p"
  refine ⟨listed, dated, order dated, ?_⟩
  have all := (newest 0xFFFFFFFFFFFFFFFF).2 (.inr (by rw [length]; decide))
  rwa [length] at all

theorem filter_answered (b : Board) (parent v id : String) :
    ((Groups.ofPairs ((b.edgesBelow parent).map fun e => (e.child, e.parent))).under id).filter
        (· == v) = if b.isChild v id && b.isChild parent v then [v] else [] := by
  have edges : ((b.edgesBelow parent).filter fun e => e.child == id && e.parent == v) =
      if b.isChild v id && b.isChild parent v then [⟨id, v⟩] else [] := by
    rw [edgesBelow, List.filter_comm, filter_edges]
    cases b.isChild v id with
    | false => rfl
    | true => cases h : b.isChild parent v <;> simp [h]
  calc ((Groups.ofPairs ((b.edgesBelow parent).map fun e => (e.child, e.parent))).under id).filter
        (· == v)
    _ = ((b.edgesBelow parent).filter fun e => e.child == id && e.parent == v).map (·.parent) := by
      rw [Groups.under_ofPairs]
      simp only [List.filter_map, List.map_map, List.filter_filter, Function.comp_def,
        Bool.and_comm]
    _ = if b.isChild v id && b.isChild parent v then [v] else [] := by
      rw [edges]
      split <;> rfl

/-- The one batch brings under a reply what answers it, in the order of publication, and under all
else nothing. -/
theorem under_grandchildren (b : Board) (parent v : String) :
    (b.grandchildren parent).under v = if v ∈ b.childIds parent then b.children v else [] := by
  let found := b.posts fun id => (b.edgesBelow parent).any (·.child == id)
  have batch : (b.grandchildren parent).under v =
      (found.filter fun x => b.isChild v x.2.id && b.isChild parent v).map fun x =>
        x.2.entry x.1 := by
    rw [← flatMap_ite, grandchildren, Groups.under_ofPairs, List.filter_flatMap, List.map_flatMap]
    refine List.flatMap_congr fun x _ => ?_
    rw [List.filter_map, List.map_map]
    simp only [Function.comp_def]
    rw [filter_answered]
    split <;> rfl
  by_cases hv : b.Answers v parent
  · have own : found.filter (fun x => b.isChild v x.2.id) = b.posts (b.isChild v) := by
      refine filter_posts fun id hid => List.any_eq_true.2 ⟨⟨id, v⟩, ?_, beq_self_eq_true id⟩
      exact List.mem_filter.2 ⟨isChild_iff.1 hid, isChild_iff.2 hv⟩
    rw [batch, if_pos (mem_childIds.2 hv), children, ← own, isChild_iff.2 hv]
    simp only [Bool.and_true]
  · rw [batch, if_neg (mt mem_childIds.1 hv), Bool.eq_false_iff.2 (mt isChild_iff.1 hv)]
    simp only [Bool.and_false, List.filter_false, List.map_nil]

theorem filed_grandchildren (b : Board) (parent : String) :
    Groups.Filed (b.grandchildren parent) :=
  Groups.filed_ofPairs _

theorem lookup_grandchildren_eq (b : Board) (parent c : String) :
    (b.grandchildren parent).lookup c =
      if c ∈ b.childIds parent ∧ b.children c ≠ [] then some (b.children c) else none := by
  rw [(filed_grandchildren b parent).lookup_eq, under_grandchildren]
  by_cases hc : c ∈ b.childIds parent
  · by_cases none : b.children c = []
    · rw [if_pos hc, if_pos none, if_neg fun h => h.2 none]
    · rw [if_pos hc, if_neg none, if_pos ⟨hc, none⟩]
  · rw [if_neg hc, if_pos rfl, if_neg fun h => hc h.1]

/-- The batch agrees with one question for each reply: under a reply stands what answers it, each
reply once, and nothing stands where there is nothing to show. -/
theorem grandchildren_agree (b : Board) (parent : String) :
    ((b.grandchildren parent).map Prod.fst).Nodup ∧
      ∀ c, (b.grandchildren parent).lookup c =
        if c ∈ b.childIds parent ∧ b.children c ≠ [] then some (b.children c) else none :=
  ⟨(filed_grandchildren b parent).nodup, lookup_grandchildren_eq b parent⟩

theorem mem_grandchildren : (v, es) ∈ b.grandchildren parent ↔
    v ∈ b.childIds parent ∧ es = b.children v ∧ es ≠ [] := by
  rw [← (filed_grandchildren b parent).lookup_eq_some_iff, lookup_grandchildren_eq,
    Option.ite_some_none_eq_some]
  constructor
  · rintro ⟨⟨hv, some⟩, rfl⟩
    exact ⟨hv, rfl, some⟩
  · rintro ⟨hv, rfl, some⟩
    exact ⟨⟨hv, some⟩, rfl⟩

theorem lookup_grandchildren (h : v ∈ b.childIds parent) :
    ((b.grandchildren parent).lookup v).getD [] = b.children v :=
  (under_grandchildren b parent v).trans (if_pos h)

end Board
end Imageboard
