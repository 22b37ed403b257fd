import Imageboard.Proofs.Board.Subtree
import Mathlib.Logic.Function.Iterate
import Mathlib.Order.Lattice.Nat

namespace Imageboard.Board

variable {b : Board} {root id c p x : String} {ahead queue met near far : List String} {n : Nat}

/-- The ids that one comes to from an id by that many steps from parents to children. -/
def level (b : Board) (root : String) : Nat → Set String
  | 0 => {root}
  | n + 1 => {c | ∃ p ∈ b.level root n, b.Answers c p}

noncomputable def distance (b : Board) (root id : String) : Nat :=
  sInf {n | id ∈ b.level root n}

theorem mem_below_iff : id ∈ b.below root ↔ ∃ n, id ∈ b.level root n := by
  constructor
  · intro h
    induction h with
    | refl => exact ⟨0, rfl⟩
    | tail _ he ih =>
      obtain ⟨n, hn⟩ := ih
      exact ⟨n + 1, _, hn, he⟩
  · rintro ⟨n, hn⟩
    induction n generalizing id with
    | zero => exact hn ▸ Relation.ReflTransGen.refl
    | succ n ih =>
      obtain ⟨p, hp, he⟩ := hn
      exact Relation.ReflTransGen.tail (ih hp) he

theorem mem_level_distance (h : id ∈ b.below root) : id ∈ b.level root (b.distance root id) :=
  Nat.sInf_mem (mem_below_iff.1 h)

theorem distance_le (h : id ∈ b.level root n) : b.distance root id ≤ n :=
  Nat.sInf_le h

theorem ahead_of_mem_below (h : x ∈ b.below root) : x ∈ root :: b.edges.rows.map (·.child) := by
  cases Relation.ReflTransGen.cases_tail h with
  | inl heq => exact heq ▸ List.mem_cons_self
  | inr hstep =>
    obtain ⟨p, -, he⟩ := hstep
    exact List.mem_cons_of_mem _ (List.mem_map_of_mem he)

theorem distance_lt_of_answers (unique : ∀ q, b.Answers c q → q = p) (hc : c ∈ b.below root)
    (hne : c ≠ root) : p ∈ b.below root ∧ b.distance root p < b.distance root c := by
  have hlevel := mem_level_distance hc
  cases hd : b.distance root c with
  | zero =>
    rw [hd] at hlevel
    exact absurd hlevel hne
  | succ n =>
    rw [hd] at hlevel
    obtain ⟨q, hq, he⟩ := hlevel
    obtain rfl := unique q he
    exact ⟨mem_below_iff.2 ⟨n, hq⟩, Nat.lt_succ_of_le (distance_le hq)⟩

theorem mem_ahead_of_mem_walk (h : c ∈ b.walk ahead queue) : c ∈ ahead := by
  fun_induction walk b ahead queue with
  | case1 ahead => cases h
  | case2 ahead id queue hid ahead' ih =>
    rcases List.mem_cons.1 h with rfl | h
    · exact hid
    · exact (mem_without.1 (ih h)).1
  | case3 ahead id queue hid ih => exact ih h

theorem nodup_walk (b : Board) (ahead queue : List String) : (b.walk ahead queue).Nodup := by
  fun_induction walk b ahead queue with
  | case1 ahead => exact .nil
  | case2 ahead id queue hid ahead' ih =>
    exact List.nodup_cons.2 ⟨fun h => (mem_without.1 (mem_ahead_of_mem_walk h)).2 rfl, ih⟩
  | case3 ahead id queue hid ih => exact ih

/-- A walk in the middle of a level: `near` is what is queued of that level and `far` what is queued
of the next. -/
structure Levels (b : Board) (root : String) (ahead : List String) (n : Nat)
    (near far : List String) : Prop where
  level_near : ∀ x ∈ near, x ∈ b.level root n
  level_far : ∀ x ∈ far, x ∈ b.level root (n + 1)
  passed : ∀ k < n, ∀ x ∈ b.level root k, x ∉ ahead
  here : ∀ x ∈ b.level root n, x ∈ ahead → x ∈ near
  closed : ∀ p ∈ b.below root, p ∉ ahead → ∀ c, b.Answers c p → c ∈ ahead → c ∈ near ++ far

namespace Levels

theorem mem_below (h : b.Levels root ahead n near far) : ∀ x ∈ near ++ far, x ∈ b.below root := by
  intro x hx
  rcases List.mem_append.1 hx with hx | hx
  · exact mem_below_iff.2 ⟨n, h.level_near x hx⟩
  · exact mem_below_iff.2 ⟨n + 1, h.level_far x hx⟩

theorem shift (h : b.Levels root ahead n [] far) : b.Levels root ahead (n + 1) far [] where
  level_near := h.level_far
  level_far := nofun
  passed k hk x hx ha := by
    rcases Nat.lt_succ_iff_lt_or_eq.1 hk with hk | rfl
    · exact h.passed k hk x hx ha
    · cases h.here x hx ha
  here x hx ha := by
    obtain ⟨p, hp, he⟩ := hx
    have hmet : p ∉ ahead := fun hpa => List.not_mem_nil (h.here p hp hpa)
    exact h.closed p (mem_below_iff.2 ⟨n, hp⟩) hmet x he ha
  closed p hp hmet c he ha := by
    rw [List.append_nil]
    exact h.closed p hp hmet c he ha

theorem skip (h : b.Levels root ahead n (id :: near) far) (hid : id ∉ ahead) :
    b.Levels root ahead n near far where
  level_near x hx := h.level_near x (List.mem_cons_of_mem id hx)
  level_far := h.level_far
  passed := h.passed
  here x hx ha := (List.mem_cons.1 (h.here x hx ha)).resolve_left fun he => hid (he ▸ ha)
  closed p hp hmet c he ha :=
    (List.mem_cons.1 (h.closed p hp hmet c he ha)).resolve_left fun he => hid (he ▸ ha)

theorem visit (h : b.Levels root ahead n (id :: near) far) :
    b.Levels root (without ahead id) n near
      (far ++ (b.childIds id).filter ((without ahead id).contains ·)) where
  level_near x hx := h.level_near x (List.mem_cons_of_mem id hx)
  level_far x hx := by
    rcases List.mem_append.1 hx with hx | hx
    · exact h.level_far x hx
    · exact ⟨id, h.level_near id List.mem_cons_self, mem_childIds.1 (List.mem_filter.1 hx).1⟩
  passed k hk x hx ha := h.passed k hk x hx (mem_without.1 ha).1
  here x hx ha := by
    obtain ⟨ha, hne⟩ := mem_without.1 ha
    exact (List.mem_cons.1 (h.here x hx ha)).resolve_left hne
  closed p hp hmet c he ha := by
    rw [← List.append_assoc]
    by_cases hpid : p = id
    · refine List.mem_append_right _ (List.mem_filter.2 ⟨?_, List.contains_iff_mem.2 ha⟩)
      exact mem_childIds.2 (hpid ▸ he)
    · obtain ⟨ha, hne⟩ := mem_without.1 ha
      have hmet : p ∉ ahead := fun hpa => hmet (mem_without.2 ⟨hpa, hpid⟩)
      have queued := h.closed p hp hmet c he ha
      exact List.mem_append_left _ ((List.mem_cons.1 queued).resolve_left hne)

theorem exists_cons (h : b.Levels root ahead n near far) (hq : near ++ far = id :: queue) :
    ∃ n near far, near ++ far = queue ∧ b.Levels root ahead n (id :: near) far := by
  cases near with
  | nil =>
    obtain rfl : far = id :: queue := hq
    exact ⟨n + 1, queue, [], List.append_nil queue, h.shift⟩
  | cons x near =>
    obtain ⟨rfl, rfl⟩ := List.cons.inj hq
    exact ⟨n, near, far, rfl, h⟩

theorem le_distance (h : b.Levels root ahead n near far) (hx : x ∈ b.below root)
    (ha : x ∈ ahead) : n ≤ b.distance root x := by
  by_contra hlt
  exact h.passed _ (Nat.lt_of_not_le hlt) x (mem_level_distance hx) ha

/-- A walk goes from what is near to what is far. -/
theorem pairwise_walk (h : b.Levels root ahead n near far) :
    (b.walk ahead (near ++ far)).Pairwise fun x y => b.distance root x ≤ b.distance root y := by
  generalize hq : near ++ far = queue
  fun_induction walk b ahead queue generalizing n near far
  case case1 ahead => exact .nil
  case case2 ahead id queue hid ahead' ih =>
    obtain ⟨m, near, far, rfl, h⟩ := h.exists_cons hq
    refine .cons (fun x hx => ?_) (ih h.visit (List.append_assoc near far _).symm)
    have hx' : x ∈ b.below root := by
      refine walk_subset (fun p c hp he => Relation.ReflTransGen.tail hp he) (fun q hq => ?_) hx
      rw [List.append_assoc] at hq
      exact h.visit.mem_below q hq
    calc b.distance root id ≤ m := distance_le (h.level_near id List.mem_cons_self)
      _ ≤ b.distance root x := h.le_distance hx' (mem_without.1 (mem_ahead_of_mem_walk hx)).1
  case case3 ahead id queue hid ih =>
    obtain ⟨m, near, far, rfl, h⟩ := h.exists_cons hq
    exact ih (h.skip hid) rfl

end Levels

/-- A walk between two turns of its loop: what it has met, in this order, and what it has queued. -/
structure Search where
  met : List String
  queue : List String

namespace Search

def step (b : Board) (s : Search) : Search :=
  match s.queue with
  | [] => s
  | id :: queue =>
    if id ∈ s.met then { s with queue }
    else
      let met := s.met ++ [id]
      { met, queue := queue ++ (b.childIds id).filter fun c => !met.contains c }

/-- A bound on the turns to come: each takes an id from the queue, and each edge from a parent that
is ahead may bring one there. -/
def turns (b : Board) (ahead queue : List String) : Nat :=
  queue.length + b.edges.count fun e => ahead.contains e.parent

theorem count_without (hid : id ∈ ahead) :
    (b.edges.count fun e => (without ahead id).contains e.parent) + (b.childIds id).length =
      b.edges.count fun e => ahead.contains e.parent := by
  unfold Table.count childIds
  rw [List.length_map]
  induction b.edges.rows with
  | nil => rfl
  | cons e rows ih =>
    rw [List.countP_cons, List.countP_cons, List.filter_cons, ← ih]
    simp only [List.contains_iff_mem, mem_without, beq_iff_eq]
    by_cases he : e.parent = id
    · rw [if_neg fun h => h.2 he, if_pos he, if_pos (he ▸ hid), List.length_cons]
      omega
    · simp only [he, ne_eq, not_false_eq_true, and_true, if_false]
      omega

theorem turns_visit (hid : id ∈ ahead) :
    turns b (without ahead id)
      (queue ++ (b.childIds id).filter ((without ahead id).contains ·)) + 1 ≤
      turns b ahead (id :: queue) := by
  have edges := count_without (b := b) hid
  have children := List.length_filter_le ((without ahead id).contains ·) (b.childIds id)
  unfold turns
  rw [List.length_append, List.length_cons]
  omega

/-- A search that is where a walk is: it has met what is not ahead, and all it has queued lies below
the object. -/
structure Follows (b : Board) (root : String) (ahead : List String) (s : Search) : Prop where
  met : ∀ x ∈ b.below root, x ∈ ahead ↔ x ∉ s.met
  queue : ∀ x ∈ s.queue, x ∈ b.below root

theorem Follows.step_visit (h : Follows b root ahead ⟨met, id :: queue⟩) (hid : id ∈ ahead) :
    let s : Search :=
      ⟨met ++ [id], queue ++ (b.childIds id).filter ((without ahead id).contains ·)⟩
    step b ⟨met, id :: queue⟩ = s ∧ Follows b root (without ahead id) s := by
  intro s
  have below : id ∈ b.below root := h.queue id List.mem_cons_self
  have child {c : String} (hc : c ∈ b.childIds id) : c ∈ b.below root :=
    Relation.ReflTransGen.tail below (mem_childIds.1 hc)
  have hmet : ∀ x ∈ b.below root, x ∈ without ahead id ↔ x ∉ met ++ [id] := by
    intro x hx
    rw [mem_without, h.met x hx, List.mem_append, List.mem_singleton, not_or]
  constructor
  · have same : (b.childIds id).filter (fun c => !(met ++ [id]).contains c) =
        (b.childIds id).filter ((without ahead id).contains ·) := by
      refine List.filter_congr fun c hc => ?_
      rw [Bool.eq_iff_iff, Bool.not_eq_true', ← Bool.not_eq_true, List.contains_iff_mem,
        List.contains_iff_mem]
      exact (hmet c (child hc)).symm
    unfold step
    dsimp only
    rw [if_neg ((h.met id below).1 hid), same]
  · refine ⟨hmet, fun x hx => ?_⟩
    rcases List.mem_append.1 hx with hx | hx
    · exact h.queue x (List.mem_cons_of_mem id hx)
    · exact child (List.mem_filter.1 hx).1

theorem Follows.step_skip (h : Follows b root ahead ⟨met, id :: queue⟩) (hid : id ∉ ahead) :
    step b ⟨met, id :: queue⟩ = ⟨met, queue⟩ ∧ Follows b root ahead ⟨met, queue⟩ := by
  have hmet : id ∈ met := by
    by_contra hnot
    exact hid ((h.met id (h.queue id List.mem_cons_self)).2 hnot)
  exact ⟨if_pos hmet, h.met, fun x hx => h.queue x (List.mem_cons_of_mem id hx)⟩

theorem Follows.iterate_step (h : Follows b root ahead ⟨met, queue⟩)
    (hn : turns b ahead queue ≤ n) :
    (step b)^[n] ⟨met, queue⟩ = ⟨met ++ b.walk ahead queue, []⟩ := by
  fun_induction walk b ahead queue generalizing met n
  case case1 ahead =>
    rw [List.append_nil]
    exact Function.iterate_fixed rfl n
  case case2 ahead id queue hid ahead' ih =>
    obtain ⟨turn, h⟩ := h.step_visit hid
    cases n with
    | zero => exact absurd (Nat.le_trans (turns_visit hid) hn) (Nat.not_succ_le_zero _)
    | succ n =>
      have fewer := Nat.le_of_succ_le_succ (Nat.le_trans (turns_visit hid) hn)
      rw [Function.iterate_succ_apply, turn, ih h fewer, List.append_assoc]
      rfl
  case case3 ahead id queue hid ih =>
    obtain ⟨turn, h⟩ := h.step_skip hid
    cases n with
    | zero => exact absurd hn (by simp [turns])
    | succ n =>
      have fewer : turns b ahead queue ≤ n := by
        unfold turns at hn ⊢
        rw [List.length_cons] at hn
        omega
      rw [Function.iterate_succ_apply, turn, ih h fewer]

end Search

theorem search_subtree (b : Board) (root : String) :
    (Search.step b)^[b.edges.rows.length + 1] ⟨[], [root]⟩ = ⟨b.subtree root, []⟩ := by
  have start : Search.Follows b root (root :: b.edges.rows.map (·.child)) ⟨[], [root]⟩ := by
    constructor
    · exact fun x hx => iff_of_true (ahead_of_mem_below hx) List.not_mem_nil
    · intro x hx
      obtain rfl := List.mem_singleton.1 hx
      exact Relation.ReflTransGen.refl
  refine start.iterate_step ?_
  rw [Search.turns, List.length_singleton, Nat.add_comm]
  exact Nat.succ_le_succ List.countP_le_length

theorem head?_subtree (b : Board) (root : String) : (b.subtree root).head? = some root := by
  rw [subtree, walk, if_pos List.mem_cons_self]
  rfl

theorem pairwise_subtree (b : Board) (root : String) :
    (b.subtree root).Pairwise fun x y => b.distance root x ≤ b.distance root y := by
  have start : b.Levels root (root :: b.edges.rows.map (·.child)) 0 [root] [] := by
    constructor
    · exact fun x hx => List.mem_singleton.1 hx
    · exact nofun
    · exact nofun
    · exact fun x hx _ => List.mem_singleton.2 hx
    · exact fun p hp hmet => absurd (ahead_of_mem_below hp) hmet
  exact start.pairwise_walk

theorem pair_sublist_subtree (hp : p ∈ b.subtree root) (hc : c ∈ b.subtree root)
    (h : b.distance root p < b.distance root c) : [p, c].Sublist (b.subtree root) := by
  have order := b.pairwise_subtree root
  obtain ⟨front, back, hsplit⟩ := List.append_of_mem hp
  rw [hsplit] at hc order ⊢
  rcases List.mem_append.1 hc with hc | hc
  · have before := (List.pairwise_append.1 order).2.2 c hc p List.mem_cons_self
    exact absurd h (Nat.not_lt.2 before)
  · rcases List.mem_cons.1 hc with rfl | hc
    · exact absurd h (Nat.lt_irrefl _)
    · exact ((List.singleton_sublist.2 hc).cons_cons p).trans (List.sublist_append_right front _)

/-- The loop for a subtree ends on any edges. It has then met the object, first, and all that is
below it, each id once, and no id before one that is nearer to the object. Where each id answers one
thing at most and no cycle goes through the object, an id comes after what it answers, and before it
in the order of a cascade. -/
theorem subtree_breadth_first (b : Board) (root : String) :
    (Search.step b)^[b.edges.rows.length + 1] ⟨[], [root]⟩ = ⟨b.subtree root, []⟩ ∧
    (b.subtree root).head? = some root ∧ (b.subtree root).Nodup ∧
    (∀ id, id ∈ b.subtree root ↔ id ∈ b.below root) ∧
    (b.subtree root).Pairwise (fun x y => b.distance root x ≤ b.distance root y) ∧
    ((∀ c p q, b.Answers c p → b.Answers c q → p = q) →
      ¬ Relation.TransGen (fun p c => b.Answers c p) root root →
      (∀ p ∈ b.subtree root, ¬ b.Answers root p) ∧
      ∀ c ∈ b.subtree root, c ≠ root → ∀ p, b.Answers c p →
        [p, c].Sublist (b.subtree root) ∧ [c, p].Sublist (b.subtree root).reverse) := by
  refine ⟨b.search_subtree root, b.head?_subtree root, b.nodup_walk _ _, fun _ => mem_subtree_iff,
    b.pairwise_subtree root, ?_⟩
  intro unique uncycled
  constructor
  · intro p hp he
    have down : Relation.ReflTransGen (fun p c => b.Answers c p) root p := mem_subtree_iff.1 hp
    exact uncycled (.tail' down he)
  · intro c hc hne p he
    obtain ⟨hp, hlt⟩ :=
      distance_lt_of_answers (fun q hq => unique c q p hq he) (mem_subtree_iff.1 hc) hne
    have order := pair_sublist_subtree (mem_subtree_iff.2 hp) hc hlt
    exact ⟨order, List.reverse_sublist.2 order⟩

theorem subtree_breadth_first_of_thread :
    let b : Board := { edges := .ofList [⟨"r", ""⟩, ⟨"a", "r"⟩, ⟨"b", "a"⟩, ⟨"x", "x"⟩] }
    (∀ c p q, b.Answers c p → b.Answers c q → p = q) ∧
      ¬ Relation.TransGen (fun p c => b.Answers c p) "r" "r" ∧
      b.subtree "r" = ["r", "a", "b"] ∧ ["b", "a"].Sublist (b.subtree "r").reverse := by
  intro b
  have unique : ∀ c p q, b.Answers c p → b.Answers c q → p = q := by
    have edges : ∀ e ∈ b.edges.rows, ∀ f ∈ b.edges.rows, e.child = f.child →
        e.parent = f.parent := by
      decide
    exact fun c p q hp hq => edges ⟨c, p⟩ hp ⟨c, q⟩ hq rfl
  have uncycled : ¬ Relation.TransGen (fun p c => b.Answers c p) "r" "r" := by
    have top : ∀ e ∈ b.edges.rows, e.child = "r" → e.parent = "" := by decide
    have bottom : ∀ e ∈ b.edges.rows, e.child ≠ "" := by decide
    intro h
    obtain ⟨p, down, hp⟩ := Relation.TransGen.tail'_iff.1 h
    obtain rfl := top ⟨"r", p⟩ hp rfl
    obtain heq | ⟨q, -, hq⟩ := Relation.ReflTransGen.cases_tail down
    · exact absurd heq (by decide)
    · exact bottom ⟨"", q⟩ hq rfl
  obtain ⟨loop, -, -, -, -, order⟩ := b.subtree_breadth_first "r"
  have walked : b.subtree "r" = ["r", "a", "b"] := (congrArg Search.met loop).symm.trans rfl
  have last : "b" ∈ b.subtree "r" := by
    rw [walked]
    decide
  obtain ⟨-, reversed⟩ := (order unique uncycled).2 "b" last (by decide) "a" (by decide)
  exact ⟨unique, uncycled, walked, reversed⟩

end Imageboard.Board
