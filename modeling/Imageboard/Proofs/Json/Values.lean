import Imageboard.Proofs.Json.Text
import Mathlib.Data.String.Basic

namespace Imageboard.Json

def Number.isKept : Number → Bool
  | int n => -0x8000000000000000 ≤ n && n ≤ 0xFFFFFFFFFFFFFFFF
  | float _ => true

def Number.isWhole : Number → Bool
  | int _ => true
  | float _ => false

namespace Value

variable {name : String} {v w : Value} {m : String × Value} {items : List Value}
  {done members : List (String × Value)} {depth : Nat} {p : Number → Bool}

mutual

def allNumbers (p : Number → Bool) : Value → Bool
  | .num n => p n
  | .arr items => allNumbersItems p items
  | .obj members => allNumbersMembers p members
  | _ => true

def allNumbersItems (p : Number → Bool) : List Value → Bool
  | [] => true
  | v :: vs => allNumbers p v && allNumbersItems p vs

def allNumbersMembers (p : Number → Bool) : List (String × Value) → Bool
  | [] => true
  | (_, v) :: ms => allNumbers p v && allNumbersMembers p ms

end

theorem induct {P : Value → Prop} (null : P .null) (bool : ∀ b, P (.bool b)) (num : ∀ n, P (.num n))
    (str : ∀ s, P (.str s)) (malformed : P .malformed)
    (arr : ∀ items : List Value, (∀ v ∈ items, P v) → P (.arr items))
    (obj : ∀ members : List (String × Value), (∀ m ∈ members, P m.2) → P (.obj members)) :
    ∀ v, P v
  | .null => null
  | .bool b => bool b
  | .num n => num n
  | .str s => str s
  | .malformed => malformed
  | .arr items => arr items fun v _ => induct null bool num str malformed arr obj v
  | .obj members => obj members fun m _ => induct null bool num str malformed arr obj m.2
termination_by v => sizeOf v
decreasing_by
  · have smaller := List.sizeOf_lt_of_mem ‹v ∈ items›
    simp
    omega
  · have smaller := List.sizeOf_lt_of_mem ‹m ∈ members›
    obtain ⟨n, v⟩ := m
    simp at smaller ⊢
    omega

theorem fitsAll_iff : fitsAll items depth = true ↔ ∀ v ∈ items, v.fits depth = true := by
  induction items with
  | nil => simp [fitsAll]
  | cons v vs ih => simp [fitsAll, ih]

theorem fitsMembers_iff :
    fitsMembers members depth = true ↔ ∀ m ∈ members, m.2.fits depth = true := by
  induction members with
  | nil => simp [fitsMembers]
  | cons m ms ih => simp [fitsMembers, ih]

theorem isExactAll_iff : isExactAll items = true ↔ ∀ v ∈ items, v.isExact = true := by
  induction items with
  | nil => simp [isExactAll]
  | cons v vs ih => simp [isExactAll, ih]

theorem isExactMembers_iff :
    isExactMembers members = true ↔ ∀ m ∈ members, m.2.isExact = true := by
  induction members with
  | nil => simp [isExactMembers]
  | cons m ms ih => simp [isExactMembers, ih]

theorem fits_arr :
    fits (.arr items) depth = true ↔ 0 < depth ∧ ∀ v ∈ items, v.fits (depth - 1) = true := by
  rw [fits, Bool.and_eq_true, decide_eq_true_eq, fitsAll_iff]

theorem fits_obj :
    fits (.obj members) depth = true ↔ 0 < depth ∧ ∀ m ∈ members, m.2.fits (depth - 1) = true := by
  rw [fits, Bool.and_eq_true, decide_eq_true_eq, fitsMembers_iff]

theorem allNumbers_arr :
    allNumbers p (.arr items) = true ↔ ∀ v ∈ items, v.allNumbers p = true := by
  rw [allNumbers]
  induction items with
  | nil => simp [allNumbersItems]
  | cons v vs ih => simp [allNumbersItems, ih]

theorem allNumbers_obj :
    allNumbers p (.obj members) = true ↔ ∀ m ∈ members, m.2.allNumbers p = true := by
  rw [allNumbers]
  induction members with
  | nil => simp [allNumbersMembers]
  | cons m ms ih => simp [allNumbersMembers, ih]

/-- A value that can be used is given back by its text if its numbers are whole and kept. -/
theorem isExact_of_fits (hfits : v.fits depth = true) (kept : v.allNumbers Number.isKept = true)
    (whole : v.allNumbers Number.isWhole = true) : v.isExact = true := by
  induction v using induct generalizing depth with
  | null | bool | str => rfl
  | num n =>
    cases n with
    | int n => exact kept
    | float x => cases whole
  | malformed => cases hfits
  | arr items ih =>
    rw [isExact, isExactAll_iff]
    exact fun v hv => ih v hv ((fits_arr.1 hfits).2 v hv) (allNumbers_arr.1 kept v hv)
      (allNumbers_arr.1 whole v hv)
  | obj members ih =>
    rw [isExact, isExactMembers_iff]
    exact fun m hm => ih m hm ((fits_obj.1 hfits).2 m hm) (allNumbers_obj.1 kept m hm)
      (allNumbers_obj.1 whole m hm)

theorem sortedAll_eq (items : List Value) : sortedAll items = items.map sorted := by
  induction items with
  | nil => rfl
  | cons v vs ih => rw [sortedAll, ih, List.map_cons]

theorem mem_insertMember (h : m ∈ insertMember name v members) : m = (name, v) ∨ m ∈ members := by
  induction members with
  | nil => exact .inl (List.mem_singleton.1 h)
  | cons d ms ih =>
    obtain ⟨n, w⟩ := d
    unfold insertMember at h
    split at h
    next => exact List.mem_cons.1 h
    next =>
      split at h
      next => exact (List.mem_cons.1 h).imp_right (List.mem_cons_of_mem _)
      next =>
        rcases List.mem_cons.1 h with rfl | h
        · exact .inr List.mem_cons_self
        · exact (ih h).imp_right (List.mem_cons_of_mem _)

theorem mem_sortedMembers (h : m ∈ sortedMembers done members) :
    m ∈ done ∨ ∃ d ∈ members, d.2.sorted = m.2 := by
  induction members generalizing done with
  | nil => exact .inl h
  | cons d ms ih =>
    obtain ⟨n, v⟩ := d
    rcases ih h with hd | ⟨d, hd, he⟩
    · rcases mem_insertMember hd with rfl | hd
      · exact .inr ⟨(n, v), List.mem_cons_self, rfl⟩
      · exact .inl hd
    · exact .inr ⟨d, List.mem_cons_of_mem _ hd, he⟩

theorem mem_sorted_obj (h : m ∈ sortedMembers [] members) : ∃ d ∈ members, d.2.sorted = m.2 :=
  (mem_sortedMembers h).resolve_left List.not_mem_nil

theorem fits_sorted (v : Value) (h : v.fits depth = true) : v.sorted.fits depth = true := by
  induction v using induct generalizing depth with
  | null | bool | num | str | malformed => exact h
  | arr items ih =>
    obtain ⟨hpos, hitems⟩ := fits_arr.1 h
    rw [sorted, sortedAll_eq, fits_arr]
    exact ⟨hpos, List.forall_mem_map.2 fun v hv => ih v hv (hitems v hv)⟩
  | obj members ih =>
    obtain ⟨hpos, hmembers⟩ := fits_obj.1 h
    rw [sorted, fits_obj]
    refine ⟨hpos, fun m hm => ?_⟩
    obtain ⟨d, hd, he⟩ := mem_sorted_obj hm
    exact he ▸ ih d hd (hmembers d hd)

theorem allNumbers_sorted (v : Value) (h : v.allNumbers p = true) :
    v.sorted.allNumbers p = true := by
  induction v using induct with
  | null | bool | num | str | malformed => exact h
  | arr items ih =>
    rw [sorted, sortedAll_eq, allNumbers_arr]
    exact List.forall_mem_map.2 fun v hv => ih v hv (allNumbers_arr.1 h v hv)
  | obj members ih =>
    rw [sorted, allNumbers_obj]
    intro m hm
    obtain ⟨d, hd, he⟩ := mem_sorted_obj hm
    exact he ▸ ih d hd (allNumbers_obj.1 h d hd)

/-- Members in the order of their names, each of which stands once. -/
def Rising (members : List (String × Value)) : Prop :=
  members.Pairwise fun m d => m.1 < d.1

theorem rising_insertMember (h : Rising members) : Rising (insertMember name v members) := by
  induction members with
  | nil => exact List.pairwise_singleton _ _
  | cons d ms ih =>
    obtain ⟨n, w⟩ := d
    obtain ⟨first, rest⟩ := List.pairwise_cons.1 h
    unfold insertMember
    split
    next before =>
      refine List.pairwise_cons.2 ⟨fun m hm => ?_, h⟩
      rcases List.mem_cons.1 hm with rfl | hm
      · exact before
      · exact before.trans (first m hm)
    next before =>
      split
      next same =>
        rw [same]
        exact List.pairwise_cons.2 ⟨first, rest⟩
      next other =>
        refine List.pairwise_cons.2 ⟨fun m hm => ?_, ih rest⟩
        rcases mem_insertMember hm with rfl | hm
        · exact (lt_or_gt_of_ne other).resolve_left before
        · exact first m hm

theorem rising_sortedMembers (h : Rising done) : Rising (sortedMembers done members) := by
  induction members generalizing done with
  | nil => exact h
  | cons d ms ih => exact ih (rising_insertMember h)

theorem insertMember_last (h : ∀ m ∈ done, m.1 < name) :
    insertMember name v done = done ++ [(name, v)] := by
  induction done with
  | nil => rfl
  | cons m ms ih =>
    obtain ⟨n, w⟩ := m
    have before : n < name := h (n, w) List.mem_cons_self
    rw [insertMember, if_neg (lt_asymm before), if_neg before.ne',
      ih fun m hm => h m (List.mem_cons_of_mem _ hm)]
    rfl

theorem sortedMembers_of_rising (h : Rising (done ++ members))
    (same : ∀ m ∈ members, m.2.sorted = m.2) : sortedMembers done members = done ++ members := by
  induction members generalizing done with
  | nil => exact (List.append_nil done).symm
  | cons m ms ih =>
    obtain ⟨n, v⟩ := m
    have last : ∀ d ∈ done, d.1 < n := fun d hd =>
      (List.pairwise_append.1 h).2.2 d hd _ List.mem_cons_self
    have split : done ++ (n, v) :: ms = done ++ [(n, v)] ++ ms := List.append_cons ..
    rw [sortedMembers, same _ List.mem_cons_self, insertMember_last last, split]
    exact ih (split ▸ h) fun m hm => same m (List.mem_cons_of_mem _ hm)

theorem sorted_sorted (v : Value) : v.sorted.sorted = v.sorted := by
  induction v using induct with
  | null | bool | num | str | malformed => rfl
  | arr items ih =>
    rw [sorted, sorted, sortedAll_eq, sortedAll_eq, List.map_map]
    exact congrArg Value.arr (List.map_congr_left ih)
  | obj members ih =>
    rw [sorted, sorted]
    refine congrArg Value.obj (sortedMembers_of_rising ?_ fun m hm => ?_)
    · exact rising_sortedMembers List.Pairwise.nil
    · obtain ⟨d, hd, he⟩ := mem_sorted_obj hm
      exact he ▸ ih d hd

end Value

theorem absorb_le {ds : List Char} {n taken : Nat} (h : n ≤ maxWord) :
    (absorb n taken ds).1 ≤ maxWord := by
  induction ds generalizing n taken with
  | nil => exact h
  | cons d ds ih =>
    unfold absorb
    dsimp only
    split
    next => exact h
    next hle => exact ih (Nat.le_of_not_lt hle)

open Value in
theorem allNumbers_numberValue (negative : Bool) (whole : List Char) (fraction : Option (List Char))
    (exponent : Option Int) :
    (numberValue negative whole fraction exponent).allNumbers Number.isKept = true := by
  have bound : (absorb 0 0 whole).1 ≤ maxWord := absorb_le (Nat.zero_le _)
  unfold numberValue
  dsimp only
  split
  next h =>
    simp only [Bool.and_eq_true, Bool.or_eq_true, decide_eq_true_eq, Bool.not_eq_true'] at h
    simp only [allNumbers, Number.isKept, Bool.and_eq_true, decide_eq_true_eq]
    unfold maxWord at bound
    split
    next hneg =>
      have small := h.2.resolve_left (by simp [hneg])
      omega
    next => omega
  next =>
    repeat' split
    all_goals rfl

open Value in
theorem allNumbers_of_number? {cs rest : List Char} {v : Value} (h : number? cs = some (v, rest)) :
    v.allNumbers Number.isKept = true := by
  unfold number? at h
  dsimp only [bind, pure] at h
  split at h
  all_goals
    dsimp only at h
    split at h
    next => cases h
    next =>
      repeat' split at h
      all_goals
        obtain ⟨_, -, h⟩ := Option.bind_eq_some_iff.1 h
        split at h
        all_goals
          obtain ⟨_, -, h⟩ := Option.bind_eq_some_iff.1 h
          cases h
          exact allNumbers_numberValue ..

namespace Value

/-- What is read of a value, of items or of members within so many steps, after what was read
before, holds no other numbers than those that are kept. -/
structure ReadsKept (fuel : Nat) : Prop where
  value {cs rest : List Char} {v : Value} (h : value? fuel cs = some (v, rest)) :
    v.allNumbers Number.isKept = true
  items {done vs : List Value} {cs rest : List Char} (h : items? fuel done cs = some (vs, rest))
    (hdone : ∀ v ∈ done, v.allNumbers Number.isKept = true) :
    ∀ v ∈ vs, v.allNumbers Number.isKept = true
  members {done ms : List (String × Value)} {whole whole' : Bool} {cs rest : List Char}
    (h : Json.members? fuel done whole cs = some (ms, whole', rest))
    (hdone : ∀ m ∈ done, m.2.allNumbers Number.isKept = true) :
    ∀ m ∈ ms, m.2.allNumbers Number.isKept = true

namespace ReadsKept

variable {fuel : Nat} {cs rest : List Char} (reads : ReadsKept fuel)
include reads

theorem value_succ {v : Value} (h : value? (fuel + 1) cs = some (v, rest)) :
    v.allNumbers Number.isKept = true := by
  unfold value? at h
  split at h
  · cases h
  · split at h
    · cases h
      rfl
    · split at h
      next hms =>
        cases h
        split
        next => exact allNumbers_obj.2 (reads.members hms (List.forall_mem_nil _))
        next => rfl
      next => cases h
  · split at h
    · cases h
      rfl
    · split at h
      next hvs =>
        cases h
        exact allNumbers_arr.2 (reads.items hvs (List.forall_mem_nil _))
      next => cases h
  · split at h <;> cases h <;> rfl
  · obtain ⟨_, -, he⟩ := Option.map_eq_some_iff.1 h
    cases he
    rfl
  · obtain ⟨_, -, he⟩ := Option.map_eq_some_iff.1 h
    cases he
    rfl
  · obtain ⟨_, -, he⟩ := Option.map_eq_some_iff.1 h
    cases he
    rfl
  · exact allNumbers_of_number? h

theorem items_succ {done vs : List Value} (h : items? (fuel + 1) done cs = some (vs, rest))
    (hdone : ∀ v ∈ done, v.allNumbers Number.isKept = true) :
    ∀ v ∈ vs, v.allNumbers Number.isKept = true := by
  unfold items? at h
  split at h
  next => cases h
  next v cs hv =>
    have more : ∀ w ∈ v :: done, w.allNumbers Number.isKept = true :=
      List.forall_mem_cons.2 ⟨reads.value hv, hdone⟩
    split at h
    next => exact reads.items h more
    next =>
      cases h
      exact fun w hw => more w (List.mem_reverse.1 hw)
    next => cases h

theorem members_succ {done ms : List (String × Value)} {whole whole' : Bool}
    (h : Json.members? (fuel + 1) done whole cs = some (ms, whole', rest))
    (hdone : ∀ m ∈ done, m.2.allNumbers Number.isKept = true) :
    ∀ m ∈ ms, m.2.allNumbers Number.isKept = true := by
  unfold Json.members? at h
  split at h
  next =>
    split at h
    next => cases h
    next name _ _ =>
      split at h
      next =>
        split at h
        next => cases h
        next v _ hv =>
          have more : ∀ m ∈ (name.getD "", v) :: done, m.2.allNumbers Number.isKept = true :=
            List.forall_mem_cons.2 ⟨reads.value hv, hdone⟩
          dsimp only at h
          split at h
          next => exact reads.members h more
          next =>
            cases h
            exact fun m hm => more m (List.mem_reverse.1 hm)
          next => cases h
      next => cases h
  next => cases h

end ReadsKept

theorem readsKept (fuel : Nat) : ReadsKept fuel := by
  induction fuel with
  | zero =>
    constructor
    case value =>
      intro cs rest v h
      cases h
    case items =>
      intro done vs cs rest h
      cases h
    case members =>
      intro done ms whole whole' cs rest h
      cases h
  | succ fuel ih => exact ⟨ih.value_succ, ih.items_succ, ih.members_succ⟩

end Value

theorem allNumbers_of_parse? {s : String} {v : Value} (h : parse? s = some v) :
    v.allNumbers Number.isKept = true := by
  unfold parse? at h
  dsimp only at h
  split at h
  next hv =>
    split at h
    next =>
      cases h
      exact (Value.readsKept _).value hv
    next => cases h
  next => cases h

end Imageboard.Json
