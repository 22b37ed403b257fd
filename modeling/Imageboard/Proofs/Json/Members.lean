import Imageboard.Json.Record
import Imageboard.Proofs.Json.Values
import Mathlib.Data.List.Nodup

namespace Imageboard.Json

variable {name : String} {x : Option Value} {fields : List (String × Option Value)} {depth : Nat}

theorem bind_of_eq_some {α β : Type} {a? : Option α} {a : α} {f : α → Option β} (h : a? = some a) :
    (a? >>= f) = f a :=
  h ▸ rfl

def given (fields : List (String × Option Value)) : Members :=
  fields.filterMap fun f => f.2.map (Prod.mk f.1)

theorem mem_given {m : String × Value} : m ∈ given fields ↔ (m.1, some m.2) ∈ fields := by
  obtain ⟨n, v⟩ := m
  simp [given]

theorem given_cons (f f' : String × Option Value) (fields : List (String × Option Value)) :
    given (f :: f' :: fields) = given [f] ++ given (f' :: fields) :=
  List.filterMap_append (l := [f])

theorem names_given (fields : List (String × Option Value)) :
    ((given fields).map Prod.fst).Sublist (fields.map Prod.fst) := by
  induction fields with
  | nil => exact .slnil
  | cons f fs ih =>
    obtain ⟨n, x⟩ := f
    cases x with
    | none => exact ih.cons n
    | some v => exact ih.cons_cons n

theorem lookup_given (hn : (fields.map Prod.fst).Nodup) (h : (name, x) ∈ fields) :
    (given fields).lookup name = x := by
  induction fields with
  | nil => cases h
  | cons f fs ih =>
    obtain ⟨n, y⟩ := f
    have fresh : n ∉ fs.map Prod.fst := (List.nodup_cons.1 hn).1
    have later := ih (List.nodup_cons.1 hn).2
    rcases List.mem_cons.1 h with he | hmem
    · cases he
      cases x with
      | some v => exact List.lookup_cons_self
      | none =>
        refine List.lookup_eq_none_iff.2 fun m hm => ?_
        rw [bne_iff_ne]
        rintro rfl
        have there : (m.1, some m.2) ∈ fs := mem_given.1 hm
        exact fresh (List.mem_map_of_mem (f := Prod.fst) there)
    · have other : (name == n) = false := by
        rw [beq_eq_false_iff_ne]
        rintro rfl
        exact fresh (List.mem_map_of_mem (f := Prod.fst) hmem)
      cases y with
      | none => exact later hmem
      | some v =>
        change List.lookup name ((n, v) :: given fs) = x
        rw [List.lookup_cons, other]
        exact later hmem

theorem members?_given (hn : (fields.map Prod.fst).Nodup) (names : List String) :
    Value.members? names (.obj (given fields)) = some (given fields) := by
  refine if_pos (List.all_eq_true.2 fun name _ => decide_eq_true ?_)
  have distinct : ((given fields).map Prod.fst).Nodup := (names_given fields).nodup hn
  have once := List.nodup_iff_count_le_one.1 distinct name
  rw [List.count_eq_countP, List.countP_map, List.countP_eq_length_filter] at once
  exact once

theorem forall_mem_given {p : Value → Prop} :
    (∀ m ∈ given fields, p m.2) ↔ ∀ f ∈ fields, ∀ v ∈ f.2, p v :=
  ⟨fun h f hf v hv => h (f.1, v) (mem_given.2 (by rwa [← Option.mem_def.1 hv])),
    fun h m hm => h _ (mem_given.1 hm) m.2 rfl⟩

theorem fits_given : Value.fits (.obj (given fields)) depth = true ↔
    0 < depth ∧ ∀ f ∈ fields, ∀ v ∈ f.2, v.fits (depth - 1) = true := by
  rw [Value.fits_obj]
  exact and_congr_right fun _ => forall_mem_given (p := fun v => v.fits (depth - 1) = true)

theorem isExact_given : Value.isExact (.obj (given fields)) = true ↔
    ∀ f ∈ fields, ∀ v ∈ f.2, v.isExact = true := by
  rw [Value.isExact, Value.isExactMembers_iff]
  exact forall_mem_given (p := fun v => v.isExact = true)

section Reading

variable {α : Type} {missing a : α} {read : Value → Option α}

theorem read_given (hn : (fields.map Prod.fst).Nodup) (h : (name, x) ∈ fields)
    (hx : x.elim (some missing) read = some a) :
    Members.read (given fields) name missing read = some a := by
  unfold Members.read
  rw [lookup_given hn h]
  cases x <;> exact hx

theorem mem_of_lookup {ms : Members} {v : Value} (h : ms.lookup name = some v) :
    (name, v) ∈ ms := by
  obtain ⟨before, after, he, -⟩ := List.lookup_eq_some_iff.1 h
  rw [he]
  exact List.mem_append_right before List.mem_cons_self

theorem read_eq_some {ms : Members} (h : ms.read name missing read = some a) :
    a = missing ∨ ∃ v, (name, v) ∈ ms ∧ read v = some a := by
  unfold Members.read at h
  split at h
  next v hv => exact .inr ⟨v, mem_of_lookup hv, h⟩
  next => exact .inl (Option.some.inj h).symm

end Reading

end Imageboard.Json
