namespace Imageboard

class Keyed (α : Type) where
  key : α → List String

open Keyed (key)

def InKeyOrder [Keyed α] (rows : List α) : Prop :=
  rows.Pairwise fun a b => key a < key b

structure Table (α : Type) [Keyed α] where
  rows : List α
  sorted : InKeyOrder rows

namespace Table

variable {α : Type} [Keyed α]

@[ext] theorem ext {t u : Table α} (h : t.rows = u.rows) : t = u := by
  cases t
  cases u
  cases h
  rfl

def empty : Table α :=
  ⟨[], .nil⟩

instance : EmptyCollection (Table α) := ⟨empty⟩
instance : Inhabited (Table α) := ⟨empty⟩

def get? (t : Table α) (k : List String) : Option α :=
  t.rows.find? fun a => key a == k

def contains (t : Table α) (k : List String) : Bool :=
  t.rows.any fun a => key a == k

def count (t : Table α) (p : α → Bool) : Nat :=
  t.rows.countP p

def filter (t : Table α) (p : α → Bool) : Table α :=
  ⟨t.rows.filter p, t.sorted.filter p⟩

def remove (t : Table α) (p : α → Bool) : Table α × Nat :=
  (t.filter fun a => !p a, t.count p)

/-- Changes the rows with a property, and tells how many there are. A change keeps the key. -/
def update (t : Table α) (p : α → Bool) (f : α → α) (keeps : ∀ a, key (f a) = key a) :
    Table α × Nat :=
  (⟨t.rows.map fun a => if p a then f a else a, by
    have h (a : α) : key (if p a then f a else a) = key a := by
      split
      · exact keeps a
      · rfl
    simpa [InKeyOrder, List.pairwise_map, h] using t.sorted⟩, t.count p)

def place (a : α) : List α → List α
  | [] => [a]
  | b :: bs =>
    if key a < key b then a :: b :: bs
    else if key a = key b then a :: bs
    else b :: place a bs

theorem mem_place {a c : α} {rows : List α} (h : c ∈ place a rows) : c = a ∨ c ∈ rows := by
  induction rows with
  | nil => simpa [place] using h
  | cons b bs ih =>
    unfold place at h
    split at h
    · simpa using h
    · split at h
      · simp only [List.mem_cons] at h ⊢
        exact h.imp_right .inr
      · simp only [List.mem_cons] at h ⊢
        rcases h with h | h
        · exact .inr (.inl h)
        · exact (ih h).imp_right .inr

theorem place_sorted (a : α) {rows : List α} (h : InKeyOrder rows) :
    InKeyOrder (place a rows) := by
  induction rows with
  | nil => exact .cons (by simp) .nil
  | cons b bs ih =>
    obtain ⟨hb, hs⟩ := List.pairwise_cons.1 h
    unfold place
    split
    next hlt =>
      refine List.pairwise_cons.2 ⟨fun c hc => ?_, h⟩
      rcases List.mem_cons.1 hc with rfl | hc
      · exact hlt
      · exact List.lt_trans hlt (hb c hc)
    next hlt =>
      split
      next heq => exact List.pairwise_cons.2 ⟨fun c hc => heq ▸ hb c hc, hs⟩
      next hne =>
        refine List.pairwise_cons.2 ⟨fun c hc => ?_, ih hs⟩
        rcases mem_place hc with rfl | hc
        · exact Classical.byContradiction fun h => hne (List.le_antisymm h hlt)
        · exact hb c hc

def put (t : Table α) (a : α) : Table α :=
  ⟨place a t.rows, place_sorted a t.sorted⟩

def insert? (t : Table α) (a : α) : Option (Table α) :=
  if t.contains (key a) then none else some (t.put a)

def insertNew (t : Table α) (a : α) : Table α × Bool :=
  if t.contains (key a) then (t, false) else (t.put a, true)

/-- The table of rows in any order; a later one replaces an earlier one of its key. -/
def ofList (rows : List α) : Table α :=
  rows.foldl put empty

end Table
end Imageboard
