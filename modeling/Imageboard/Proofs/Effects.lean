import Imageboard.Fault

namespace Imageboard

section Chains

variable {ε α β : Type} {x : Except ε α} {f : α → Except ε β} {b : β}

theorem except_bind_eq_ok : (x >>= f) = .ok b ↔ ∃ a, x = .ok a ∧ f a = .ok b := by
  constructor
  · intro h
    cases x with
    | ok a => exact ⟨a, rfl, h⟩
    | error e => cases h
  · rintro ⟨a, rfl, h⟩
    exact h

theorem except_pure_eq_ok {a c : α} : (pure a : Except ε α) = .ok c ↔ a = c :=
  Except.ok.injEq a c ▸ .rfl

theorem except_map_fails_iff {g : α → β} : (∃ e, x.map g = .error e) ↔ ∃ e, x = .error e := by
  cases x with
  | ok a => exact iff_of_false (fun ⟨_, h⟩ => nomatch h) fun ⟨_, h⟩ => nomatch h
  | error e => exact iff_of_true ⟨e, rfl⟩ ⟨e, rfl⟩

theorem exists_of_isOk (h : x.isOk = true) : ∃ a, x = .ok a := by
  cases x with
  | ok a => exact ⟨a, rfl⟩
  | error e => cases h

theorem doing_eq_ok {task : Task} {x : Except Fault α} {a : α} :
    x.doing task = .ok a ↔ x = .ok a := by
  cases x with
  | ok b => rfl
  | error f => constructor <;> intro h <;> cases h

theorem orBreak_eq_ok {what : Breakdown} {x : Option α} {a : α} :
    x.orBreak what = .ok a ↔ x = some a := by
  constructor
  · intro h
    cases x with
    | none => cases h
    | some b => exact congrArg some (Except.ok.inj h)
  · rintro rfl
    rfl

theorem mapM_congr {g : α → Except ε β} {as : List α} (h : ∀ a ∈ as, f a = g a) :
    as.mapM f = as.mapM g := by
  induction as with
  | nil => rfl
  | cons a as ih =>
    rw [List.mapM_cons, List.mapM_cons, h a List.mem_cons_self,
      ih fun b hb => h b (List.mem_cons_of_mem a hb)]

theorem mapM_eq_ok {β : Type} {f : α → Except ε β} {g : α → β} (hg : ∀ a b, f a = .ok b → b = g a)
    {as : List α} {bs : List β} (h : as.mapM f = .ok bs) :
    bs = as.map g ∧ ∀ a ∈ as, f a = .ok (g a) := by
  induction as generalizing bs with
  | nil =>
    rw [List.mapM_nil] at h
    exact ⟨(except_pure_eq_ok.1 h).symm, nofun⟩
  | cons a as ih =>
    rw [List.mapM_cons] at h
    obtain ⟨b, hb, h⟩ := except_bind_eq_ok.1 h
    obtain ⟨cs, hcs, h⟩ := except_bind_eq_ok.1 h
    obtain rfl := except_pure_eq_ok.1 h
    obtain rfl := hg a b hb
    obtain ⟨rfl, hall⟩ := ih hcs
    refine ⟨rfl, fun c hc => ?_⟩
    rcases List.mem_cons.1 hc with rfl | hc
    · exact hb
    · exact hall c hc

end Chains

/-- Work with a state on the side succeeds: from the state `s` with the value `a` and the state
`s'`. -/
def Yields {ε σ α : Type} (x : ExceptT ε (StateM σ) α) (s : σ) (a : α) (s' : σ) : Prop :=
  x.run.run s = (.ok a, s')

def Fails {ε σ α : Type} (x : ExceptT ε (StateM σ) α) (s : σ) (e : ε) : Prop :=
  (x.run.run s).1 = .error e

section Work

variable {ε σ α β : Type} {s s' : σ} {a a' : α} {b : β}

theorem yields_of_run {x : ExceptT ε (StateM σ) α} (h : (x.run.run s).1 = .ok a) :
    Yields x s a (x.run.run s).2 :=
  Prod.ext h rfl

theorem yields_pure : Yields (pure a : ExceptT ε (StateM σ) α) s a' s' ↔ a = a' ∧ s = s' := by
  constructor
  · intro h
    cases h
    exact ⟨rfl, rfl⟩
  · rintro ⟨rfl, rfl⟩
    rfl

/-- A chain of work stops at the first error, and what was done to the state stays. -/
theorem run_bind_eq (x : ExceptT ε (StateM σ) α) (f : α → ExceptT ε (StateM σ) β) (s : σ) :
    (x >>= f).run.run s = match x.run.run s with
      | (.ok a, t) => (f a).run.run t
      | (.error e, t) => (.error e, t) := by
  change (ExceptT.bindCont f (x.run.run s).1) (x.run.run s).2 = _
  rcases x.run.run s with ⟨_ | a, t⟩ <;> rfl

theorem yields_bind {x : ExceptT ε (StateM σ) α} {f : α → ExceptT ε (StateM σ) β} :
    Yields (x >>= f) s b s' ↔ ∃ a t, Yields x s a t ∧ Yields (f a) t b s' := by
  unfold Yields
  rw [run_bind_eq]
  constructor
  · intro h
    rcases hx : x.run.run s with ⟨e | a, t⟩
    · rw [hx] at h
      cases h
    · rw [hx] at h
      exact ⟨a, t, rfl, h⟩
  · rintro ⟨a, t, hx, h⟩
    simpa only [hx] using h

theorem fails_bind {x : ExceptT ε (StateM σ) α} {f : α → ExceptT ε (StateM σ) β} {e : ε} :
    Fails (x >>= f) s e ↔ Fails x s e ∨ ∃ a t, Yields x s a t ∧ Fails (f a) t e := by
  unfold Fails Yields
  rw [run_bind_eq]
  rcases x.run.run s with ⟨fault | a, t⟩
  · constructor
    · intro h
      cases h
      exact .inl rfl
    · rintro (hx | ⟨_, _, hx, -⟩)
      · cases hx
        rfl
      · cases hx
  · refine ⟨fun h => .inr ⟨a, t, rfl, h⟩, ?_⟩
    rintro (hx | ⟨_, _, hx, h⟩)
    · cases hx
    · cases hx
      exact h

theorem yields_throw {e : ε} : ¬ Yields (throw e : ExceptT ε (StateM σ) α) s a s' := by
  intro h
  cases h

theorem yields_lift {x : Except ε α} :
    Yields (liftM x : ExceptT ε (StateM σ) α) s a s' ↔ x = .ok a ∧ s = s' := by
  constructor
  · intro h
    cases h
    exact ⟨rfl, rfl⟩
  · rintro ⟨rfl, rfl⟩
    rfl

theorem fails_lift {x : Except ε α} {e : ε} :
    Fails (liftM x : ExceptT ε (StateM σ) α) s e ↔ x = .error e :=
  .rfl

theorem run_bind {x : StateM σ α} {f : α → StateM σ β} :
    (x >>= f).run s = (f (x.run s).1).run (x.run s).2 :=
  rfl

end Work
end Imageboard
