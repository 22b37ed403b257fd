import Imageboard.Federation.Serving
import Imageboard.Proofs.Effects

namespace Imageboard.Serving

/-- Work from a node on ends with a result and a node as `Q` has it. -/
def Ends (x : Serving α) (n : Node) (Q : Except Fault α → Node → Prop) : Prop :=
  ∀ log, Q (x.run.run (n, log)).1 (x.run.run (n, log)).2.1

variable {α β : Type} {x : Serving α} {n : Node} {Q R : Except Fault α → Node → Prop}

theorem Ends.mono (h : Ends x n Q) (hQ : ∀ r n', Q r n' → R r n') : Ends x n R :=
  fun log => hQ _ _ (h log)

theorem ends_pure {a : α} : Ends (pure a) n Q ↔ Q (.ok a) n :=
  ⟨fun h => h [], fun h _ => h⟩

theorem ends_throw {f : Fault} : Ends (throw f) n Q ↔ Q (.error f) n :=
  ⟨fun h => h [], fun h _ => h⟩

theorem ends_change {f : Node → Node × α} : Ends (change f) n Q ↔ Q (.ok (f n).2) (f n).1 :=
  ⟨fun h => h [], fun h _ => h⟩

theorem ends_changeBoard {f : Board → Board × α} :
    Ends (changeBoard f) n Q ↔ Q (.ok (f n.board).2) { n with board := (f n.board).1 } :=
  ends_change

theorem ends_outward {x : Outward α} (h : ∀ r, Q r n) : Ends (outward x) n Q :=
  fun _ => h _

theorem run_outward_bind {x : Outward α} {f : α → Serving β} {log : Log} :
    (outward x >>= f).run.run (n, log) =
      match x.run.run log with
      | (.ok a, log') => (f a).run.run (n, log')
      | (.error e, log') => (.error e, n, log') := by
  change (ExceptT.bindCont f (x.run.run log).1) (n, (x.run.run log).2) = _
  rcases x.run.run log with ⟨_ | a, log'⟩ <;> rfl

theorem Ends.bind {f : α → Serving β} {R : Except Fault β → Node → Prop} (h : Ends x n Q)
    (hok : ∀ a n', Q (.ok a) n' → Ends (f a) n' R)
    (herror : ∀ e n', Q (.error e) n' → R (.error e) n') : Ends (x >>= f) n R := by
  intro log
  have hb : (x >>= f).run.run (n, log) = match x.run.run (n, log) with
      | (.ok a, s) => (f a).run.run s
      | (.error e, s) => (.error e, s) := by
    change (ExceptT.bindCont f (x.run.run (n, log)).1) (x.run.run (n, log)).2 = _
    rcases x.run.run (n, log) with ⟨_ | a, s⟩ <;> rfl
  have hx := h log
  rw [hb]
  rcases hr : x.run.run (n, log) with ⟨e | a, n', log'⟩ <;> rw [hr] at hx
  · exact herror e n' hx
  · exact hok a n' hx log'

theorem ends_board_bind {f : Board → Serving α} :
    Ends (board >>= f) n Q ↔ Ends (f n.board) n Q :=
  .rfl

theorem Ends.map {f : α → β} {R : Except Fault β → Node → Prop}
    (h : Ends x n fun r n' => R (r.map f) n') : Ends (do return f (← x)) n R :=
  h.bind (fun _ _ hr => ends_pure.2 hr) fun _ _ hr => hr

end Imageboard.Serving
