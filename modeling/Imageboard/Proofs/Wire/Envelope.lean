import Imageboard.Proofs.Text.Cuts
import Imageboard.Wire.Envelope

namespace Imageboard

open Text

variable {excluded more rs xs ys : List String} {r : String}

/-- The trimmed recipients of a list that are neither blank nor excluded, as often as they are
there. -/
def eligible (excluded rs : List String) : List String :=
  (rs.map trim).filter fun r => r ≠ "" ∧ r ∉ excluded

theorem mem_eligible :
    r ∈ eligible excluded rs ↔ (∃ s ∈ rs, trim s = r) ∧ r ≠ "" ∧ r ∉ excluded := by
  simp [eligible]

theorem eligible_append (excluded xs ys : List String) :
    eligible excluded (xs ++ ys) = eligible excluded xs ++ eligible excluded ys := by
  simp [eligible]

theorem eligible_cons (excluded : List String) (s : String) (rs : List String) :
    eligible excluded (s :: rs) =
      if trim s = "" ∨ trim s ∈ excluded then eligible excluded rs
      else trim s :: eligible excluded rs := by
  unfold eligible
  rw [List.map_cons, List.filter_cons]
  by_cases out : trim s = "" ∨ trim s ∈ excluded
  · rw [if_pos out, if_neg (by simpa [imp_iff_not_or] using out)]
  · rw [if_neg out, if_pos (by simpa [not_or] using out)]

theorem eligible_of_subset (h : xs ⊆ eligible more rs) (hle : excluded ⊆ more) :
    eligible excluded xs = xs := by
  have settled : ∀ r ∈ xs, trim r = r ∧ r ≠ "" ∧ r ∉ excluded := by
    intro r hr
    obtain ⟨⟨s, -, rfl⟩, hne, hout⟩ := mem_eligible.1 (h hr)
    exact ⟨trim_trim s, hne, fun hmem => hout (hle hmem)⟩
  have trimmed : xs.map trim = xs :=
    (List.map_congr_left fun r hr => (settled r hr).1).trans (List.map_id' xs)
  rw [eligible, trimmed, List.filter_eq_self]
  exact fun r hr => decide_eq_true (settled r hr).2

theorem recipients_eq (excluded met rs : List String) :
    recipients excluded met rs = ((eligible excluded rs).filter (· ∉ met)).eraseDups := by
  induction rs generalizing met with
  | nil => rfl
  | cons s rs ih =>
    rw [recipients, eligible_cons]
    by_cases out : trim s = "" ∨ trim s ∈ excluded
    · rw [if_pos (or_assoc.1 (.inl out)), if_pos out, ih]
    · rw [if_neg out]
      by_cases before : trim s ∈ met
      · rw [if_pos (.inr (.inr before)), ih, List.filter_cons_of_neg (by simpa using before)]
      · have new : ¬ (trim s = "" ∨ trim s ∈ excluded ∨ trim s ∈ met) := by
          rw [← or_assoc, not_or]
          exact ⟨out, before⟩
        rw [if_neg new, ih, List.filter_cons_of_pos (by simpa using before), List.eraseDups_cons,
          List.filter_filter]
        congr 2
        refine List.filter_congr fun r _ => ?_
        by_cases same : r = trim s <;> simp [same]

theorem recipients_nil (excluded rs : List String) :
    recipients excluded [] rs = (eligible excluded rs).eraseDups := by
  rw [recipients_eq, List.filter_eq_self.2 (by simp)]

theorem nodup_eraseDups (xs : List String) : xs.eraseDups.Nodup := by
  cases xs with
  | nil => exact List.nodup_nil
  | cons x xs =>
    rw [List.eraseDups_cons, List.nodup_cons, List.mem_eraseDups]
    exact ⟨by simp, nodup_eraseDups _⟩
termination_by xs.length
decreasing_by exact Nat.lt_succ_of_le (List.length_filter_le _ _)

theorem eraseDups_of_nodup (h : xs.Nodup) : xs.eraseDups = xs := by
  induction xs with
  | nil => rfl
  | cons x xs ih =>
    obtain ⟨hx, hxs⟩ := List.nodup_cons.1 h
    have others : xs.filter (fun y => !y == x) = xs := by
      refine List.filter_eq_self.2 fun y hy => ?_
      have hne : y ≠ x := fun he => hx (he ▸ hy)
      simp [hne]
    rw [List.eraseDups_cons, others, ih hxs]

theorem eraseDups_append_eraseDups (xs ys : List String) :
    (xs.eraseDups ++ ys).eraseDups = (xs ++ ys).eraseDups := by
  have new : ys.removeAll xs.eraseDups = ys.removeAll xs := by
    unfold List.removeAll
    refine List.filter_congr fun y _ => ?_
    have same : xs.eraseDups.elem y = xs.elem y := by
      rw [Bool.eq_iff_iff, List.elem_iff, List.elem_iff, List.mem_eraseDups]
    rw [same]
  rw [List.eraseDups_append, List.eraseDups_append, eraseDups_of_nodup (nodup_eraseDups xs), new]

namespace Activity

theorem addRecipients_eq (a : Activity) (more : List String) :
    let told := (eligible [a.actorId] (a.addressees ++ more)).eraseDups
    a.addRecipients more = { a with addressees := told, cc := a.cc.filter (· ∉ told) } := by
  unfold addRecipients
  simp [recipients_nil]

theorem addRecipients_addRecipients (a : Activity) (xs ys : List String) :
    (a.addRecipients xs).addRecipients ys = a.addRecipients (xs ++ ys) := by
  rw [addRecipients_eq a xs, addRecipients_eq, addRecipients_eq a (xs ++ ys)]
  generalize ho : (eligible [a.actorId] (a.addressees ++ xs)).eraseDups = once
  generalize ht : (eligible [a.actorId] (a.addressees ++ (xs ++ ys))).eraseDups = twice
  have settled : eligible [a.actorId] once = once := by
    rw [← ho]
    exact eligible_of_subset (fun _ => List.mem_eraseDups.1) (List.Subset.refl _)
  have told : (eligible [a.actorId] (once ++ ys)).eraseDups = twice := by
    rw [eligible_append, settled, ← ho, eraseDups_append_eraseDups, ← eligible_append,
      List.append_assoc, ht]
  have copied : (a.cc.filter (· ∉ once)).filter (· ∉ twice) = a.cc.filter (· ∉ twice) := by
    have grows : once ⊆ twice := by
      intro r hr
      rw [← ho, List.mem_eraseDups] at hr
      rw [← ht, List.mem_eraseDups, ← List.append_assoc, eligible_append]
      exact List.mem_append_left _ hr
    rw [List.filter_filter]
    refine List.filter_congr fun r _ => ?_
    rw [Bool.eq_iff_iff, Bool.and_eq_true, decide_eq_true_iff, decide_eq_true_iff]
    exact ⟨And.left, fun h => ⟨h, fun hr => h (grows hr)⟩⟩
  have actor : actorId { a with addressees := once, cc := a.cc.filter (· ∉ once) } = a.actorId :=
    rfl
  simp only [actor, told, copied]

theorem foldl_addRecipients (a : Activity) (batch : List String) (batches : List (List String)) :
    (batch :: batches).foldl addRecipients a = a.addRecipients (batch :: batches).flatten := by
  induction batches generalizing batch with
  | nil =>
    rw [List.foldl_cons, List.foldl_nil, List.flatten_cons, List.flatten_nil, List.append_nil]
  | cons next batches ih =>
    rw [List.foldl_cons, List.foldl_cons, addRecipients_addRecipients]
    refine (ih (batch ++ next)).trans ?_
    rw [List.flatten_cons, List.flatten_cons, List.flatten_cons, List.append_assoc]

/-- An activity is told directly to those its object names, without the actor and the author, and
then to all that are added, without the actor; each of them once, where it is met first, and however
the added ones come in batches. The others that the object names in copy are told in copy, and
nobody is lost. -/
theorem told_in_batches (verb : Verb) (o : Object) (actor : Actor) (drawn : Bytes)
    (batch : List String) (batches : List (List String)) :
    let added := (batch :: batches).flatten
    let a := (batch :: batches).foldl addRecipients (wrap verb o actor drawn)
    let direct := eligible [actor.id, o.actor] o.addressees ++ eligible [actor.id] added
    let copied := eligible [actor.id, o.actor] o.cc
    a = (wrap verb o actor drawn).addRecipients added ∧
      a.addressees = direct.eraseDups ∧
      a.cc = copied.eraseDups.filter (· ∉ a.addressees) ∧
      a.addressees.Nodup ∧ a.cc.Nodup ∧ a.addressees.Disjoint a.cc ∧
      actor.id ∉ a.addressees ∧ actor.id ∉ a.cc ∧
      ∀ r, r ∈ a.addressees ∨ r ∈ a.cc ↔ r ∈ direct ∨ r ∈ copied := by
  intro added a direct copied
  have once : a = (wrap verb o actor drawn).addRecipients added := foldl_addRecipients ..
  have wrapped : (wrap verb o actor drawn).addressees =
      (eligible [actor.id, o.actor] o.addressees).eraseDups := recipients_nil ..
  have settled : eligible [actor.id] (eligible [actor.id, o.actor] o.addressees).eraseDups =
      (eligible [actor.id, o.actor] o.addressees).eraseDups :=
    eligible_of_subset (fun _ => List.mem_eraseDups.1) (by simp)
  have told : a.addressees = direct.eraseDups := by
    rw [once, addRecipients_eq]
    show (eligible [actor.id] ((wrap verb o actor drawn).addressees ++ added)).eraseDups = _
    rw [wrapped, eligible_append, settled, eraseDups_append_eraseDups]
  have inCopy : a.cc = copied.eraseDups.filter (· ∉ a.addressees) := by
    have cc : (wrap verb o actor drawn).cc = copied.eraseDups := recipients_nil ..
    rw [once, ← cc, addRecipients_eq]
  have mem_told (r : String) : r ∈ a.addressees ↔ r ∈ direct := by rw [told, List.mem_eraseDups]
  have mem_copied (r : String) : r ∈ a.cc ↔ r ∈ copied ∧ r ∉ a.addressees := by
    rw [inCopy, List.mem_filter, List.mem_eraseDups, decide_eq_true_iff]
  refine ⟨once, told, inCopy, ?_, ?_, ?_, ?_, ?_, ?_⟩
  · rw [told]
    exact nodup_eraseDups direct
  · rw [inCopy]
    exact (nodup_eraseDups copied).filter _
  · exact fun r hr hc => ((mem_copied r).1 hc).2 hr
  · rw [mem_told, List.mem_append, mem_eligible, mem_eligible]
    simp
  · rw [mem_copied, mem_eligible]
    simp
  · intro r
    rw [mem_copied, mem_told]
    by_cases hr : r ∈ direct <;> simp [hr]

end Activity
end Imageboard
