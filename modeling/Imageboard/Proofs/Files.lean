import Imageboard.Files
import Imageboard.Proofs.Board.Table
import Imageboard.Proofs.Effects

namespace Imageboard.Files

variable {fs fs' : Files} {p : String} {ps names ns here steps : List String} {slashed : Bool}
  {spot : Spot} {d : FileNode} {e : FileEntry} {t : String}

def textAt? (fs : Files) (p : String) : Option (List String) :=
  match fs.locate p with
  | .ok (.name names false) =>
    match fs.node? names with
    | some (.text _) => some names
    | _ => none
  | _ => none

theorem textAt?_eq_some_iff : fs.textAt? p = some ns ↔
    fs.locate p = .ok (.name ns false) ∧ ∃ t, fs.node? ns = some (.text t) := by
  unfold textAt?
  constructor
  · intro h
    split at h
    next names hl =>
      split at h
      next t hn =>
        obtain rfl := Option.some.inj h
        exact ⟨hl, t, hn⟩
      next => cases h
    next => cases h
  · rintro ⟨hl, t, hn⟩
    simp only [hl, hn]

theorem remove_of_textAt (h : fs.textAt? p = some names) :
    fs.remove p = .ok (fs.filter fun e => e.path != names) := by
  obtain ⟨hl, t, hn⟩ := textAt?_eq_some_iff.1 h
  unfold remove
  rw [hl]
  dsimp only [bind, Except.bind]
  rw [hn]
  rfl

theorem remove_of_textAt_none (h : fs.textAt? p = none) : ∃ f, fs.remove p = .error f := by
  cases hr : fs.remove p with
  | error f => exact ⟨f, rfl⟩
  | ok fs' =>
    unfold remove at hr
    obtain ⟨spot, hl, hr⟩ := except_bind_eq_ok.1 hr
    cases spot with
    | directory => cases hr
    | name names slashed =>
      dsimp only at hr
      split at hr
      next => cases hr
      next => cases hr
      next t hn =>
        cases slashed with
        | true => cases hr
        | false =>
          rw [textAt?_eq_some_iff.2 ⟨hl, t, hn⟩] at h
          cases h

theorem node?_eq_some_iff : fs.node? ns = some d ↔
    if ns = [] then d = .directory else ⟨ns, d⟩ ∈ fs.rows := by
  unfold node?
  split
  next h =>
    rw [if_pos (List.isEmpty_iff.1 h), Option.some.injEq]
    exact eq_comm
  next h =>
    rw [if_neg fun hn => h (List.isEmpty_iff.2 hn), Option.map_eq_some_iff]
    constructor
    · rintro ⟨e, he, rfl⟩
      obtain ⟨hmem, rfl⟩ := Table.get?_eq_some_iff.1 he
      exact hmem
    · exact fun hmem => ⟨_, Table.get?_eq_some_iff.2 ⟨hmem, rfl⟩, rfl⟩

theorem node?_filter (h : fs.node? names = some (.text t)) :
    node? (fs.filter fun e => e.path != names) ns = some d ↔ fs.node? ns = some d ∧ ns ≠ names := by
  have named : names ≠ [] := by
    rintro rfl
    cases node?_eq_some_iff.1 h
  rw [node?_eq_some_iff, node?_eq_some_iff]
  split
  next hn => simp [hn, named.symm]
  next => simp

theorem follow_mono (h : ∀ ns, fs.node? ns = some .directory → fs'.node? ns = some .directory)
    (hf : fs.follow slashed here steps = .ok spot) : fs'.follow slashed here steps = .ok spot := by
  induction steps generalizing here with
  | nil => exact hf
  | cons s rest ih =>
    unfold follow at hf ⊢
    dsimp only at hf ⊢
    split at hf
    next hdots =>
      rw [if_pos hdots]
      exact ih hf
    next hdots =>
      rw [if_neg hdots]
      split at hf
      next => cases hf
      next hsize =>
        rw [if_neg hsize]
        split at hf
        next hlast =>
          rw [if_pos hlast]
          exact hf
        next hlast =>
          rw [if_neg hlast]
          split at hf
          next => cases hf
          next => cases hf
          next hn =>
            rw [h _ hn]
            exact ih hf

structure Followed (p : String) : Prop where
  named : '\x00' ∉ p.toList
  nonempty : p ≠ ""
  size : p.utf8ByteSize ≤ maxPath

theorem locate_eq_follow (h : Followed p) : fs.locate p =
    fs.follow (p.toList.getLast? == some '/') (Path.start p) (Path.steps p) := by
  unfold locate
  rw [if_neg, if_neg h.nonempty, if_neg (Nat.not_lt_of_le h.size)]
  rw [List.contains_iff_mem]
  exact h.named

theorem followed_of_locate (h : fs.locate p = .ok spot) : Followed p := by
  unfold locate at h
  split at h
  next => cases h
  next hname =>
    split at h
    next => cases h
    next hempty =>
      split at h
      next => cases h
      next hsize =>
        rw [List.contains_iff_mem] at hname
        exact ⟨hname, hempty, Nat.le_of_not_lt hsize⟩

theorem locate_mono (h : ∀ ns, fs.node? ns = some .directory → fs'.node? ns = some .directory)
    (hf : fs.locate p = .ok spot) : fs'.locate p = .ok spot := by
  have followed := followed_of_locate hf
  rw [locate_eq_follow followed] at hf ⊢
  exact follow_mono h hf

theorem locate_eq_ok_iff
    (h : ∀ ns, fs'.node? ns = some .directory ↔ fs.node? ns = some .directory) :
    fs'.locate p = .ok spot ↔ fs.locate p = .ok spot :=
  ⟨locate_mono fun ns => (h ns).1, locate_mono fun ns => (h ns).2⟩

theorem textAt?_filter (h : fs.node? names = some (.text t)) :
    textAt? (fs.filter fun e => e.path != names) p = some ns ↔
      fs.textAt? p = some ns ∧ ns ≠ names := by
  have directories (ns : List String) :
      node? (fs.filter fun e => e.path != names) ns = some .directory ↔
        fs.node? ns = some .directory := by
    rw [node?_filter h]
    refine ⟨And.left, fun hn => ⟨hn, ?_⟩⟩
    rintro rfl
    rw [h] at hn
    cases hn
  simp only [textAt?_eq_some_iff, locate_eq_ok_iff directories, node?_filter h, exists_and_right,
    and_assoc]

/-- What a removal takes away exactly if it is that of the text of some names is left, after
removals of some paths, if it was there and none of the paths led to that text. -/
theorem removeAll_iff {P : Files → Prop}
    (step : ∀ (fs : Files) names t, fs.node? names = some (.text t) →
      (P (fs.filter fun e => e.path != names) ↔ P fs ∧ ns ≠ names)) :
    P (fs.removeAll ps).1 ↔ P fs ∧ ∀ p ∈ ps, fs.textAt? p ≠ some ns := by
  unfold removeAll
  generalize 0 = k
  induction ps generalizing fs k with
  | nil => simp
  | cons p ps ih =>
    rw [List.foldl_cons, List.forall_mem_cons]
    cases ht : fs.textAt? p with
    | none =>
      obtain ⟨f, hf⟩ := remove_of_textAt_none ht
      simp only [hf, ih, reduceCtorEq, ne_eq, not_false_eq_true, true_and]
    | some names =>
      obtain ⟨-, t, hn⟩ := textAt?_eq_some_iff.1 ht
      simp only [remove_of_textAt ht, ih, step fs names t hn, ne_eq, textAt?_filter hn,
        Option.some.injEq]
      constructor
      · rintro ⟨⟨hp, hne⟩, hps⟩
        exact ⟨hp, fun h => hne h.symm, fun p hmem h => hps p hmem ⟨h, hne⟩⟩
      · rintro ⟨hp, hne, hps⟩
        exact ⟨⟨hp, fun h => hne h.symm⟩, fun p hmem h => hps p hmem h.1⟩

/-- Of all files those stay that none of the paths leads to. -/
theorem mem_removeAll :
    e ∈ (fs.removeAll ps).1.rows ↔ e ∈ fs.rows ∧ ∀ p ∈ ps, fs.textAt? p ≠ some e.path :=
  removeAll_iff (P := fun fs => e ∈ fs.rows) fun _ _ _ _ => by rw [Table.mem_filter, bne_iff_ne]

theorem textAt?_removeAll : (fs.removeAll ps).1.textAt? p = some ns ↔
    fs.textAt? p = some ns ∧ ∀ q ∈ ps, fs.textAt? q ≠ some ns :=
  removeAll_iff (P := fun fs => fs.textAt? p = some ns) fun _ _ _ hn => textAt?_filter hn

theorem removeAll_of_textAt_none (h : ∀ p ∈ ps, fs.textAt? p = none) :
    fs.removeAll ps = (fs, 0) := by
  unfold removeAll
  induction ps with
  | nil => rfl
  | cons p ps ih =>
    obtain ⟨first, rest⟩ := List.forall_mem_cons.1 h
    obtain ⟨f, hf⟩ := remove_of_textAt_none first
    rw [List.foldl_cons]
    simp only [hf]
    exact ih rest

theorem removeAll_removeAll {qs : List String} (h : qs ⊆ ps) :
    (fs.removeAll ps).1.removeAll qs = ((fs.removeAll ps).1, 0) := by
  refine removeAll_of_textAt_none fun q hq => Option.eq_none_iff_forall_ne_some.2 fun ns hns => ?_
  obtain ⟨before, spared⟩ := textAt?_removeAll.1 hns
  exact spared q (h hq) before

end Imageboard.Files
