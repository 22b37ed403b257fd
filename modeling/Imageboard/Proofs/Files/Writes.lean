import Imageboard.Proofs.Files
import Imageboard.Proofs.Path

namespace Imageboard

namespace Disk

variable {disk : Disk} {p t : String}

/-- What a file holds after a text was written to it. -/
def taken (disk : Disk) (p t : String) : String :=
  ((disk.cut? p t).map Prod.fst).getD t

/-- A text that is cut is shorter than it was. -/
theorem taken_eq_iff : disk.taken p t = t ↔ disk.cut? p t = none := by
  unfold taken
  cases hc : disk.cut? p t with
  | none => exact iff_of_true rfl rfl
  | some part =>
    refine iff_of_false (fun he => ?_) nofun
    obtain ⟨⟨n, f⟩, -, hcut⟩ := Option.bind_eq_some_iff.1 hc
    dsimp only at hcut
    split at hcut
    next => cases hcut
    next hlong =>
      cases hcut
      have hlen : (String.ofList (t.toList.take n)).toList.length = t.toList.length := by
        rw [show String.ofList (t.toList.take n) = t from he]
      rw [String.toList_ofList, List.length_take, String.length_toList] at hlen
      omega

end Disk

namespace Files

open Imageboard.Path (IsLeaf)

variable {fs fs' : Files} {disk : Disk} {p q dir leaf t : String}
  {ps ns ms here steps : List String} {slashed : Bool} {spot : Spot} {d : FileNode}
  {e : FileEntry} {left : List FileEntry}

theorem node?_put (h : ns ≠ []) :
    node? (fs.put ⟨ns, d⟩) ms = if ms = ns then some d else fs.node? ms := by
  ext c
  by_cases hms : ms = []
  · have hne : ms ≠ ns := fun he => h (he ▸ hms)
    rw [if_neg hne, node?_eq_some_iff, node?_eq_some_iff, if_pos hms, if_pos hms]
  · rw [node?_eq_some_iff, if_neg hms, Table.mem_put]
    split
    next he => simp [he, Keyed.key, eq_comm]
    next he => simp [he, Keyed.key, node?_eq_some_iff, hms]

theorem path_ne_of_free (h : fs.node? ns = none) (he : e ∈ fs.rows) : e.path ≠ ns := by
  rintro rfl
  have named : e.path ≠ [] := by
    intro hnil
    rw [hnil] at h
    cases h
  have there : fs.node? e.path = some e.node := by
    rw [node?_eq_some_iff, if_neg named]
    exact he
  rw [h] at there
  cases there

theorem mem_put_of_free (h : fs.node? ns = none) :
    e ∈ (fs.put ⟨ns, d⟩).rows ↔ e = ⟨ns, d⟩ ∨ e ∈ fs.rows := by
  rw [Table.mem_put]
  exact or_congr_right ⟨And.left, fun he => ⟨he, path_ne_of_free h he⟩⟩

theorem read_eq_ok_iff : fs.read p = .ok t ↔
    ∃ ns, fs.locate p = .ok (.name ns false) ∧ fs.node? ns = some (.text t) := by
  constructor
  · intro h
    obtain ⟨node, hfind, h⟩ := except_bind_eq_ok.1 h
    obtain ⟨spot, hl, hfind⟩ := except_bind_eq_ok.1 hfind
    cases spot with
    | directory =>
      cases hfind
      cases h
    | name ns slashed =>
      dsimp only at hfind
      split at hfind
      next => cases hfind
      next t' hn =>
        cases slashed with
        | true => cases hfind
        | false =>
          cases hfind
          cases h
          exact ⟨ns, hl, hn⟩
      next =>
        cases hfind
        cases h
  · rintro ⟨ns, hl, hn⟩
    have hfind : fs.find? p = .ok (.text t) := by
      refine except_bind_eq_ok.2 ⟨_, hl, ?_⟩
      dsimp only
      rw [hn]
      rfl
    exact except_bind_eq_ok.2 ⟨_, hfind, rfl⟩

theorem openOver_eq_ok_iff : fs.openOver disk p = .ok ns ↔
    disk.opening p = none ∧ fs.locate p = .ok (.name ns false) ∧
      fs.node? ns ≠ some .directory := by
  unfold openOver
  constructor
  · intro h
    split at h
    next => cases h
    next hopen =>
      obtain ⟨spot, hl, h⟩ := except_bind_eq_ok.1 h
      cases spot with
      | directory => cases h
      | name ms slashed =>
        dsimp only at h
        split at h
        next => cases h
        next hcond =>
          simp only [Bool.or_eq_true, beq_iff_eq, not_or, Bool.not_eq_true] at hcond
          obtain ⟨rfl, hn⟩ := hcond
          obtain rfl := except_pure_eq_ok.1 h
          exact ⟨hopen, hl, hn⟩
  · intro ⟨hopen, hl, hn⟩
    rw [hopen]
    exact except_bind_eq_ok.2 ⟨_, hl, if_neg (by simpa using hn)⟩

theorem openNew_eq_ok_iff : fs.openNew disk p = .ok ns ↔
    disk.opening p = none ∧ fs.locate p = .ok (.name ns false) ∧ fs.node? ns = none := by
  unfold openNew
  constructor
  · intro h
    split at h
    next => cases h
    next hopen =>
      obtain ⟨spot, hl, h⟩ := except_bind_eq_ok.1 h
      cases spot with
      | directory => cases h
      | name ms slashed =>
        cases slashed with
        | true => cases h
        | false =>
          dsimp only at h
          rw [if_neg Bool.false_ne_true] at h
          split at h
          next => cases h
          next hn =>
            obtain rfl := except_pure_eq_ok.1 h
            exact ⟨hopen, hl, by simpa using hn⟩
  · intro ⟨hopen, hl, hn⟩
    rw [hopen]
    apply except_bind_eq_ok.2 ⟨_, hl, ?_⟩
    dsimp only
    rw [if_neg Bool.false_ne_true, hn]
    rfl

theorem store_eq_ok_iff : fs.store p t = .ok fs' ↔
    ∃ ns, fs.locate p = .ok (.name ns false) ∧ fs.node? ns ≠ some .directory ∧
      fs' = fs.put ⟨ns, .text t⟩ := by
  constructor
  · intro h
    obtain ⟨ns, hopen, h⟩ := except_bind_eq_ok.1 h
    obtain ⟨-, hl, hn⟩ := openOver_eq_ok_iff.1 hopen
    exact ⟨ns, hl, hn, (except_pure_eq_ok.1 h).symm⟩
  · intro ⟨ns, hl, hn, he⟩
    rw [he]
    exact except_bind_eq_ok.2 ⟨ns, openOver_eq_ok_iff.2 ⟨rfl, hl, hn⟩, rfl⟩

theorem fill_eq (fs : Files) (disk : Disk) (p t : String) (ns : List String) :
    fs.fill disk p t ns =
      (((disk.cut? p t).map Prod.snd).elim (.ok ()) .error,
        fs.put ⟨ns, .text (disk.taken p t)⟩) := by
  unfold fill Disk.taken
  cases disk.cut? p t <;> rfl

/-- Files that differ at one place at most, where there was no directory and is none. -/
structure Touched (fs fs' : Files) (ns : List String) : Prop where
  others : ∀ ms, ms ≠ ns → fs'.node? ms = fs.node? ms
  before : fs.node? ns ≠ some .directory
  after : fs'.node? ns ≠ some .directory

theorem Touched.node?_eq_directory_iff (h : fs.Touched fs' ns) (ms : List String) :
    fs'.node? ms = some .directory ↔ fs.node? ms = some .directory := by
  by_cases hms : ms = ns
  · rw [hms]
    exact iff_of_false h.after h.before
  · rw [h.others ms hms]

theorem Touched.locate_eq_ok_iff (h : fs.Touched fs' ns) :
    fs'.locate p = .ok spot ↔ fs.locate p = .ok spot :=
  Files.locate_eq_ok_iff h.node?_eq_directory_iff

theorem touched_put (h : fs.node? ns ≠ some .directory) (t : String) :
    fs.Touched (fs.put ⟨ns, .text t⟩) ns ∧ node? (fs.put ⟨ns, .text t⟩) ns = some (.text t) := by
  have named : ns ≠ [] := by
    rintro rfl
    exact h rfl
  have self : node? (fs.put ⟨ns, .text t⟩) ns = some (.text t) := by
    rw [node?_put named, if_pos rfl]
  refine ⟨⟨fun ms hms => ?_, h, ?_⟩, self⟩
  · rw [node?_put named, if_neg hms]
  · rw [self]
    exact nofun

theorem touched_remove (hl : fs.locate p = .ok (.name ns slashed)) (h : fs.remove p = .ok fs') :
    fs.Touched fs' ns := by
  cases ht : fs.textAt? p with
  | none =>
    obtain ⟨f, hf⟩ := remove_of_textAt_none ht
    rw [hf] at h
    cases h
  | some names =>
    rw [remove_of_textAt ht] at h
    obtain ⟨hl', t, hn⟩ := textAt?_eq_some_iff.1 ht
    cases hl.symm.trans hl'
    cases h
    constructor
    case others =>
      intro ms hms
      ext d
      rw [node?_filter hn]
      exact and_iff_left hms
    case before =>
      rw [hn]
      exact nofun
    case after => exact fun hd => ((node?_filter hn).1 hd).2 rfl

/-- Besides the files that were there some new texts. -/
structure Gains (fs fs' : Files) (left : List FileEntry) : Prop where
  mem : ∀ e, e ∈ fs'.rows ↔ e ∈ fs.rows ∨ e ∈ left
  free : ∀ e ∈ left, fs.node? e.path = none
  texts : ∀ e ∈ left, e.node ≠ .directory

theorem Gains.refl (fs : Files) : fs.Gains fs [] :=
  ⟨fun _ => ⟨.inl, fun h => h.resolve_right nofun⟩, nofun, nofun⟩

theorem Gains.node? (h : fs.Gains fs' left) (hd : fs.node? ns = some d) :
    fs'.node? ns = some d := by
  rw [node?_eq_some_iff] at hd ⊢
  split at hd
  next he => rwa [if_pos he]
  next he =>
    rw [if_neg he]
    exact (h.mem _).2 (.inl hd)

theorem Gains.node?_of_mem (h : fs.Gains fs' left) (he : e ∈ left) :
    fs'.node? e.path = some e.node := by
  have named : e.path ≠ [] := by
    intro hnil
    have free := h.free e he
    rw [hnil] at free
    cases free
  rw [node?_eq_some_iff, if_neg named]
  exact (h.mem e).2 (.inr he)

theorem Gains.node?_eq_directory_iff (h : fs.Gains fs' left) (ns : List String) :
    fs'.node? ns = some .directory ↔ fs.node? ns = some .directory := by
  refine ⟨fun hd => ?_, h.node?⟩
  rw [node?_eq_some_iff] at hd ⊢
  split at hd
  next he => rw [if_pos he]
  next he =>
    rw [if_neg he]
    exact ((h.mem _).1 hd).resolve_right fun hnew => h.texts _ hnew rfl

theorem Gains.locate_eq_ok_iff (h : fs.Gains fs' left) :
    fs'.locate p = .ok spot ↔ fs.locate p = .ok spot :=
  Files.locate_eq_ok_iff h.node?_eq_directory_iff

theorem Gains.node?_eq_none (h : fs.Gains fs' left) (hn : fs'.node? ns = none) :
    fs.node? ns = none := by
  cases hd : fs.node? ns with
  | none => rfl
  | some d =>
    rw [h.node? hd] at hn
    cases hn

theorem Gains.textAt? (h : fs.Gains fs' left) (he : e ∈ left)
    (hl : fs.locate p = .ok (.name e.path false)) : fs'.textAt? p = some e.path := by
  refine textAt?_eq_some_iff.2 ⟨h.locate_eq_ok_iff.2 hl, ?_⟩
  rw [h.node?_of_mem he]
  cases hnode : e.node with
  | directory => exact absurd hnode (h.texts e he)
  | text t => exact ⟨t, rfl⟩

theorem Gains.put (h : fs.Gains fs' left) (hn : fs'.node? ns = none) (t : String) :
    fs.Gains (fs'.put ⟨ns, .text t⟩) (left ++ [⟨ns, .text t⟩]) := by
  constructor
  case mem =>
    intro e
    rw [mem_put_of_free hn, h.mem, List.mem_append, List.mem_singleton]
    tauto
  case free =>
    intro e he
    rcases List.mem_append.1 he with he | he
    · exact h.free e he
    · obtain rfl := List.mem_singleton.1 he
      exact h.node?_eq_none hn
  case texts =>
    intro e he
    rcases List.mem_append.1 he with he | he
    · exact h.texts e he
    · obtain rfl := List.mem_singleton.1 he
      exact nofun

theorem Gains.removeAll (h : fs.Gains fs' left)
    (hps : ∀ p ∈ ps, ∃ e ∈ left, fs'.textAt? p = some e.path) :
    fs.Gains (fs'.removeAll ps).1
      (left.filter fun e => ∀ p ∈ ps, fs'.textAt? p ≠ some e.path) := by
  constructor
  case mem =>
    intro e
    rw [mem_removeAll, h.mem, List.mem_filter, decide_eq_true_iff, or_and_right]
    refine or_congr_left (and_iff_left_of_imp fun he p hp hat => ?_)
    obtain ⟨new, hnew, hat'⟩ := hps p hp
    rw [hat] at hat'
    exact path_ne_of_free (h.free new hnew) he (Option.some.inj hat')
  case free => exact fun e he => h.free e (List.mem_of_mem_filter he)
  case texts => exact fun e he => h.texts e (List.mem_of_mem_filter he)

theorem follow_leaf (h : IsLeaf leaf) (hf : fs.follow slashed here (steps ++ [leaf]) = .ok spot) :
    spot = .name (steps.foldl Path.step here ++ [leaf]) slashed := by
  induction steps generalizing here with
  | nil =>
    have dots : ¬ (leaf = "." ∨ leaf = "..") := not_or.2 h.named
    rw [List.nil_append, follow, if_neg dots] at hf
    split at hf
    next => cases hf
    next =>
      cases hf
      rw [Path.step, if_neg h.named.1, if_neg h.named.2]
      rfl
  | cons s rest ih =>
    rw [List.cons_append, follow] at hf
    split at hf
    next => exact ih hf
    next =>
      split at hf
      next => cases hf
      next =>
        have more : (rest ++ [leaf]).isEmpty = false := by simp
        rw [more] at hf
        rw [if_neg Bool.false_ne_true] at hf
        split at hf
        next => cases hf
        next => cases hf
        next => exact ih hf

theorem locate_join (h : IsLeaf leaf) (hf : fs.locate (Path.join dir leaf) = .ok spot) :
    spot = .name (Path.names dir ++ [leaf]) false := by
  rw [locate_eq_follow (followed_of_locate hf)] at hf
  rw [Path.start_join dir h, Path.steps_join dir h, Path.getLast?_join dir h] at hf
  have unslashed : (leaf.toList.getLast? == some '/') = false := by
    rw [beq_eq_false_iff_ne]
    exact fun hlast => h.unslashed (List.mem_of_getLast? hlast)
  rw [unslashed] at hf
  exact follow_leaf h hf

theorem follow_dots (fs : Files) {dots back : List String} (hdots : ∀ s ∈ dots, s = ".")
    (hback : back ≠ []) :
    fs.follow slashed here (steps ++ dots ++ back) = fs.follow slashed here (steps ++ back) := by
  induction steps generalizing here with
  | nil =>
    induction dots with
    | nil => rfl
    | cons s dots ih =>
      obtain rfl := hdots s List.mem_cons_self
      have others := ih fun s hs => hdots s (List.mem_cons_of_mem _ hs)
      rw [List.nil_append, List.cons_append, follow, ← others]
      rfl
  | cons s steps ih =>
    have filled (xs : List String) : (xs ++ back).isEmpty = false :=
      List.isEmpty_eq_false_iff.2 (List.append_ne_nil_of_right_ne_nil xs hback)
    simp only [List.cons_append, follow, ih, filled]

theorem locate_of_shortens (h : Path.Shortens p q) (hf : fs.locate q = .ok spot) :
    fs.locate p = .ok spot := by
  obtain ⟨ss, dots, leaf, hp, hq, hdots⟩ := h.steps
  have followed := followed_of_locate hf
  have followed' : Followed p :=
    ⟨fun hm => followed.named (h.chars hm), h.nonempty, h.size.trans followed.size⟩
  rw [locate_eq_follow followed, hq, follow_dots fs hdots (List.cons_ne_nil leaf [])] at hf
  rw [locate_eq_follow followed', hp, h.start, h.last]
  exact hf

structure Grown (fs fs' : Files) : Prop where
  kept : ∀ e ∈ fs.rows, e ∈ fs'.rows
  new : ∀ e ∈ fs'.rows, e ∈ fs.rows ∨ e.node = .directory

theorem Grown.refl (fs : Files) : fs.Grown fs :=
  ⟨fun _ => id, fun _ => .inl⟩

theorem Grown.trans {fs'' : Files} (h : fs.Grown fs') (h' : fs'.Grown fs'') : fs.Grown fs'' where
  kept e he := h'.kept e (h.kept e he)
  new e he := (h'.new e he).elim (h.new e) .inr

theorem grown_makeDirectory (h : fs.makeDirectory p = .ok fs') : fs.Grown fs' := by
  obtain ⟨spot, -, h⟩ := except_bind_eq_ok.1 h
  cases spot with
  | directory => cases h
  | name ns slashed =>
    dsimp only at h
    split at h
    next => cases h
    next hn =>
      obtain rfl := except_pure_eq_ok.1 h
      have free : fs.node? ns = none := by simpa using hn
      exact ⟨fun e he => (mem_put_of_free free).2 (.inr he), fun e he =>
        ((mem_put_of_free free).1 he).elim (fun he => .inr (he ▸ rfl)) .inl⟩

theorem grown_makeUpTo (fs : Files) (ps : List String) : fs.Grown (fs.makeUpTo ps).2 := by
  induction ps generalizing fs with
  | nil => exact .refl fs
  | cons p above ih =>
    unfold makeUpTo
    split
    next h => exact grown_makeDirectory h
    next =>
      have made := ih fs
      split
      next h => rwa [h] at made
      next h =>
        rw [h] at made
        split
        next h => exact made.trans (grown_makeDirectory h)
        next => exact made
    next => exact .refl fs

theorem grown_makeDirectories (fs : Files) (p : String) : fs.Grown (fs.makeDirectories p).2 :=
  grown_makeUpTo fs _

theorem Grown.gains_iff {made : Files} (h : fs.Grown made) (hg : made.Gains fs' left) :
    fs.Grown fs' ↔ left = [] := by
  constructor
  · intro hgrown
    rw [List.eq_nil_iff_forall_not_mem]
    intro e he
    rcases hgrown.new e ((hg.mem e).2 (.inr he)) with hold | hdir
    · exact path_ne_of_free (hg.free e he) (h.kept e hold) rfl
    · exact hg.texts e he hdir
  · intro hnil
    rw [hnil] at hg
    have same (e : FileEntry) : e ∈ fs'.rows ↔ e ∈ made.rows :=
      (hg.mem e).trans (or_iff_left List.not_mem_nil)
    exact ⟨fun e he => (same e).2 (h.kept e he), fun e he => h.new e ((same e).1 he)⟩

theorem follow_front (hf : fs.follow slashed here (steps ++ [leaf]) = .ok spot) (slashed' : Bool) :
    fs.follow slashed' here steps = .ok .directory ∨
      ∃ ns, fs.follow slashed' here steps = .ok (.name ns slashed') ∧
        fs.node? ns = some .directory := by
  induction steps generalizing here with
  | nil => exact .inl rfl
  | cons s rest ih =>
    rw [List.cons_append, follow] at hf
    rw [follow]
    split at hf
    next hdots =>
      rw [if_pos hdots]
      exact ih hf
    next hdots =>
      rw [if_neg hdots]
      split at hf
      next => cases hf
      next hsize =>
        have more : (rest ++ [leaf]).isEmpty = false := by simp
        rw [more, if_neg Bool.false_ne_true] at hf
        rw [if_neg hsize]
        split at hf
        next => cases hf
        next => cases hf
        next hn =>
          cases rest with
          | nil => exact .inr ⟨_, rfl, hn⟩
          | cons r rest =>
            rw [List.isEmpty_cons, if_neg Bool.false_ne_true]
            exact ih hf

/-- No directory is made where a path leads to a name below it. -/
theorem makeDirectories_of_located (h : IsLeaf leaf)
    (hf : fs.locate (Path.join dir leaf) = .ok spot) :
    fs.makeDirectories dir = (.ok (), fs) := by
  have followed := followed_of_locate hf
  rw [locate_eq_follow followed, Path.start_join dir h, Path.steps_join dir h] at hf
  obtain ⟨rest, hrest⟩ := Path.exists_join_eq_append dir leaf h
  unfold makeDirectories
  rcases Path.ancestors_eq_nil_or dir with hnone | ⟨above, habove⟩
  · rw [hnone]
    rfl
  · have named : dir ≠ "" := by
      rintro rfl
      cases habove
    have followed : Followed dir := by
      have hname := followed.named
      have hsize := followed.size
      rw [hrest, String.toList_append, List.mem_append] at hname
      rw [hrest, String.utf8ByteSize_append] at hsize
      exact ⟨fun hm => hname (.inl hm), named, (Nat.le_add_right _ _).trans hsize⟩
    have there : fs.makeDirectory dir = .error .alreadyExists ∧ fs.isDirectory dir = true := by
      unfold makeDirectory isDirectory find?
      rw [locate_eq_follow followed]
      rcases follow_front hf (dir.toList.getLast? == some '/') with hd | ⟨ns, hd, hn⟩
      · rw [hd]
        exact ⟨rfl, rfl⟩
      · rw [hd]
        dsimp only [bind, Except.bind]
        rw [hn]
        exact ⟨rfl, rfl⟩
    rw [habove, makeUpTo, there.1]
    dsimp only
    rw [made, if_pos there.2]

end Files
end Imageboard
