import Imageboard.Path
import Imageboard.Proofs.Text.Cuts
import Mathlib.Data.List.Induction

namespace Imageboard

namespace Path

open Text

/-- A text that names one step down. -/
structure IsLeaf (leaf : String) : Prop where
  unslashed : '/' ∉ leaf.toList
  nonempty : leaf ≠ ""
  named : leaf ≠ "." ∧ leaf ≠ ".."

variable {dir d leaf leaf' p s : String} {ss front : List String}

theorem isAbsolute_iff : isAbsolute p = true ↔ p.toList.head? = some '/' := by
  unfold isAbsolute startsWith
  rw [show "/".toList = ['/'] from rfl]
  cases p.toList with
  | nil => decide
  | cons c cs =>
    rw [after?]
    split
    next hc => simp [after?, ← hc]
    next hc => simpa using Ne.symm hc

theorem parts_of_unslashed (h : '/' ∉ leaf.toList) : parts leaf = [leaf] := by
  rw [parts, pieces_of_not_mem h]
  simp

theorem parts_append (d leaf : String) : parts (d ++ "/" ++ leaf) = parts d ++ parts leaf := by
  unfold parts
  rw [String.toList_append, String.toList_append, List.append_assoc, ← List.map_append,
    ← pieces_append]
  rfl

theorem parts_ne_nil (p : String) : parts p ≠ [] := by
  simpa [parts] using pieces_ne_nil

theorem join_parts (p : String) : Text.join "/" (parts p) = p := by
  have general (cs : List Char) :
      (Text.join "/" ((pieces '/' cs).map String.ofList)).toList = cs := by
    induction cs with
    | nil => rfl
    | cons c cs ih =>
      unfold pieces
      cases hp : pieces '/' cs with
      | nil => exact absurd hp pieces_ne_nil
      | cons q qs =>
        rw [hp] at ih
        dsimp only
        by_cases hc : c = '/'
        · rw [if_pos hc, List.map_cons, toList_join_cons _ _ (by simp), ih, hc]
          rfl
        · rw [if_neg hc]
          cases qs with
          | nil => simpa [Text.join] using ih
          | cons r rs =>
            rw [List.map_cons, toList_join_cons _ _ (by simp)] at ih ⊢
            simpa using ih
  apply String.toList_injective
  exact general p.toList

theorem join_append {ss' : List String} (hss : ss ≠ []) (hss' : ss' ≠ []) :
    Text.join "/" (ss ++ ss') = Text.join "/" ss ++ "/" ++ Text.join "/" ss' := by
  induction ss with
  | nil => exact absurd rfl hss
  | cons s ss ih =>
    rw [List.cons_append, join_cons _ _ (List.append_ne_nil_of_right_ne_nil ss hss')]
    by_cases hrest : ss = []
    · rw [hrest]
      rfl
    · rw [ih hrest, join_cons _ _ hrest]
      simp only [String.append_assoc]

theorem parts_join (hne : ss ≠ []) (h : ∀ s ∈ ss, '/' ∉ s.toList) :
    parts (Text.join "/" ss) = ss := by
  induction ss with
  | nil => exact absurd rfl hne
  | cons s ss ih =>
    have hs := parts_of_unslashed (h s List.mem_cons_self)
    by_cases hss : ss = []
    · rw [hss]
      exact hs
    · rw [join_cons _ _ hss, parts_append, hs, ih hss fun t ht => h t (List.mem_cons_of_mem s ht)]
      rfl

theorem not_mem_of_mem_parts (h : s ∈ parts p) : '/' ∉ s.toList := by
  obtain ⟨cs, hcs, rfl⟩ := List.mem_map.1 h
  rw [String.toList_ofList]
  exact not_mem_of_mem_pieces hcs

def ends (ss : List String) : List Nat :=
  (List.range ss.length).filter fun i =>
    match ss[i]? with
    | some s => s != "" && (s != "." || i == 0)
    | none => false

theorem ends_concat (ss : List String) (s : String) : ends (ss ++ [s]) =
    ends ss ++ if s != "" && (s != "." || ss.length == 0) then [ss.length] else [] := by
  unfold ends
  rw [List.length_append, List.length_singleton, List.range_succ, List.filter_append]
  congr 1
  · refine List.filter_congr fun i hi => ?_
    rw [List.getElem?_append_left (List.mem_range.1 hi)]
  · rw [List.filter_singleton, List.getElem?_concat_length]
    exact Bool.cond_eq_ite _ _ _

/-- Behind the last place at which a path ends are empty parts and dots. -/
inductive Ends (ss : List String) : Prop where
  | nowhere (ends_eq : ends ss = []) (parts : ∀ s ∈ ss, s = "" ∨ s = ".")
      (head : ss.head? ≠ some ".")
  | last (above : List String) (s : String) (rest : List String) (eq : ss = above ++ s :: rest)
      (named : s ≠ "") (parts : ∀ s ∈ rest, s = "" ∨ s = ".")
      (ends_eq : ∃ is, ends ss = is ++ [above.length])

theorem ends_spec (ss : List String) : Ends ss := by
  induction ss using List.reverseRecOn with
  | nil => exact .nowhere rfl nofun nofun
  | append_singleton ss s ih =>
    have concat := ends_concat ss s
    split at concat
    next hs =>
      simp only [Bool.and_eq_true, bne_iff_ne] at hs
      exact .last ss s [] rfl hs.1 nofun ⟨_, concat⟩
    next hs =>
      rw [List.append_nil] at concat
      have part : s = "" ∨ s = "." := by
        by_contra hno
        obtain ⟨h₁, h₂⟩ := not_or.1 hno
        exact hs (by simp [h₁, h₂])
      cases ih with
      | nowhere ends_eq parts head =>
        refine .nowhere (concat.trans ends_eq) ?_ ?_
        · intro t ht
          rcases List.mem_append.1 ht with ht | ht
          · exact parts t ht
          · obtain rfl := List.mem_singleton.1 ht
            exact part
        · cases ss with
          | nil =>
            intro he
            obtain rfl : s = "." := Option.some.inj he
            exact hs (by decide)
          | cons t ss => exact head
      | last above t rest eq named parts ends_eq =>
        obtain ⟨is, his⟩ := ends_eq
        refine .last above t (rest ++ [s]) (by rw [eq, List.append_assoc]; rfl) named ?_
          ⟨is, concat.trans his⟩
        intro u hu
        rcases List.mem_append.1 hu with hu | hu
        · exact parts u hu
        · obtain rfl := List.mem_singleton.1 hu
          exact part

theorem parent?_ancestors (p : String) : parent? p = match ancestors p with
    | [] => none
    | [_] => some (if isAbsolute p then "/" else "")
    | _ :: above :: _ => some above :=
  rfl

theorem ancestors_eq (p : String) : ancestors p = match (ends (parts p)).reverse with
    | [] => []
    | _ :: above => p :: above.map fun i => Text.join "/" ((parts p).take (i + 1)) :=
  rfl

theorem parent?_eq (p : String) : parent? p = match (ends (parts p)).reverse with
    | [] => none
    | [_] => some (if isAbsolute p then "/" else "")
    | _ :: i :: _ => some (Text.join "/" ((parts p).take (i + 1))) := by
  rw [parent?_ancestors, ancestors_eq]
  rcases (ends (parts p)).reverse with _ | ⟨i, _ | ⟨j, is⟩⟩ <;> rfl

theorem IsLeaf.not_isAbsolute (h : IsLeaf leaf) : isAbsolute leaf = false := by
  rw [← Bool.not_eq_true, isAbsolute_iff]
  exact fun hhead => h.unslashed (List.mem_of_mem_head? hhead)

theorem IsLeaf.join_of_ne (h : IsLeaf leaf) (hd : d ≠ "") (hlast : d.toList.getLast? ≠ some '/') :
    join d leaf = d ++ "/" ++ leaf := by
  simp [join, h.not_isAbsolute, hd, hlast]

theorem exists_join (hd : dir ≠ "") : ∃ d, (dir = d ∨ dir = d ++ "/") ∧
    ∀ p, isAbsolute p = false → join dir p = d ++ "/" ++ p := by
  by_cases hlast : dir.toList.getLast? = some '/'
  · obtain ⟨cs, hcs⟩ := List.getLast?_eq_some_iff.1 hlast
    have hdir : dir = String.ofList cs ++ "/" := by
      apply String.toList_injective
      rw [hcs, String.toList_append, String.toList_ofList]
      rfl
    refine ⟨String.ofList cs, .inr hdir, fun p h => ?_⟩
    simp [join, h, hd, hlast, ← hdir]
  · exact ⟨dir, .inl rfl, fun p h => by simp [join, h, hd, hlast]⟩

theorem IsLeaf.exists_join (hd : dir ≠ "") : ∃ d, (dir = d ∨ dir = d ++ "/") ∧
    ∀ leaf, IsLeaf leaf → join dir leaf = d ++ "/" ++ leaf := by
  obtain ⟨d, hdir, hjoin⟩ := Path.exists_join hd
  exact ⟨d, hdir, fun leaf h => hjoin leaf h.not_isAbsolute⟩

theorem join_empty (leaf : String) : join "" leaf = leaf := by
  simp [join]

theorem getLast?_join_concat (ss : List String) (hs : s ≠ "") :
    (Text.join "/" (ss ++ [s])).toList.getLast? = s.toList.getLast? := by
  have hne : s.toList ≠ [] := fun he => hs (String.toList_injective he)
  by_cases hss : ss = []
  · rw [hss]
    rfl
  · rw [join_append hss (List.cons_ne_nil s []), String.toList_append, Text.join,
      List.getLast?_append_of_ne_nil _ hne]

theorem isAbsolute_append (d p : String) :
    isAbsolute (d ++ "/" ++ p) = (d == "" || isAbsolute d) := by
  rw [Bool.eq_iff_iff, isAbsolute_iff, Bool.or_eq_true, beq_iff_eq, isAbsolute_iff,
    ← String.toList_inj]
  simp only [String.toList_append]
  cases d.toList with
  | nil => simp
  | cons c cs => simp

theorem withFileName_append (d : String) (h : IsLeaf leaf) (h' : IsLeaf leaf') :
    ∃ above rest, parts d = above ++ rest ∧ (∀ s ∈ rest, s = "" ∨ s = ".") ∧
      isAbsolute (Text.join "/" above ++ "/" ++ leaf') = isAbsolute (d ++ "/" ++ leaf') ∧
      withFileName (d ++ "/" ++ leaf) leaf' = Text.join "/" above ++ "/" ++ leaf' := by
  have hparts : parts (d ++ "/" ++ leaf) = parts d ++ [leaf] := by
    rw [parts_append, parts_of_unslashed h.unslashed]
  have hends : ends (parts d ++ [leaf]) = ends (parts d) ++ [(parts d).length] := by
    rw [ends_concat, if_pos]
    simp [h.nonempty, h.named]
  have hparent := parent?_eq (d ++ "/" ++ leaf)
  rw [hparts, hends, List.reverse_append, List.reverse_singleton, List.singleton_append] at hparent
  unfold withFileName
  rw [hparent]
  rcases ends_spec (parts d) with
    ⟨ends_eq, rest, head⟩ | ⟨above, s, rest, eq, named, rest_eq, is, ends_eq⟩
  · have hd : (d == "" || isAbsolute d) = true := by
      have hjoin := join_parts d
      cases hp : parts d with
      | nil => exact absurd hp (parts_ne_nil d)
      | cons s ss =>
        rw [hp] at rest head hjoin
        obtain rfl : s = "" := (rest s List.mem_cons_self).resolve_right fun he => head (he ▸ rfl)
        by_cases hss : ss = []
        · rw [hss] at hjoin
          rw [← hjoin]
          rfl
        · rw [← hjoin, join_cons _ _ hss, isAbsolute_append]
          simp
    refine ⟨[], parts d, rfl, rest, ?_, ?_⟩
    · rw [isAbsolute_append, isAbsolute_append, hd]
      rfl
    · rw [ends_eq]
      dsimp only [List.reverse_nil]
      rw [isAbsolute_append, hd, if_pos rfl, Option.getD_some, join, h'.not_isAbsolute]
      rfl
  · have hsplit : parts d = above ++ [s] ++ rest := by rw [eq, List.append_assoc]; rfl
    have hne : above ++ [s] ≠ [] := List.append_ne_nil_of_right_ne_nil _ (List.cons_ne_nil s [])
    refine ⟨above ++ [s], rest, hsplit, rest_eq, ?_, ?_⟩
    · by_cases hrest : rest = []
      · rw [hrest, List.append_nil] at hsplit
        rw [← hsplit, join_parts]
      · have hd : d ++ "/" ++ leaf' = Text.join "/" (above ++ [s]) ++ "/" ++
            (Text.join "/" rest ++ "/" ++ leaf') := by
          rw [← join_parts d, hsplit, join_append hne hrest]
          simp only [String.append_assoc]
        rw [hd, isAbsolute_append, isAbsolute_append]
    · have hlast : (Text.join "/" (above ++ [s])).toList.getLast? ≠ some '/' := by
        rw [getLast?_join_concat above named]
        have hmem : s ∈ parts d := by rw [eq]; exact List.mem_append_right _ List.mem_cons_self
        exact fun hslash => not_mem_of_mem_parts hmem (List.mem_of_getLast? hslash)
      have filled : Text.join "/" (above ++ [s]) ≠ "" := by
        intro he
        have hend := getLast?_join_concat above named
        rw [he] at hend
        exact named (String.toList_injective (List.getLast?_eq_none_iff.1 hend.symm))
      have htake : (parts d ++ [leaf]).take (above.length + 1) = above ++ [s] := by
        rw [hsplit, List.append_assoc, List.take_left' (by simp)]
      rw [ends_eq, List.reverse_append, List.reverse_singleton, List.singleton_append]
      dsimp only
      rw [htake, Option.getD_some, h'.join_of_ne filled hlast]

theorem steps_leaf (h : IsLeaf leaf) : steps leaf = [leaf] := by
  rw [steps, parts_of_unslashed h.unslashed]
  simp [h.nonempty]

theorem steps_append (d p : String) : steps (d ++ "/" ++ p) = steps d ++ steps p := by
  rw [steps, parts_append, List.filter_append]
  rfl

theorem steps_join_parts (h : ∀ s ∈ ss, '/' ∉ s.toList) :
    steps (Text.join "/" ss) = ss.filter (· != "") := by
  by_cases hss : ss = []
  · rw [hss]
    rfl
  · rw [steps, parts_join hss h]

theorem steps_join (dir : String) (h : IsLeaf leaf) :
    steps (join dir leaf) = steps dir ++ [leaf] := by
  by_cases hdir : dir = ""
  · rw [hdir, join_empty, steps_leaf h]
    rfl
  · obtain ⟨d, hd, hjoin⟩ := IsLeaf.exists_join hdir
    rw [hjoin leaf h, steps_append, steps_leaf h]
    rcases hd with rfl | rfl
    · rfl
    · have hslash := steps_append d ""
      rw [String.append_empty] at hslash
      rw [hslash]
      simp [steps, parts, pieces]

theorem start_join (dir : String) (h : IsLeaf leaf) : start (join dir leaf) = start dir := by
  have habs : isAbsolute (join dir leaf) = isAbsolute dir := by
    by_cases hdir : dir = ""
    · rw [hdir, join_empty, h.not_isAbsolute]
      rfl
    · obtain ⟨d, hd, hjoin⟩ := IsLeaf.exists_join hdir
      rw [hjoin leaf h, isAbsolute_append]
      rcases hd with rfl | rfl
      · simp [hdir]
      · have hslash := isAbsolute_append d ""
        rw [String.append_empty] at hslash
        rw [hslash]
  rw [start, start, habs]

theorem exists_join_eq_append (dir leaf : String) (h : IsLeaf leaf) :
    ∃ rest, join dir leaf = dir ++ rest := by
  by_cases hdir : dir = ""
  · exact ⟨leaf, by rw [hdir, join_empty, String.empty_append]⟩
  · obtain ⟨d, hd, hjoin⟩ := IsLeaf.exists_join hdir
    rcases hd with rfl | rfl
    · exact ⟨"/" ++ leaf, by rw [hjoin leaf h, String.append_assoc]⟩
    · exact ⟨leaf, hjoin leaf h⟩

theorem ancestors_eq_nil_or (p : String) :
    ancestors p = [] ∨ ∃ above, ancestors p = p :: above := by
  unfold ancestors
  dsimp only
  split
  next => exact .inl rfl
  next => exact .inr ⟨_, rfl⟩

theorem getLast?_append (d : String) (h : IsLeaf leaf) :
    (d ++ "/" ++ leaf).toList.getLast? = leaf.toList.getLast? := by
  have hne : leaf.toList ≠ [] := fun he => h.nonempty (String.toList_injective he)
  rw [String.toList_append, List.getLast?_append_of_ne_nil _ hne]

theorem getLast?_join (dir : String) (h : IsLeaf leaf) :
    (join dir leaf).toList.getLast? = leaf.toList.getLast? := by
  by_cases hdir : dir = ""
  · rw [hdir, join_empty]
  · obtain ⟨d, -, hjoin⟩ := IsLeaf.exists_join hdir
    rw [hjoin leaf h, getLast?_append d h]

theorem names_join (dir : String) (h : IsLeaf leaf) :
    names (join dir leaf) = names dir ++ [leaf] := by
  unfold names
  rw [steps_join dir h, start_join dir h, List.foldl_concat, step, if_neg h.named.1,
    if_neg h.named.2]

theorem exists_parts_join (dir : String) (h : IsLeaf leaf) :
    ∃ front, parts (join dir leaf) = front ++ [leaf] := by
  have hleaf := parts_of_unslashed h.unslashed
  by_cases hdir : dir = ""
  · exact ⟨[], by rw [hdir, join_empty, hleaf]; rfl⟩
  · obtain ⟨d, -, hd⟩ := IsLeaf.exists_join hdir
    exact ⟨parts d, by rw [hd leaf h, parts_append, hleaf]⟩

theorem fileName?_join (dir : String) (h : IsLeaf leaf) :
    fileName? (join dir leaf) = some leaf := by
  obtain ⟨front, hparts⟩ := exists_parts_join dir h
  have named : [leaf].filterMap (fun s => if s = "" ∨ s = "." then none
      else if s = ".." then some Component.up else some (Component.name s)) = [.name leaf] := by
    simp [h.nonempty, h.named]
  have last : (components (join dir leaf)).getLast? = some (.name leaf) := by
    have behind (c : Component) (cs : List Component) :
        (c :: (cs ++ [.name leaf])).getLast? = some (.name leaf) := by
      rw [← List.cons_append, List.getLast?_concat]
    unfold components
    rw [hparts, List.filterMap_append, named]
    dsimp only
    split
    · exact behind _ _
    · split
      · exact behind _ _
      · exact List.getLast?_concat
  rw [fileName?, last]

/-- A path leads where another one leads, by the same steps but for dots, and is no longer. -/
structure Shortens (p q : String) : Prop where
  start : start p = start q
  steps : ∃ ss dots leaf, steps p = ss ++ [leaf] ∧ steps q = ss ++ dots ++ [leaf] ∧
    ∀ s ∈ dots, s = "."
  last : p.toList.getLast? = q.toList.getLast?
  size : p.utf8ByteSize ≤ q.utf8ByteSize
  chars : p.toList ⊆ q.toList
  nonempty : p ≠ ""

theorem shortens_withFileName (dir : String) (h : IsLeaf leaf) (h' : IsLeaf leaf') :
    Shortens (withFileName (join dir leaf) leaf') (join dir leaf') := by
  by_cases hdir : dir = ""
  · have alone : parent? leaf = some "" := by
      have hends := ends_concat [] leaf
      rw [if_pos (by simp [h.nonempty])] at hends
      rw [parent?_eq, parts_of_unslashed h.unslashed, ← List.nil_append [leaf], hends,
        h.not_isAbsolute]
      rfl
    have same : withFileName leaf leaf' = leaf' := by
      rw [withFileName, alone, Option.getD_some, join_empty]
    rw [hdir, join_empty, join_empty, same]
    exact ⟨rfl, ⟨[], [], leaf', steps_leaf h', steps_leaf h', nofun⟩, rfl, Nat.le_refl _,
      fun _ => id, h'.nonempty⟩
  · obtain ⟨d, -, hd⟩ := IsLeaf.exists_join hdir
    obtain ⟨above, rest, hparts, hrest, habs, hname⟩ := withFileName_append d h h'
    rw [hd leaf h, hd leaf' h', hname]
    have slashes (s : String) (hs : s ∈ above ++ rest) : '/' ∉ s.toList :=
      not_mem_of_mem_parts (hparts ▸ hs)
    obtain ⟨tail, htail⟩ : ∃ tail, d = Text.join "/" above ++ tail := by
      have hjoin := join_parts d
      rw [hparts] at hjoin
      by_cases habove : above = []
      · exact ⟨d, by rw [habove, Text.join, String.empty_append]⟩
      · by_cases hrest : rest = []
        · rw [hrest, List.append_nil] at hjoin
          exact ⟨"", by rw [hjoin, String.append_empty]⟩
        · rw [join_append habove hrest] at hjoin
          exact ⟨"/" ++ Text.join "/" rest, by rw [← String.append_assoc, hjoin]⟩
    constructor
    case start => rw [start, start, habs]
    case steps =>
      refine ⟨above.filter (· != ""), rest.filter (· != ""), leaf', ?_, ?_, ?_⟩
      · rw [steps_append, steps_leaf h',
          steps_join_parts fun s hs => slashes s (List.mem_append_left rest hs)]
      · rw [steps_append, steps_leaf h', ← List.filter_append, ← hparts]
        rfl
      · intro s hs
        obtain ⟨hs, hne⟩ := List.mem_filter.1 hs
        exact (hrest s hs).resolve_left (bne_iff_ne.1 hne)
    case last => rw [getLast?_append _ h', getLast?_append _ h']
    case size =>
      rw [htail]
      simp only [String.utf8ByteSize_append]
      omega
    case chars =>
      rw [htail]
      intro c hc
      simp only [String.toList_append, List.mem_append] at hc ⊢
      exact hc.imp_left fun hc => hc.imp_left .inl
    case nonempty =>
      intro he
      have he := congrArg String.toList he
      simp at he

end Path
end Imageboard
