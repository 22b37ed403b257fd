import Imageboard.Text.Blank
import Mathlib.Data.List.DropRight
import Mathlib.Data.List.TakeWhile

namespace Imageboard.Text

section Lists

variable {p : Char → Bool} {sep : Char} {cs front back front' back' : List Char}

theorem cut?_eq_some_iff :
    cut? sep cs = some (front, back) ↔ cs = front ++ sep :: back ∧ sep ∉ front := by
  induction cs generalizing front with
  | nil => simp [cut?]
  | cons c cs ih =>
    unfold cut?
    split
    next h =>
      subst h
      constructor
      · intro h
        cases h
        exact ⟨rfl, List.not_mem_nil⟩
      · rintro ⟨h, hn⟩
        cases front with
        | nil =>
          cases h
          rfl
        | cons d front =>
          cases h
          exact absurd List.mem_cons_self hn
    next hne =>
      constructor
      · intro h
        obtain ⟨⟨a, d⟩, hcut, he⟩ := Option.map_eq_some_iff.1 h
        cases he
        obtain ⟨rfl, hn⟩ := ih.1 hcut
        exact ⟨rfl, fun hm => (List.mem_cons.1 hm).elim (fun h => hne h.symm) hn⟩
      · rintro ⟨h, hn⟩
        cases front with
        | nil =>
          cases h
          exact absurd rfl hne
        | cons d front =>
          cases h
          have hcut := ih.2 ⟨rfl, fun hm => hn (List.mem_cons_of_mem _ hm)⟩
          rw [hcut]
          rfl

theorem cut?_eq_none_iff : cut? sep cs = none ↔ sep ∉ cs := by
  induction cs with
  | nil => simp [cut?]
  | cons c cs ih =>
    unfold cut?
    split
    next h => simp [h]
    next hne => simp [ih, Ne.symm hne]

theorem append_sep_inj (h : front ++ sep :: back = front' ++ sep :: back') (hn : sep ∉ front)
    (hn' : sep ∉ front') : front = front' ∧ back = back' := by
  have hcut : cut? sep (front ++ sep :: back) = some (front, back) := cut?_eq_some_iff.2 ⟨rfl, hn⟩
  have hcut' : cut? sep (front ++ sep :: back) = some (front', back') := cut?_eq_some_iff.2 ⟨h, hn'⟩
  rw [hcut] at hcut'
  cases hcut'
  exact ⟨rfl, rfl⟩

theorem after?_eq_some_iff : after? front cs = some back ↔ cs = front ++ back := by
  induction front generalizing cs with
  | nil => simp [after?, eq_comm]
  | cons f front ih =>
    cases cs with
    | nil => simp [after?]
    | cons c cs =>
      unfold after?
      split
      next h => rw [ih, h, List.cons_append, List.cons.injEq, and_iff_right rfl]
      next h => exact ⟨nofun, fun he => absurd (List.cons.inj he).1.symm h⟩

@[simp] theorem after?_append : after? front (front ++ back) = some back :=
  after?_eq_some_iff.2 rfl

theorem mem_of_mem_strip {c : Char} (h : c ∈ strip p cs) : c ∈ cs := by
  have h := (List.dropWhile_sublist p).subset (List.mem_reverse.1 h)
  exact (List.dropWhile_sublist p).subset (List.mem_reverse.1 h)

theorem strip_eq_nil_iff : strip p cs = [] ↔ ∀ c ∈ cs, p c = true := by
  unfold strip
  rw [List.reverse_eq_nil_iff, List.dropWhile_eq_nil_iff]
  constructor
  · intro h c hc
    rw [← List.takeWhile_append_dropWhile (p := p) (l := cs), List.mem_append] at hc
    rcases hc with hc | hc
    · exact List.mem_takeWhile_imp hc
    · exact h c (List.mem_reverse.2 hc)
  · intro h c hc
    exact h c ((List.dropWhile_sublist p).subset (List.mem_reverse.1 hc))

theorem strip_eq_self (first : ∀ c ∈ cs.head?, p c = false)
    (last : ∀ c ∈ cs.getLast?, p c = false) : strip p cs = cs := by
  have keeps {cs : List Char} (h : ∀ c ∈ cs.head?, p c = false) : cs.dropWhile p = cs := by
    cases cs with
    | nil => rfl
    | cons c cs => rw [List.dropWhile_cons_of_neg (by simp [h c rfl])]
  unfold strip
  rw [keeps first, keeps (by rwa [List.head?_reverse]), List.reverse_reverse]

theorem strip_dropWhile : strip p (cs.dropWhile p) = strip p cs := by
  unfold strip
  rw [List.dropWhile_idempotent]

theorem strip_dropEnd : strip p (cs.reverse.dropWhile p).reverse = strip p cs := by
  have hcs : cs = (cs.reverse.dropWhile p).reverse ++ (cs.reverse.takeWhile p).reverse := by
    rw [← List.reverse_append, List.takeWhile_append_dropWhile, List.reverse_reverse]
  generalize hd : (cs.reverse.dropWhile p).reverse = ds at *
  have hend : ∀ c ∈ cs.reverse.takeWhile p, p c = true := fun c hc => List.mem_takeWhile_imp hc
  rw [hcs]
  unfold strip
  rw [List.dropWhile_append]
  split
  next h =>
    rw [List.isEmpty_iff] at h
    have hall : ((cs.reverse.takeWhile p).reverse).dropWhile p = [] :=
      List.dropWhile_eq_nil_iff.2 fun c hc => hend c (List.mem_reverse.1 hc)
    rw [h, hall]
  next =>
    rw [List.reverse_append, List.reverse_reverse, List.dropWhile_append_of_pos hend]

theorem strip_append (hfront : ∀ c ∈ front, p c = true) (hback : ∀ c ∈ back, p c = true) :
    strip p (front ++ cs ++ back) = strip p cs := by
  rw [← strip_dropWhile, List.append_assoc, List.dropWhile_append_of_pos hfront, strip_dropWhile,
    ← strip_dropEnd, List.reverse_append,
    List.dropWhile_append_of_pos fun c hc => hback c (List.mem_reverse.1 hc), strip_dropEnd]

theorem strip_strip : strip p (strip p cs) = strip p cs :=
  strip_dropEnd.trans strip_dropWhile

theorem strip_append_sep (h : p sep = false) :
    strip p (front ++ sep :: back) =
      front.dropWhile p ++ sep :: (back.reverse.dropWhile p).reverse := by
  have first (xs ys : List Char) : (xs ++ sep :: ys).dropWhile p = xs.dropWhile p ++ sep :: ys := by
    rw [List.dropWhile_append]
    split
    next he => rw [List.isEmpty_iff.1 he, List.dropWhile_cons_of_neg (by simp [h]), List.nil_append]
    next => rfl
  unfold strip
  rw [first, List.reverse_append, List.reverse_cons, List.append_assoc, List.singleton_append,
    first]
  simp

theorem cut?_strip (h : p sep = false) (hcut : cut? sep cs = some (front, back)) :
    ∃ front' back', cut? sep (strip p cs) = some (front', back') ∧
      strip p front' = strip p front ∧ strip p back' = strip p back := by
  obtain ⟨rfl, hn⟩ := cut?_eq_some_iff.1 hcut
  refine ⟨_, _, cut?_eq_some_iff.2 ⟨strip_append_sep h, fun hm => ?_⟩, strip_dropWhile,
    strip_dropEnd⟩
  exact hn ((List.dropWhile_sublist p).subset hm)

theorem pieces_ne_nil : pieces sep cs ≠ [] := by
  cases cs with
  | nil => exact List.cons_ne_nil _ _
  | cons c cs =>
    unfold pieces
    split
    next => exact List.cons_ne_nil _ _
    next => split <;> exact List.cons_ne_nil _ _

theorem pieces_append (sep : Char) (front back : List Char) :
    pieces sep (front ++ sep :: back) = pieces sep front ++ pieces sep back := by
  induction front with
  | nil =>
    cases hp : pieces sep back with
    | nil => exact absurd hp pieces_ne_nil
    | cons p ps => simp [pieces, hp]
  | cons c front ih =>
    rw [List.cons_append, pieces, pieces, ih]
    cases hp : pieces sep front with
    | nil => exact absurd hp pieces_ne_nil
    | cons p ps => by_cases hc : c = sep <;> simp [hc]

theorem pieces_of_not_mem (h : sep ∉ cs) : pieces sep cs = [cs] := by
  induction cs with
  | nil => rfl
  | cons c cs ih =>
    obtain ⟨hc, hcs⟩ := not_or.1 (mt List.mem_cons.2 h)
    rw [pieces, ih hcs]
    exact if_neg (Ne.symm hc)

theorem pieces_append_sep (h : sep ∉ front) :
    pieces sep (front ++ sep :: back) = front :: pieces sep back := by
  rw [pieces_append, pieces_of_not_mem h]
  rfl

theorem not_mem_of_mem_pieces {piece : List Char} (h : piece ∈ pieces sep cs) : sep ∉ piece := by
  induction cs generalizing piece with
  | nil =>
    obtain rfl := List.mem_singleton.1 h
    exact List.not_mem_nil
  | cons c cs ih =>
    cases hp : pieces sep cs with
    | nil => exact absurd hp pieces_ne_nil
    | cons p ps =>
      rw [hp] at ih
      rw [pieces, hp] at h
      dsimp only at h
      split at h
      next =>
        rcases List.mem_cons.1 h with rfl | h
        · exact List.not_mem_nil
        · exact ih h
      next hc =>
        rcases List.mem_cons.1 h with rfl | h
        · intro hm
          rcases List.mem_cons.1 hm with rfl | hm
          · exact hc rfl
          · exact ih List.mem_cons_self hm
        · exact ih (List.mem_cons_of_mem p h)

theorem words_go_append {run : List Char} (h : ∀ c ∈ front, isBlank c = false) :
    words.go run (front ++ back) = words.go (front.reverse ++ run) back := by
  induction front generalizing run with
  | nil => rfl
  | cons c front ih =>
    have hc : isBlank c = false := h c List.mem_cons_self
    rw [List.cons_append, words.go, hc, List.reverse_cons, List.append_assoc]
    exact ih fun d hd => h d (List.mem_cons_of_mem c hd)

end Lists

theorem trim_eq_empty_iff {s : String} : trim s = "" ↔ isBlankText s = true := by
  have empty : trim s = "" ↔ strip isBlank s.toList = [] := by
    rw [trim, ← String.toList_inj, String.toList_ofList]
    rfl
  rw [empty, strip_eq_nil_iff, isBlankText, List.all_eq_true]

theorem trim_trim (s : String) : trim (trim s) = trim s := by
  unfold trim
  rw [String.toList_ofList, strip_strip]

theorem join_cons (sep s : String) {ss : List String} (h : ss ≠ []) :
    join sep (s :: ss) = s ++ sep ++ join sep ss := by
  cases ss with
  | nil => exact absurd rfl h
  | cons t ss =>
    rw [join]
    exact nofun

theorem toList_join_cons (sep s : String) {ss : List String} (h : ss ≠ []) :
    (join sep (s :: ss)).toList = s.toList ++ (sep.toList ++ (join sep ss).toList) := by
  rw [join_cons sep s h, String.toList_append, String.toList_append, List.append_assoc]

theorem mem_join {c : Char} {sep : String} {ss : List String} (h : c ∈ (join sep ss).toList) :
    c ∈ sep.toList ∨ ∃ s ∈ ss, c ∈ s.toList := by
  induction ss with
  | nil => exact absurd h List.not_mem_nil
  | cons s ss ih =>
    by_cases hss : ss = []
    · subst hss
      exact .inr ⟨s, List.mem_cons_self, h⟩
    · rw [toList_join_cons sep s hss, List.mem_append, List.mem_append] at h
      rcases h with h | h | h
      · exact .inr ⟨s, List.mem_cons_self, h⟩
      · exact .inl h
      · exact (ih h).imp_right fun ⟨t, ht, hc⟩ => ⟨t, List.mem_cons_of_mem s ht, hc⟩

theorem pieces_filter_join {sep : Char} {between : String} {p : Char → Bool} {ss : List String}
    (hsep : between.toList = [sep]) (hp : p sep = true) (hss : ss ≠ [])
    (h : ∀ s ∈ ss, sep ∉ s.toList) :
    pieces sep ((join between ss).toList.filter p) = ss.map fun s => s.toList.filter p := by
  have uncut {s : String} (hs : sep ∉ s.toList) : sep ∉ s.toList.filter p :=
    fun hm => hs (List.mem_of_mem_filter hm)
  induction ss with
  | nil => exact absurd rfl hss
  | cons s ss ih =>
    have hs := uncut (h s List.mem_cons_self)
    by_cases hrest : ss = []
    · subst hrest
      rw [join, pieces_of_not_mem hs]
      rfl
    · have rest := ih hrest fun t ht => h t (List.mem_cons_of_mem s ht)
      rw [toList_join_cons between s hrest, hsep, List.filter_append, List.singleton_append,
        List.filter_cons_of_pos hp, pieces_append_sep hs, rest]
      rfl

section Words

variable {ss : List String} (h : ∀ s ∈ ss, s.toList ≠ [] ∧ ∀ c ∈ s.toList, isBlank c = false)
include h

theorem words_join : words (join " " ss).toList = ss.map String.toList := by
  unfold words
  induction ss with
  | nil => rfl
  | cons s ss ih =>
    obtain ⟨hs, hblank⟩ := h s List.mem_cons_self
    have run : (s.toList.reverse ++ []).isEmpty = false := by simpa using hs
    by_cases hss : ss = []
    · subst hss
      have last : words.go [] (s.toList ++ []) = words.go (s.toList.reverse ++ []) [] :=
        words_go_append hblank
      rw [List.append_nil] at last
      rw [join, last, words.go, run]
      simp
    · rw [toList_join_cons " " s hss, words_go_append hblank]
      have space : isBlank ' ' = true := by decide
      change words.go _ (' ' :: (join " " ss).toList) = _
      rw [words.go, space, run, ih fun t ht => h t (List.mem_cons_of_mem s ht)]
      simp

theorem head?_join (hss : ss ≠ []) : ∃ s ∈ ss, (join " " ss).toList.head? = s.toList.head? := by
  cases ss with
  | nil => exact absurd rfl hss
  | cons s ss =>
    refine ⟨s, List.mem_cons_self, ?_⟩
    by_cases hss : ss = []
    · rw [hss, join]
    · rw [toList_join_cons " " s hss, List.head?_append_of_ne_nil _ (h s List.mem_cons_self).1]

theorem getLast?_join (hss : ss ≠ []) :
    ∃ s ∈ ss, (join " " ss).toList.getLast? = s.toList.getLast? := by
  induction ss with
  | nil => exact absurd rfl hss
  | cons s ss ih =>
    by_cases hss : ss = []
    · exact ⟨s, List.mem_cons_self, by rw [hss, join]⟩
    · obtain ⟨t, ht, he⟩ := ih (fun t ht => h t (List.mem_cons_of_mem s ht)) hss
      refine ⟨t, List.mem_cons_of_mem s ht, ?_⟩
      have hne : (join " " ss).toList ≠ [] := by
        intro hnil
        rw [hnil] at he
        exact (h t (List.mem_cons_of_mem s ht)).1 (List.getLast?_eq_none_iff.1 he.symm)
      rw [toList_join_cons " " s hss, ← List.append_assoc, List.getLast?_append_of_ne_nil _ hne, he]

theorem strip_join : strip isBlank (join " " ss).toList = (join " " ss).toList := by
  by_cases hss : ss = []
  · rw [hss]
    rfl
  · obtain ⟨s, hs, first⟩ := head?_join h hss
    obtain ⟨t, ht, last⟩ := getLast?_join h hss
    apply strip_eq_self
    · rw [first]
      exact fun c hc => (h s hs).2 c (List.mem_of_mem_head? hc)
    · rw [last]
      exact fun c hc => (h t ht).2 c (List.mem_of_mem_getLast? hc)

end Words

theorem join_inj {sep : Char} {between : String} {ss ts : List String}
    (hsep : between.toList = [sep]) (hs : ∀ s ∈ ss, s ≠ "" ∧ sep ∉ s.toList)
    (ht : ∀ s ∈ ts, s ≠ "" ∧ sep ∉ s.toList) (h : join between ss = join between ts) : ss = ts := by
  have parts {us : List String} (hu : ∀ s ∈ us, s ≠ "" ∧ sep ∉ s.toList) (hne : us ≠ []) :
      pieces sep (join between us).toList = us.map String.toList := by
    have kept := pieces_filter_join (p := fun _ => true) hsep rfl hne fun s hm => (hu s hm).2
    simpa only [List.filter_true] using kept
  have nothing {us : List String} (hu : ∀ s ∈ us, s ≠ "" ∧ sep ∉ s.toList)
      (he : join between us = "") : us = [] := by
    by_contra hne
    have empty : [] ∈ us.map String.toList := by
      rw [← parts hu hne, he]
      exact List.mem_singleton_self []
    obtain ⟨s, hm, hnil⟩ := List.mem_map.1 empty
    exact (hu s hm).1 (String.toList_injective hnil)
  by_cases hss : ss = []
  · rw [hss] at h ⊢
    exact (nothing ht h.symm).symm
  · by_cases hts : ts = []
    · rw [hts] at h ⊢
      exact nothing hs h
    · have same : ss.map String.toList = ts.map String.toList := by
        rw [← parts hs hss, ← parts ht hts, h]
      exact List.map_injective_iff.2 (fun _ _ => String.toList_injective) same

theorem labels_inj {sep : Char} {after : List Char} {between : String} {f g : String → String}
    {labels labels' : List String} (hsep : between.toList = sep :: after)
    (hl : ∀ l ∈ labels, sep ∉ l.toList) (hl' : ∀ l ∈ labels', sep ∉ l.toList)
    (h : (labels.map fun l => l ++ between ++ f l) = labels'.map fun l => l ++ between ++ g l) :
    labels = labels' ∧ ∀ l ∈ labels, f l = g l := by
  induction labels generalizing labels' with
  | nil => exact ⟨(List.map_eq_nil_iff.1 h.symm).symm, nofun⟩
  | cons l labels ih =>
    cases labels' with
    | nil => cases h
    | cons l' labels' =>
      obtain ⟨line, lines⟩ := List.cons.inj h
      have line := congrArg String.toList line
      simp only [String.toList_append, hsep, List.append_assoc, List.cons_append] at line
      obtain ⟨hlabel, hvalue⟩ :=
        append_sep_inj line (hl l List.mem_cons_self) (hl' l' List.mem_cons_self)
      obtain rfl := String.toList_injective hlabel
      obtain ⟨rfl, values⟩ := ih (fun m hm => hl m (List.mem_cons_of_mem l hm))
        (fun m hm => hl' m (List.mem_cons_of_mem l hm)) lines
      refine ⟨rfl, fun m hm => ?_⟩
      rcases List.mem_cons.1 hm with rfl | hm
      · exact String.toList_injective (List.append_cancel_left hvalue)
      · exact values m hm

end Imageboard.Text
