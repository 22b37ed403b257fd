import Imageboard.Proofs.Path

namespace Imageboard.Path

def component? (s : String) : Option Component :=
  if s = "" ∨ s = "." then none else if s = ".." then some .up else some (.name s)

/-- The components of a path but for the root or the dot that it starts with. -/
def inner (p : String) : List Component :=
  (parts p).filterMap component?

def lead (p : String) : List Component :=
  if isAbsolute p then [.root] else if (parts p).head? = some "." then [.here] else []

variable {base p q : String} {ss : List String}

theorem components_eq (p : String) : components p = lead p ++ inner p := by
  unfold components lead inner component?
  dsimp only
  split
  · rfl
  · split <;> rfl

theorem inner_append (d p : String) : inner (d ++ "/" ++ p) = inner d ++ inner p := by
  unfold inner
  rw [parts_append, List.filterMap_append]

@[simp] theorem inner_empty : inner "" = [] :=
  rfl

theorem head?_parts_append (d p : String) : (parts (d ++ "/" ++ p)).head? = (parts d).head? := by
  rw [parts_append, List.head?_append_of_ne_nil _ (parts_ne_nil d)]

theorem lead_append (d p q : String) : lead (d ++ "/" ++ p) = lead (d ++ "/" ++ q) := by
  unfold lead
  rw [isAbsolute_append, isAbsolute_append, head?_parts_append, head?_parts_append]

theorem lead_of_isPlain (h : isPlain p = true) : lead p = [] := by
  unfold isPlain at h
  rw [components_eq, List.all_append, Bool.and_eq_true] at h
  unfold lead at h ⊢
  split
  next ha => simp [ha] at h
  next ha =>
    split
    next hd => simp [ha, hd] at h
    next => rfl

theorem isAbsolute_of_isPlain (h : isPlain p = true) : isAbsolute p = false := by
  have hlead := lead_of_isPlain h
  unfold lead at hlead
  rw [← Bool.not_eq_true]
  intro ha
  rw [if_pos ha] at hlead
  cases hlead

theorem up_not_mem_of_isPlain (h : isPlain p = true) : .up ∉ inner p := by
  intro hup
  unfold isPlain at h
  have named := List.all_eq_true.1 h .up (components_eq p ▸ List.mem_append_right _ hup)
  cases named

theorem components_eq_iff_of_isPlain (hp : isPlain p = true) :
    components p = components q ↔ lead q = [] ∧ inner p = inner q := by
  have named (c : Component) (hc : c ∈ inner p) : ∃ s, c = .name s := by
    have h := List.all_eq_true.1 hp c (components_eq p ▸ List.mem_append_right _ hc)
    cases c with
    | name s => exact ⟨s, rfl⟩
    | _ => cases h
  rw [components_eq p, components_eq q, lead_of_isPlain hp, List.nil_append]
  constructor
  · intro h
    suffices hq : lead q = [] from ⟨hq, by rw [h, hq, List.nil_append]⟩
    rw [h] at named
    unfold lead at named ⊢
    split
    next ha =>
      obtain ⟨s, hs⟩ := named .root (by simp [ha])
      cases hs
    next ha =>
      split
      next hd =>
        obtain ⟨s, hs⟩ := named .here (by simp [ha, hd])
        cases hs
      next => rfl
  · rintro ⟨hq, hinner⟩
    rw [hq, hinner, List.nil_append]

theorem components_join_eq_iff (hb : base ≠ "") (hp : isAbsolute p = false)
    (hq : isAbsolute q = false) :
    components (join base p) = components (join base q) ↔ inner p = inner q := by
  obtain ⟨d, -, hjoin⟩ := exists_join hb
  rw [hjoin p hp, hjoin q hq, components_eq, components_eq, lead_append d p q, inner_append,
    inner_append, List.append_cancel_left_eq, List.append_cancel_left_eq]

theorem lead_join (hb : base ≠ "") (hp : isAbsolute p = false) :
    lead (join base p) = lead base := by
  obtain ⟨d, hdir, hjoin⟩ := exists_join hb
  rw [hjoin p hp]
  rcases hdir with rfl | rfl
  · have relative : isAbsolute (base ++ "/" ++ p) = isAbsolute base := by
      rw [isAbsolute_append, beq_false_of_ne hb, Bool.false_or]
    unfold lead
    rw [relative, head?_parts_append]
  · have slashed := lead_append d p ""
    rwa [String.append_empty] at slashed

theorem inner_join (base : String) (hp : isAbsolute p = false) :
    inner (join base p) = inner base ++ inner p := by
  by_cases hb : base = ""
  · rw [hb, join_empty, inner_empty, List.nil_append]
  · obtain ⟨d, hdir, hjoin⟩ := exists_join hb
    rw [hjoin p hp, inner_append]
    rcases hdir with rfl | rfl
    · rfl
    · have slashed := inner_append d ""
      rw [String.append_empty] at slashed
      rw [slashed, inner_empty, List.append_nil]

theorem components_join (base : String) (hp : isPlain p = true) :
    components (join base p) = components base ++ components p := by
  have relative := isAbsolute_of_isPlain hp
  rw [components_eq p, lead_of_isPlain hp, List.nil_append]
  by_cases hb : base = ""
  · rw [hb, join_empty, components_eq p, lead_of_isPlain hp]
    rfl
  · rw [components_eq, components_eq base, lead_join hb relative, inner_join base relative,
      List.append_assoc]

theorem exists_names (h : .up ∉ ss.filterMap component?) : ∃ xs : List String,
    ss.filterMap component? = xs.map .name ∧
      ∀ ns, (ss.filter (· != "")).foldl step ns = ns ++ xs := by
  induction ss with
  | nil => exact ⟨[], rfl, fun ns => (List.append_nil ns).symm⟩
  | cons s ss ih =>
    by_cases hempty : s = ""
    · simpa [component?, hempty] using ih (by simpa [component?, hempty] using h)
    · by_cases hdot : s = "."
      · simpa [component?, hdot, step] using ih (by simpa [component?, hdot] using h)
      · have hup : s ≠ ".." := by
          rintro rfl
          simp [component?] at h
        obtain ⟨xs, hxs, hfold⟩ := ih (by simpa [component?, hempty, hdot, hup] using h)
        refine ⟨s :: xs, by simp [component?, hempty, hdot, hup, hxs], fun ns => ?_⟩
        simp [hempty, step, hdot, hup, hfold]

theorem exists_inner_eq (h : .up ∉ inner p) : ∃ xs : List String,
    inner p = xs.map .name ∧ ∀ ns, (steps p).foldl step ns = ns ++ xs :=
  exists_names h

/-- A path goes down by some names: there is one at least, and they are all of its components. -/
structure LeadsDown (p : String) (names : List String) : Prop where
  nonempty : names ≠ []
  leaves : ∀ name ∈ names, IsLeaf name
  components : components p = names.map .name

theorem isLeaf_of_mem_inner {s : String} (h : .name s ∈ inner p) : IsLeaf s := by
  obtain ⟨part, hpart, hs⟩ := List.mem_filterMap.1 h
  unfold component? at hs
  split at hs
  · cases hs
  next hnamed =>
    split at hs
    · cases hs
    next hup =>
      obtain rfl := Component.name.inj (Option.some.inj hs)
      obtain ⟨hempty, hdot⟩ := not_or.1 hnamed
      exact ⟨not_mem_of_mem_parts hpart, hempty, hdot, hup⟩

theorem inner_ne_nil_of_isPlain (hp : isPlain p = true) (hne : p ≠ "") : inner p ≠ [] := by
  have relative := isAbsolute_of_isPlain hp
  have undotted := lead_of_isPlain hp
  have joined := join_parts p
  unfold lead at undotted
  rw [relative, if_neg Bool.false_ne_true] at undotted
  unfold inner
  cases hparts : parts p with
  | nil => exact absurd hparts (parts_ne_nil p)
  | cons s ss =>
    rw [hparts] at undotted joined
    have hempty : s ≠ "" := by
      rintro rfl
      by_cases hss : ss = []
      · rw [hss] at joined
        exact hne joined.symm
      · rw [Text.join_cons _ _ hss] at joined
        have slashed := isAbsolute_append "" (Text.join "/" ss)
        rw [joined, relative] at slashed
        exact absurd slashed (by decide)
    have hdot : s ≠ "." := by
      rintro rfl
      rw [List.head?_cons, if_pos rfl] at undotted
      cases undotted
    simp only [List.filterMap_cons, component?, hempty, hdot, or_self, if_false]
    split
    next h => split at h <;> cases h
    next => exact List.cons_ne_nil _ _

theorem isPlain_iff : p ≠ "" ∧ isPlain p = true ↔ ∃ names, LeadsDown p names := by
  constructor
  · rintro ⟨hne, hp⟩
    obtain ⟨names, hnames, -⟩ := exists_names (up_not_mem_of_isPlain hp)
    have all : inner p = names.map .name := hnames
    refine ⟨names, ?_, fun name hname => ?_, ?_⟩
    · rintro rfl
      exact inner_ne_nil_of_isPlain hp hne all
    · exact isLeaf_of_mem_inner (all ▸ List.mem_map_of_mem hname)
    · rw [components_eq, lead_of_isPlain hp, List.nil_append, all]
  · rintro ⟨names, h⟩
    refine ⟨?_, ?_⟩
    · rintro rfl
      exact h.nonempty (List.map_eq_nil_iff.1 h.components.symm)
    · unfold isPlain
      rw [h.components, List.all_map]
      exact List.all_eq_true.2 fun _ _ => rfl

/-- Below a directory relative paths without double dots lead to the same names exactly if they have
the same components. -/
theorem names_join_eq_iff (base : String) (hp : isAbsolute p = false) (hq : isAbsolute q = false)
    (hpup : .up ∉ inner p) (hqup : .up ∉ inner q) :
    names (join base p) = names (join base q) ↔ inner p = inner q := by
  obtain ⟨xs, hxs, hpsteps⟩ := exists_inner_eq hpup
  obtain ⟨ys, hys, hqsteps⟩ := exists_inner_eq hqup
  have named : inner p = inner q ↔ xs = ys := by
    rw [hxs, hys]
    exact List.map_inj_right fun _ _ h => Component.name.inj h
  rw [named]
  by_cases hb : base = ""
  · have alone {r : String} (hr : isAbsolute r = false) : names r = (steps r).foldl step [] := by
      rw [names, start, hr]
      rfl
    rw [hb, join_empty, join_empty, alone hp, alone hq, hpsteps, hqsteps, List.nil_append,
      List.nil_append]
  · obtain ⟨d, -, hjoin⟩ := exists_join hb
    have same : start (d ++ "/" ++ p) = start (d ++ "/" ++ q) := by
      rw [start, start, isAbsolute_append, isAbsolute_append]
    rw [hjoin p hp, hjoin q hq, names, names, same, steps_append, steps_append, List.foldl_append,
      List.foldl_append, hpsteps, hqsteps, List.append_cancel_left_eq]

end Imageboard.Path
