import Imageboard.Json.Parser
import Imageboard.Json.Printer
import Imageboard.Proofs.Text.Cuts
import Imageboard.Proofs.Text.Numerals

namespace Imageboard.Json

open Text

variable {fuel : Nat} {c : Char} {cs rest : List Char} {p : Partial}

namespace Value

mutual

/-- Whether a value is given back by its text: all its numbers are whole ones that are kept as such,
and nothing in it is malformed. -/
def isExact : Value → Bool
  | .null => true
  | .bool _ => true
  | .num (.int n) => -0x8000000000000000 ≤ n && n ≤ 0xFFFFFFFFFFFFFFFF
  | .num (.float _) => false
  | .str _ => true
  | .arr items => isExactAll items
  | .obj members => isExactMembers members
  | .malformed => false

def isExactAll : List Value → Bool
  | [] => true
  | v :: vs => isExact v && isExactAll vs

def isExactMembers : List (String × Value) → Bool
  | [] => true
  | (_, v) :: ms => isExact v && isExactMembers ms

end

end Value

theorem hex4?_hex {n : Nat} (h : n < 0x20) : hex4? (hex 4 n ++ cs) = some (n, cs) := by
  have all : ∀ n < 0x20, (hex 4 n).length = 4 ∧ hex4? (hex 4 n) = some (n, []) := by decide
  obtain ⟨hlen, hread⟩ := all n h
  obtain ⟨a, b, c, d, hds⟩ : ∃ a b c d, hex 4 n = [a, b, c, d] := by
    match hex 4 n, hlen with
    | [a, b, c, d], _ => exact ⟨a, b, c, d, rfl⟩
  rw [hds] at hread ⊢
  simp only [hex4?, List.cons_append, List.nil_append, bind, Option.bind_eq_some_iff] at hread ⊢
  obtain ⟨a, ha, b, hb, c, hc, d, hd, he⟩ := hread
  refine ⟨a, ha, b, hb, c, hc, d, hd, ?_⟩
  cases he
  rfl

theorem string?_unit : string? p (fuel + 1) ('\\' :: 'u' :: cs) =
    match hex4? cs with
    | some (n, cs) => string? (p.pushUnit n) fuel cs
    | none => none :=
  rfl

theorem string?_escapeChar : string? p (fuel + 1) (escapeChar c ++ cs) =
    string? (p.push c) fuel cs := by
  unfold escapeChar
  split_ifs with hquote hslash hback hfeed hline hreturn htab hlow
  · rw [hquote]; rfl
  · rw [hslash]; rfl
  · rw [hback]; rfl
  · rw [hfeed]; rfl
  · rw [hline]; rfl
  · rw [hreturn]; rfl
  · rw [htab]; rfl
  · have plain : p.pushUnit c.toNat = p.push c := by
      unfold Partial.pushUnit
      rw [if_neg (by omega), if_neg (by omega), Char.ofNat_toNat]
    rw [List.append_assoc]
    change string? p (fuel + 1) ('\\' :: 'u' :: (hex 4 c.toNat ++ cs)) = _
    rw [string?_unit, hex4?_hex hlow]
    exact congrArg (string? · fuel cs) plain
  · rw [List.singleton_append]
    conv_lhs => unfold string?
    rw [if_neg hquote, if_neg hslash, if_neg hlow]

theorem string?_flatMap (half : p.half = none) (whole : p.whole = true) (h : cs.length < fuel) :
    string? p fuel (cs.flatMap escapeChar ++ '"' :: rest) =
      some (some (String.ofList (p.done.reverse ++ cs)), rest) := by
  induction cs generalizing p fuel with
  | nil =>
    obtain ⟨fuel, rfl⟩ : ∃ k, fuel = k + 1 := ⟨fuel - 1, by omega⟩
    simp [string?, Partial.text?, half, whole]
  | cons c cs ih =>
    obtain ⟨fuel, rfl⟩ : ∃ k, fuel = k + 1 := ⟨fuel - 1, by omega⟩
    have shorter : cs.length < fuel := by simpa using h
    rw [List.flatMap_cons, List.append_assoc, string?_escapeChar, ih rfl ?_ shorter]
    · simp [Partial.push]
    · simp [Partial.push, half, whole]

theorem escapeChar_ne_nil (c : Char) : escapeChar c ≠ [] := by
  unfold escapeChar
  repeat' split
  all_goals exact List.cons_ne_nil _ _

theorem length_le_flatMap_escapeChar (cs : List Char) :
    cs.length ≤ (cs.flatMap escapeChar).length := by
  induction cs with
  | nil => exact Nat.le_refl 0
  | cons c cs ih =>
    have hpos := List.length_pos_iff.2 (escapeChar_ne_nil c)
    rw [List.flatMap_cons, List.length_append, List.length_cons]
    omega

theorem toList_renderString (s : String) :
    (renderString s).toList = '"' :: (s.toList.flatMap escapeChar ++ ['"']) := by
  rw [renderString, String.toList_ofList]
  rfl

theorem string?_renderString (s : String) (rest : List Char) :
    string? {} ((s.toList.flatMap escapeChar ++ '"' :: rest).length + 1)
      (s.toList.flatMap escapeChar ++ '"' :: rest) = some (some s, rest) := by
  have hlen := length_le_flatMap_escapeChar s.toList
  rw [string?_flatMap rfl rfl (by rw [List.length_append]; omega)]
  simp

theorem absorb_digits {ds : List Char} {n taken : Nat}
    (h : ds.foldl (fun n c => 10 * n + digitValue c) n ≤ maxWord) :
    absorb n taken ds = (ds.foldl (fun n c => 10 * n + digitValue c) n, taken + ds.length) := by
  have grows (ds : List Char) (n : Nat) : n ≤ ds.foldl (fun n c => 10 * n + digitValue c) n := by
    induction ds generalizing n with
    | nil => exact Nat.le_refl n
    | cons d ds ih =>
      have step : n ≤ 10 * n + digitValue d := by omega
      exact Nat.le_trans step (ih _)
  induction ds generalizing n taken with
  | nil => rfl
  | cons d ds ih =>
    rw [List.foldl_cons] at h
    have small : ¬ 10 * n + digitValue d > maxWord := by
      have hle := grows ds (10 * n + digitValue d)
      omega
    rw [absorb, if_neg small, ih h, List.foldl_cons, List.length_cons]
    congr 1
    omega

theorem absorb_toDigits {n : Nat} (h : n ≤ maxWord) :
    absorb 0 0 (Nat.toDigits 10 n) = (n, (Nat.toDigits 10 n).length) := by
  have value : (Nat.toDigits 10 n).foldl (fun n c => 10 * n + digitValue c) 0 = n :=
    ofDigits_toDigits n
  rw [absorb_digits (by rw [value]; exact h), value, Nat.zero_add]

def Closes (rest : List Char) : Prop :=
  ∀ c ∈ rest.head?, c = ',' ∨ c = ']' ∨ c = '\x7d'

theorem numberValue_toDigits (negative : Bool) {n : Nat} (h : n ≤ maxWord)
    (hneg : negative = true → 0 < n ∧ n ≤ 0x8000000000000000) :
    numberValue negative (Nat.toDigits 10 n) none none =
      .num (.int (if negative then -(n : Int) else n)) := by
  have whole : (!negative || (decide (0 < n) && decide (n ≤ 0x8000000000000000))) = true := by
    cases negative with
    | false => rfl
    | true => simpa using hneg rfl
  unfold numberValue
  rw [absorb_toDigits h]
  dsimp only
  rw [whole, Nat.sub_self]
  rfl

theorem toList_toString (n : Int) : (toString n).toList =
    (if n < 0 then ['-'] else []) ++ Nat.toDigits 10 n.natAbs := by
  cases n with
  | ofNat n =>
    have whole : ¬ Int.ofNat n < 0 := Int.not_lt.2 (Int.natCast_nonneg n)
    rw [if_neg whole]
    exact Nat.toList_repr
  | negSucc n =>
    rw [if_pos (Int.negSucc_lt_zero n)]
    change ("-" ++ Nat.repr (n + 1)).toList = _
    rw [String.toList_append, Nat.toList_repr]
    rfl

theorem number?_toDigits (n : Nat) (hrest : Closes rest) :
    number? (Nat.toDigits 10 n ++ rest) =
        some (numberValue false (Nat.toDigits 10 n) none none, rest) ∧
      number? ('-' :: (Nat.toDigits 10 n ++ rest)) =
        some (numberValue true (Nat.toDigits 10 n) none none, rest) := by
  obtain ⟨d, ds, hds, digit⟩ := exists_toDigits n
  have all : ∀ c ∈ Nat.toDigits 10 n, isDigit c = true := fun _ => isDigit_of_mem_toDigits
  have stop : ∀ c ∈ rest.head?, isDigit c = false := by
    intro c hc
    rcases hrest c hc with rfl | rfl | rfl <;> rfl
  have plain : ((Nat.toDigits 10 n).isEmpty || ((Nat.toDigits 10 n).head? == some '0' &&
      decide (1 < (Nat.toDigits 10 n).length))) = false := by
    rw [Bool.or_eq_false_iff, Bool.and_eq_false_iff]
    refine ⟨by rw [hds]; rfl, ?_⟩
    by_cases hn : n = 0
    · right
      rw [hn]
      rfl
    · left
      rw [beq_eq_false_iff_ne]
      exact head?_toDigits (Nat.pos_of_ne_zero hn)
  have unsigned : d ≠ '-' := by
    rintro rfl
    cases digit
  have read := digits_append all stop
  constructor
  · unfold number?
    rw [hds, List.cons_append]
    split
    next negative cs he =>
      split at he
      next hd => exact absurd (List.cons.inj hd).1 unsigned
      next =>
        cases he
        rw [← List.cons_append, ← hds]
        simp only [read, plain]
        rcases rest with _ | ⟨c, rest⟩
        · rfl
        · rcases hrest c rfl with rfl | rfl | rfl <;> rfl
  · unfold number?
    simp only [read, plain]
    rcases rest with _ | ⟨c, rest⟩
    · rfl
    · rcases hrest c rfl with rfl | rfl | rfl <;> rfl

theorem number?_toString {n : Int} (h : Value.isExact (.num (.int n)) = true)
    (hrest : Closes rest) :
    number? ((toString n).toList ++ rest) = some (.num (.int n), rest) := by
  simp only [Value.isExact, Bool.and_eq_true, decide_eq_true_eq] at h
  obtain ⟨low, high⟩ := h
  obtain ⟨plain, signed⟩ := number?_toDigits n.natAbs hrest
  have small : n.natAbs ≤ maxWord := by
    unfold maxWord
    omega
  rw [toList_toString]
  by_cases hneg : n < 0
  · have value := numberValue_toDigits true small fun _ => by omega
    have abs : -(n.natAbs : Int) = n := by omega
    rw [if_pos hneg, List.append_assoc, List.singleton_append, signed, value, if_pos rfl, abs]
  · have value := numberValue_toDigits false small nofun
    have abs : (n.natAbs : Int) = n := by omega
    rw [if_neg hneg, List.nil_append, plain, value, if_neg Bool.false_ne_true, abs]

namespace Value

theorem toList_render_arr (items : List Value) :
    (render (.arr items)).toList = '[' :: ((renderItems items).toList ++ [']']) := by
  rw [render, String.toList_append, String.toList_append]
  rfl

theorem toList_render_obj (members : List (String × Value)) :
    (render (.obj members)).toList = '\x7b' :: ((renderMembers members).toList ++ ['\x7d']) := by
  rw [render, String.toList_append, String.toList_append]
  rfl

theorem toList_renderItems_cons (v w : Value) (vs : List Value) :
    (renderItems (v :: w :: vs)).toList =
      (render v).toList ++ ',' :: (renderItems (w :: vs)).toList := by
  rw [renderItems, String.toList_append, String.toList_append, List.append_assoc]
  · rfl
  · exact List.cons_ne_nil w vs

theorem exists_render (v : Value) (h : v.isExact = true) : ∃ c cs, (render v).toList = c :: cs ∧
    c ∉ [' ', '\n', '\t', '\r', ']'] := by
  cases v with
  | null => exact ⟨_, _, rfl, by decide⟩
  | bool b => cases b <;> exact ⟨_, _, rfl, by decide⟩
  | num n =>
    cases n with
    | float x => cases h
    | int n =>
      obtain ⟨d, ds, hds, digit⟩ := exists_toDigits n.natAbs
      change ∃ c cs, (toString n).toList = c :: cs ∧ _
      rw [toList_toString]
      split
      next => exact ⟨_, _, rfl, by decide⟩
      next =>
        refine ⟨d, ds, hds, ?_⟩
        have others : ∀ c ∈ [' ', '\n', '\t', '\r', ']'], isDigit c = false :=
          forall_mem_of_all (by decide)
        intro hmem
        rw [others d hmem] at digit
        cases digit
  | str s => exact ⟨_, _, toList_renderString s, by decide⟩
  | arr items => exact ⟨_, _, toList_render_arr items, by decide⟩
  | obj members => exact ⟨_, _, toList_render_obj members, by decide⟩
  | malformed => cases h

theorem skipSpace_cons (h : c ∉ [' ', '\n', '\t', '\r', ']']) : skipSpace (c :: cs) = c :: cs := by
  simp only [List.mem_cons, List.not_mem_nil, not_or] at h
  simp [skipSpace, h]

theorem skipSpace_render {v : Value} (h : v.isExact = true) :
    skipSpace ((render v).toList ++ rest) = (render v).toList ++ rest := by
  obtain ⟨c, cs, hcs, hc⟩ := exists_render v h
  rw [hcs]
  exact skipSpace_cons hc

theorem value?_null : value? (fuel + 1) ((render .null).toList ++ rest) = some (.null, rest) :=
  rfl

theorem value?_bool (b : Bool) :
    value? (fuel + 1) ((render (.bool b)).toList ++ rest) = some (.bool b, rest) := by
  cases b <;> rfl

theorem value?_num {n : Int} (h : isExact (.num (.int n)) = true) (hrest : Closes rest) :
    value? (fuel + 1) ((render (.num (.int n))).toList ++ rest) = some (.num (.int n), rest) := by
  have read := number?_toString h hrest
  have space : skipSpace ((toString n).toList ++ rest) = (toString n).toList ++ rest :=
    skipSpace_render h
  change value? (fuel + 1) ((toString n).toList ++ rest) = _
  obtain ⟨c, cs, hcs, hc⟩ :
      ∃ c cs, (toString n).toList = c :: cs ∧ (c = '-' ∨ isDigit c = true) := by
    obtain ⟨d, ds, hds, digit⟩ := exists_toDigits n.natAbs
    rw [toList_toString]
    split
    next => exact ⟨_, _, rfl, .inl rfl⟩
    next => exact ⟨d, ds, hds, .inr digit⟩
  have other {d : Char} {ds : List Char} (hd : (d == '-' || isDigit d) = false)
      (he : c :: (cs ++ rest) = d :: ds) : False := by
    obtain rfl := (List.cons.inj he).1
    rcases hc with rfl | hc
    · cases hd
    · rw [hc, Bool.or_true] at hd
      cases hd
  rw [hcs, List.cons_append] at read space ⊢
  unfold value?
  rw [space]
  split
  next he => cases he
  next he => exact (other (by decide) he).elim
  next he => exact (other (by decide) he).elim
  next he => exact (other (by decide) he).elim
  next he => exact (other (by decide) he).elim
  next he => exact (other (by decide) he).elim
  next he => exact (other (by decide) he).elim
  next => exact read

theorem value?_quote (fuel : Nat) (cs : List Char) : value? (fuel + 1) ('"' :: cs) =
    match string? {} (cs.length + 1) cs with
    | some (some s, cs) => some (.str s, cs)
    | some (none, cs) => some (.malformed, cs)
    | none => none :=
  rfl

theorem value?_str (s : String) :
    value? (fuel + 1) ((render (.str s)).toList ++ rest) = some (.str s, rest) := by
  change value? (fuel + 1) ((renderString s).toList ++ rest) = _
  rw [toList_renderString, List.cons_append, List.append_assoc, List.singleton_append]
  rw [value?_quote, string?_renderString]

theorem value?_bracket (fuel : Nat) (cs : List Char) : value? (fuel + 1) ('[' :: cs) =
    match skipSpace cs with
    | ']' :: cs => some (.arr [], cs)
    | cs =>
      match items? fuel [] cs with
      | some (vs, cs) => some (.arr vs, cs)
      | none => none :=
  rfl

theorem value?_brace (fuel : Nat) (cs : List Char) : value? (fuel + 1) ('\x7b' :: '"' :: cs) =
    match Json.members? fuel [] true ('"' :: cs) with
    | some (ms, whole, cs) => some (if whole then .obj ms else .malformed, cs)
    | none => none :=
  rfl

theorem value?_arr {v : Value} {vs : List Value} (h : v.isExact = true)
    (hitems : items? fuel [] ((renderItems (v :: vs)).toList ++ ']' :: rest) =
      some (v :: vs, rest)) :
    value? (fuel + 1) ((render (.arr (v :: vs))).toList ++ rest) = some (.arr (v :: vs), rest) := by
  obtain ⟨c, cs, hcs, hc⟩ : ∃ c cs, (renderItems (v :: vs)).toList = c :: cs ∧
      c ∉ [' ', '\n', '\t', '\r', ']'] := by
    obtain ⟨c, cs, hcs, hc⟩ := exists_render v h
    cases vs with
    | nil => exact ⟨c, cs, hcs, hc⟩
    | cons w vs => exact ⟨c, _, by rw [toList_renderItems_cons, hcs]; rfl, hc⟩
  rw [toList_render_arr, List.cons_append, List.append_assoc, List.singleton_append]
  rw [hcs, List.cons_append] at hitems ⊢
  rw [value?_bracket, skipSpace_cons hc]
  split
  next he =>
    obtain rfl := (List.cons.inj he).1
    exact absurd (by decide) hc
  next => rw [hitems]

theorem value?_obj {name : String} {v : Value} {ms : List (String × Value)}
    (hmembers : Json.members? fuel [] true
      ((renderMembers ((name, v) :: ms)).toList ++ '\x7d' :: rest) =
        some ((name, v) :: ms, true, rest)) :
    value? (fuel + 1) ((render (.obj ((name, v) :: ms))).toList ++ rest) =
      some (.obj ((name, v) :: ms), rest) := by
  obtain ⟨cs, hcs⟩ : ∃ cs, (renderMembers ((name, v) :: ms)).toList = '"' :: cs := by
    cases ms with
    | nil =>
      rw [renderMembers, String.toList_append, String.toList_append, toList_renderString]
      exact ⟨_, rfl⟩
    | cons m ms =>
      rw [renderMembers, String.toList_append, String.toList_append, String.toList_append,
        String.toList_append, toList_renderString]
      · exact ⟨_, rfl⟩
      · exact List.cons_ne_nil m ms
  rw [toList_render_obj, List.cons_append, List.append_assoc, List.singleton_append]
  rw [hcs, List.cons_append] at hmembers ⊢
  rw [value?_brace, hmembers]
  rfl

theorem closes_cons {d : Char} (hd : d = ',' ∨ d = ']' ∨ d = '\x7d') : Closes (d :: cs) := by
  intro c hc
  obtain rfl := Option.some.inj hc
  exact hd

theorem items?_item {v : Value} {done : List Value} {next : List Char}
    (h : value? fuel cs = some (v, next)) : items? (fuel + 1) done cs =
      match skipSpace next with
      | ',' :: cs => items? fuel (v :: done) cs
      | ']' :: cs => some ((v :: done).reverse, cs)
      | _ => none := by
  conv_lhs => unfold items?
  split
  next he => cases h.symm.trans he
  next he =>
    cases h.symm.trans he
    rfl

theorem members?_quote (fuel : Nat) (done : List (String × Value)) (cs : List Char) :
    Json.members? (fuel + 1) done true ('"' :: cs) =
      match string? {} (cs.length + 1) cs with
      | none => none
      | some (name, cs) =>
        match skipSpace cs with
        | ':' :: cs =>
          match value? fuel cs with
          | none => none
          | some (v, cs) =>
            match skipSpace cs with
            | ',' :: cs => Json.members? fuel ((name.getD "", v) :: done) name.isSome cs
            | '\x7d' :: cs => some (((name.getD "", v) :: done).reverse, name.isSome, cs)
            | _ => none
        | _ => none :=
  rfl

theorem members?_member {name : String} {v : Value} {done : List (String × Value)}
    {next : List Char} (h : value? fuel cs = some (v, next)) :
    Json.members? (fuel + 1) done true ((renderString name).toList ++ ':' :: cs) =
      match skipSpace next with
      | ',' :: cs => Json.members? fuel ((name, v) :: done) true cs
      | '\x7d' :: cs => some (((name, v) :: done).reverse, true, cs)
      | _ => none := by
  rw [toList_renderString, List.cons_append, List.append_assoc, List.singleton_append,
    members?_quote, string?_renderString]
  change (match value? fuel cs with
    | none => none
    | some (v, cs) =>
      match skipSpace cs with
      | ',' :: cs => Json.members? fuel ((name, v) :: done) true cs
      | '\x7d' :: cs => some (((name, v) :: done).reverse, true, cs)
      | _ => none) = _
  rw [h]

theorem toList_renderMembers_singleton (name : String) (v : Value) :
    (renderMembers [(name, v)]).toList =
      (renderString name).toList ++ ':' :: (render v).toList := by
  rw [renderMembers, String.toList_append, String.toList_append, List.append_assoc]
  rfl

theorem toList_renderMembers_cons (name : String) (v : Value) (m : String × Value)
    (ms : List (String × Value)) : (renderMembers ((name, v) :: m :: ms)).toList =
      (renderString name).toList ++ ':' :: ((render v).toList ++
        ',' :: (renderMembers (m :: ms)).toList) := by
  rw [renderMembers]
  · simp only [String.toList_append, List.append_assoc]
    rfl
  · exact List.cons_ne_nil m ms

mutual

theorem value?_render : ∀ (v : Value) (fuel : Nat) (rest : List Char), v.isExact = true →
    Closes rest → (render v).toList.length ≤ fuel →
    value? (fuel + 1) ((render v).toList ++ rest) = some (v, rest)
  | .null => fun _ _ _ _ _ => value?_null
  | .bool b => fun _ _ _ _ _ => value?_bool b
  | .num (.int _) => fun _ _ h hrest _ => value?_num h hrest
  | .num (.float _) => nofun
  | .str s => fun _ _ _ _ _ => value?_str s
  | .malformed => nofun
  | .arr [] => fun _ _ _ _ _ => rfl
  | .arr (v :: vs) => fun fuel rest h _ hlen => by
    rw [toList_render_arr, List.length_cons, List.length_append, List.length_singleton] at hlen
    obtain ⟨fuel, rfl⟩ : ∃ k, fuel = k + 1 := ⟨fuel - 1, by omega⟩
    exact value?_arr (Bool.and_eq_true_iff.1 h).1
      (items?_render (v :: vs) _ _ _ (List.cons_ne_nil v vs) h (by omega))
  | .obj [] => fun _ _ _ _ _ => rfl
  | .obj ((name, v) :: ms) => fun fuel rest h _ hlen => by
    rw [toList_render_obj, List.length_cons, List.length_append, List.length_singleton] at hlen
    obtain ⟨fuel, rfl⟩ : ∃ k, fuel = k + 1 := ⟨fuel - 1, by omega⟩
    exact value?_obj (members?_render ((name, v) :: ms) _ _ _ (List.cons_ne_nil _ ms) h (by omega))

theorem items?_render : ∀ (items : List Value) (fuel : Nat) (done : List Value) (rest : List Char),
    items ≠ [] → isExactAll items = true → (renderItems items).toList.length < fuel →
    items? (fuel + 1) done ((renderItems items).toList ++ ']' :: rest) =
      some (done.reverse ++ items, rest)
  | [] => fun _ _ _ h _ _ => (h rfl).elim
  | [v] => fun fuel done rest _ h hlen => by
    obtain ⟨fuel, rfl⟩ : ∃ k, fuel = k + 1 := ⟨fuel - 1, by omega⟩
    rw [renderItems] at hlen ⊢
    rw [items?_item (value?_render v _ _ (Bool.and_eq_true_iff.1 h).1
      (closes_cons (.inr (.inl rfl))) (by omega))]
    exact congrArg (fun vs => some (vs, rest)) List.reverse_cons
  | v :: w :: vs => fun fuel done rest _ h hlen => by
    obtain ⟨fuel, rfl⟩ : ∃ k, fuel = k + 1 := ⟨fuel - 1, by omega⟩
    have hexact := Bool.and_eq_true_iff.1 h
    rw [toList_renderItems_cons, List.length_append, List.length_cons] at hlen
    rw [toList_renderItems_cons, List.append_assoc, List.cons_append,
      items?_item (value?_render v _ _ hexact.1 (closes_cons (.inl rfl)) (by omega))]
    change items? (fuel + 1) (v :: done) ((renderItems (w :: vs)).toList ++ ']' :: rest) = _
    rw [items?_render (w :: vs) _ _ _ (List.cons_ne_nil w vs) hexact.2 (by omega),
      List.reverse_cons, List.append_assoc, List.singleton_append]

theorem members?_render : ∀ (members : List (String × Value)) (fuel : Nat)
    (done : List (String × Value)) (rest : List Char), members ≠ [] →
    isExactMembers members = true → (renderMembers members).toList.length < fuel →
    Json.members? (fuel + 1) done true ((renderMembers members).toList ++ '\x7d' :: rest) =
      some (done.reverse ++ members, true, rest)
  | [] => fun _ _ _ h _ _ => (h rfl).elim
  | [(name, v)] => fun fuel done rest _ h hlen => by
    obtain ⟨fuel, rfl⟩ : ∃ k, fuel = k + 1 := ⟨fuel - 1, by omega⟩
    rw [toList_renderMembers_singleton, List.length_append, List.length_cons] at hlen
    rw [toList_renderMembers_singleton, List.append_assoc, List.cons_append,
      members?_member (value?_render v _ _ (Bool.and_eq_true_iff.1 h).1
        (closes_cons (.inr (.inr rfl))) (by omega))]
    exact congrArg (fun ms => some (ms, true, rest)) List.reverse_cons
  | (name, v) :: m :: ms => fun fuel done rest _ h hlen => by
    obtain ⟨fuel, rfl⟩ : ∃ k, fuel = k + 1 := ⟨fuel - 1, by omega⟩
    have hexact := Bool.and_eq_true_iff.1 h
    rw [toList_renderMembers_cons, List.length_append, List.length_cons, List.length_append,
      List.length_cons] at hlen
    rw [toList_renderMembers_cons, List.append_assoc, List.cons_append, List.append_assoc,
      List.cons_append,
      members?_member (value?_render v _ _ hexact.1 (closes_cons (.inl rfl)) (by omega))]
    change Json.members? (fuel + 1) ((name, v) :: done) true
      ((renderMembers (m :: ms)).toList ++ '\x7d' :: rest) = _
    rw [members?_render (m :: ms) _ _ _ (List.cons_ne_nil m ms) hexact.2 (by omega),
      List.reverse_cons, List.append_assoc, List.singleton_append]

end

end Value

/-- What is written is read back. -/
theorem parse?_render {v : Value} (h : v.isExact = true) : parse? v.render = some v := by
  have closed : Closes [] := nofun
  have read := Value.value?_render v _ _ h closed (Nat.le_refl _)
  rw [List.append_nil] at read
  unfold parse?
  dsimp only
  rw [read]
  rfl

end Imageboard.Json
