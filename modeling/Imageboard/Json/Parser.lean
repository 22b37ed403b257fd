import Imageboard.Json.Value
import Imageboard.Text.Blank
import Imageboard.Text.Bytes

namespace Imageboard.Json

open Text

def skipSpace (cs : List Char) : List Char :=
  cs.dropWhile fun c => c == ' ' || c == '\n' || c == '\t' || c == '\r'

def hex4? : List Char → Option (Nat × List Char)
  | a :: b :: c :: d :: cs => do
    let a ← hexValue? a
    let b ← hexValue? b
    let c ← hexValue? c
    let d ← hexValue? d
    return (((a * 16 + b) * 16 + c) * 16 + d, cs)
  | _ => none

def simpleEscape? : Char → Option Char
  | '"' => some '"'
  | '\\' => some '\\'
  | '/' => some '/'
  | 'b' => some '\x08'
  | 'f' => some '\x0c'
  | 'n' => some '\n'
  | 'r' => some '\r'
  | 't' => some '\t'
  | _ => none

/-- What is read of a string: its characters in reverse, a first half of a surrogate pair that
waits for the second, and whether all halves so far were paired. -/
structure Partial where
  done : List Char := []
  half : Option Nat := none
  whole : Bool := true

namespace Partial

def push (p : Partial) (c : Char) : Partial :=
  { done := c :: p.done, half := none, whole := p.whole && p.half.isNone }

def pushUnit (p : Partial) (n : Nat) : Partial :=
  if 0xDC00 ≤ n ∧ n ≤ 0xDFFF then
    match p.half with
    | some h => { p with
        done := Char.ofNat (0x10000 + (h - 0xD800) * 0x400 + (n - 0xDC00)) :: p.done, half := none }
    | none => { p with whole := false }
  else if 0xD800 ≤ n ∧ n ≤ 0xDBFF then
    { p with half := some n, whole := p.whole && p.half.isNone }
  else p.push (Char.ofNat n)

def text? (p : Partial) : Option String :=
  if p.whole && p.half.isNone then some (String.ofList p.done.reverse) else none

end Partial

def string? (p : Partial) : Nat → List Char → Option (Option String × List Char)
  | 0, _ => none
  | _, [] => none
  | fuel + 1, c :: cs =>
    if c = '"' then some (p.text?, cs)
    else if c = '\\' then
      match cs with
      | 'u' :: cs =>
        match hex4? cs with
        | some (n, cs) => string? (p.pushUnit n) fuel cs
        | none => none
      | e :: cs =>
        match simpleEscape? e with
        | some c => string? (p.push c) fuel cs
        | none => none
      | [] => none
    else if c.toNat < 0x20 then none
    else string? (p.push c) fuel cs

def maxWord : Nat := 0xFFFFFFFFFFFFFFFF

/-- Extends a number by digits for as long as it stays within 64 bits: the number, and how many
digits it took. -/
def absorb (n : Nat) (taken : Nat) : List Char → Nat × Nat
  | [] => (n, taken)
  | d :: ds =>
    let n' := 10 * n + digitValue d
    if n' > maxWord then (n, taken) else absorb n' (taken + 1) ds

/-- A number from the digits before the point, after it, and its exponent. Digits beyond 64 bits
only count as places. -/
def numberValue (negative : Bool) (whole : List Char) (fraction : Option (List Char))
    (exponent : Option Int) : Value :=
  let (n, taken) := absorb 0 0 whole
  let places := whole.length - taken
  if fraction.isNone && exponent.isNone && places == 0 &&
      (!negative || (0 < n && n ≤ 0x8000000000000000)) then
    .num (.int (if negative then -(n : Int) else n))
  else
    let (n, after) := match fraction with
      | some ds => absorb n 0 ds
      | none => (n, 0)
    let e := exponent.getD 0
    if 0x80000000 ≤ e.natAbs then
      if n ≠ 0 ∧ 0 < e then .malformed else .num (.float { Binary64.zero with negative })
    else
      match Binary64.ofDecimal? negative n (places - after + e) with
      | some x => .num (.float x)
      | none => .malformed

def exponent? (cs : List Char) : Option (Int × List Char) :=
  let unsigned (sign : Int) (cs : List Char) : Option (Int × List Char) :=
    let (ds, cs) := digits cs
    if ds.isEmpty then none else some (sign * ofDigits ds, cs)
  match cs with
  | '+' :: cs => unsigned 1 cs
  | '-' :: cs => unsigned (-1) cs
  | cs => unsigned 1 cs

def number? (cs : List Char) : Option (Value × List Char) := do
  let (negative, cs) := match cs with
    | '-' :: cs => (true, cs)
    | cs => (false, cs)
  let (whole, cs) := digits cs
  if whole.isEmpty || (whole.head? == some '0' && 1 < whole.length) then none
  else
    let (fraction, cs) ← match cs with
      | '.' :: cs =>
        let (ds, cs) := digits cs
        if ds.isEmpty then none else some (some ds, cs)
      | cs => some (none, cs)
    let (exponent, cs) ← match cs with
      | 'e' :: cs | 'E' :: cs => (exponent? cs).map fun p => (some p.1, p.2)
      | cs => some (none, cs)
    return (numberValue negative whole fraction exponent, cs)

mutual

def value? : Nat → List Char → Option (Value × List Char)
  | 0, _ => none
  | fuel + 1, cs =>
    match skipSpace cs with
    | [] => none
    | '{' :: cs =>
      match skipSpace cs with
      | '}' :: cs => some (.obj [], cs)
      | cs =>
        match members? fuel [] true cs with
        | some (ms, whole, cs) => some (if whole then .obj ms else .malformed, cs)
        | none => none
    | '[' :: cs =>
      match skipSpace cs with
      | ']' :: cs => some (.arr [], cs)
      | cs =>
        match items? fuel [] cs with
        | some (vs, cs) => some (.arr vs, cs)
        | none => none
    | '"' :: cs =>
      match string? {} (cs.length + 1) cs with
      | some (some s, cs) => some (.str s, cs)
      | some (none, cs) => some (.malformed, cs)
      | none => none
    | 't' :: cs => (after? "rue".toList cs).map fun cs => (.bool true, cs)
    | 'f' :: cs => (after? "alse".toList cs).map fun cs => (.bool false, cs)
    | 'n' :: cs => (after? "ull".toList cs).map fun cs => (.null, cs)
    | cs => number? cs

def items? : Nat → List Value → List Char → Option (List Value × List Char)
  | 0, _, _ => none
  | fuel + 1, done, cs =>
    match value? fuel cs with
    | none => none
    | some (v, cs) =>
      match skipSpace cs with
      | ',' :: cs => items? fuel (v :: done) cs
      | ']' :: cs => some ((v :: done).reverse, cs)
      | _ => none

def members? : Nat → List (String × Value) → Bool → List Char →
    Option (List (String × Value) × Bool × List Char)
  | 0, _, _, _ => none
  | fuel + 1, done, whole, cs =>
    match skipSpace cs with
    | '"' :: cs =>
      match string? {} (cs.length + 1) cs with
      | none => none
      | some (name, cs) =>
        match skipSpace cs with
        | ':' :: cs =>
          match value? fuel cs with
          | none => none
          | some (v, cs) =>
            let done := (name.getD "", v) :: done
            let whole := whole && name.isSome
            match skipSpace cs with
            | ',' :: cs => members? fuel done whole cs
            | '}' :: cs => some (done.reverse, whole, cs)
            | _ => none
        | _ => none
    | _ => none

end

/-- The value of a text that holds one value and nothing else. Each step of the reader takes a
character, which bounds the steps. -/
def parse? (s : String) : Option Value :=
  let cs := s.toList
  match value? (cs.length + 1) cs with
  | some (v, rest) => if (skipSpace rest).isEmpty then some v else none
  | none => none

/-- What stands for a byte that is not UTF-8: a character that no escape and no value starts with,
and two first halves of surrogate pairs, which no text has in a row. -/
def strayByte : List Char :=
  "?\\ud800\\ud800".toList

def ofBytes? (bs : Bytes) : Option Value :=
  parse? (String.ofList (decodeWith strayByte bs.length bs))

end Imageboard.Json
