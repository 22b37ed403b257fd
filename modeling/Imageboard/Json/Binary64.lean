namespace Imageboard

/-- The value `significand * 2 ^ exponent`, or its negative. Finite; a zero keeps its sign. -/
structure Binary64 where
  negative : Bool
  significand : Nat
  exponent : Int
deriving DecidableEq, Repr

namespace Binary64

def zero : Binary64 := ⟨false, 0, -1074⟩

def leastFull : Nat := 0x10000000000000

def scaled (a : Nat) (e : Int) : Nat × Nat :=
  if 0 ≤ e then (a * .pow 2 e.toNat, 1) else (a, .pow 2 (-e).toNat)

/-- The nearest number to `num / den`, the even one of two; none if it is too large. -/
def ofRatio? (num den : Nat) : Option Binary64 :=
  if num = 0 ∨ den = 0 then some zero
  else
    let guess : Int := (num.log2 : Int) - den.log2 - 52
    let shifted (e : Int) : Nat × Nat :=
      if 0 ≤ e then (num, den * .pow 2 e.toNat) else (num * .pow 2 (-e).toNat, den)
    let fits (e : Int) : Bool := (shifted e).1 / (shifted e).2 < 2 * leastFull
    let e := if fits (guess - 1) then guess - 1 else if fits guess then guess else guess + 1
    let e := max e (-1074)
    let (n, d) := shifted e
    let q := n / d
    let r := n % d
    let q := if 2 * r > d ∨ (2 * r = d ∧ q % 2 = 1) then q + 1 else q
    let (q, e) := if q = 2 * leastFull then (leastFull, e + 1) else (q, e)
    if e > 971 then none else some ⟨false, q, e⟩

def powerOfTen (k : Nat) : Binary64 :=
  (ofRatio? (.pow 10 k) 1).getD zero

def mul? (x y : Binary64) : Option Binary64 :=
  let (n, d) := scaled (x.significand * y.significand) (x.exponent + y.exponent)
  ofRatio? n d

def div? (x y : Binary64) : Option Binary64 :=
  let (n, d) := scaled x.significand (x.exponent - y.exponent)
  ofRatio? n (d * y.significand)

def divPower (x : Binary64) (k : Nat) : Binary64 :=
  if k ≤ 308 then (x.div? (powerOfTen k)).getD zero
  else if x.significand = 0 then x
  else divPower ((x.div? (powerOfTen 308)).getD zero) (k - 308)
termination_by k

/-- `significand * 10 ^ exponent` by one rounding of each factor and one of the result; none if it
is too large. -/
def ofDecimal? (negative : Bool) (significand : Nat) (exponent : Int) : Option Binary64 := do
  let x ← ofRatio? significand 1
  let y ←
    if exponent < 0 then some (x.divPower exponent.natAbs)
    else if exponent ≤ 308 then x.mul? (powerOfTen exponent.toNat)
    else if significand = 0 then some x
    else none
  return { y with negative }

/-- The interval of reals that round to a positive number, as three fractions of one denominator:
its lower end, the number, its upper end. -/
def interval (x : Binary64) : (Nat × Nat × Nat) × Nat :=
  let m := x.significand
  let below := if m = leastFull ∧ x.exponent > -1074 then 1 else 2
  let (unit, den) := scaled 1 (x.exponent - 2)
  (((4 * m - below) * unit, 4 * m * unit, (4 * m + 2) * unit), den)

/-- The least `p` from `start` on with `num / den < 10 ^ (p + 1)`, among the next `fuel`. -/
def magnitude (num den : Nat) : Nat → Int → Int
  | 0, p => p
  | fuel + 1, p =>
    let below :=
      if 0 ≤ p + 1 then num < den * .pow 10 (p + 1).toNat
      else num * .pow 10 (-(p + 1)).toNat < den
    if below then p else magnitude num den fuel (p + 1)

/-- Digits and exponent of the shortest decimal that rounds to a positive number; of two of one
length the nearer, then the even one. -/
def shortest (x : Binary64) : Nat × Int :=
  let ((lo, v, hi), den) := x.interval
  let guess := (((x.significand.log2 : Int) + x.exponent) * 30103) / 100000 - 1
  let p := magnitude v den 4 guess
  let closed := x.significand % 2 = 0
  let candidate (k : Int) : Option (Nat × Int) :=
    -- `value c` and the ends are compared over the common denominator `den * scale`
    let up := Nat.pow 10 k.toNat
    let scale := Nat.pow 10 (-k).toNat
    let value (c : Nat) := c * up * den
    let inside (c : Nat) : Bool :=
      let w := value c
      if closed then lo * scale ≤ w && w ≤ hi * scale else lo * scale < w && w < hi * scale
    let c := v * scale / (den * up)
    let below := v * scale - value c
    let above := value (c + 1) - v * scale
    if inside c && inside (c + 1) then
      if below < above then some (c, k)
      else if above < below then some (c + 1, k)
      else some (if c % 2 = 0 then c else c + 1, k)
    else if inside c then some (c, k)
    else if inside (c + 1) then some (c + 1, k)
    else none
  ((List.range 17).findSome? fun (n : Nat) => candidate (p - (n : Int))).getD (0, 0)

def stripZeros : Nat → Nat → Int → Nat × Int
  | 0, d, k => (d, k)
  | fuel + 1, d, k => if d ≠ 0 ∧ d % 10 = 0 then stripZeros fuel (d / 10) (k + 1) else (d, k)

/-- The shortest decimal text that reads back: positional from 1e-5 up to below 1e16, with a point
always, and in scientific form outside, where the exponent always has a sign. -/
def render (x : Binary64) : String :=
  let sign := if x.negative then "-" else ""
  if x.significand = 0 then sign ++ "0.0"
  else
    let (d, k) := x.shortest
    let (d, k) := stripZeros 20 d k
    let ds := Nat.toDigits 10 d
    let text (cs : List Char) := String.ofList cs
    let zeros (n : Int) := List.replicate n.toNat '0'
    -- the value is `0.ds * 10 ^ point`
    let point : Int := ds.length + k
    sign ++
      if 0 ≤ k ∧ point ≤ 16 then text (ds ++ zeros k) ++ ".0"
      else if 0 < point ∧ point ≤ 16 then
        text (ds.take point.toNat) ++ "." ++ text (ds.drop point.toNat)
      else if -5 < point ∧ point ≤ 0 then "0." ++ text (zeros (-point) ++ ds)
      else
        let e := (if 0 < point then "+" else "") ++ toString (point - 1)
        if ds.length = 1 then text ds ++ "e" ++ e
        else text (ds.take 1) ++ "." ++ text (ds.drop 1) ++ "e" ++ e

end Binary64
end Imageboard
