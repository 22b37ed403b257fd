import Imageboard.Text.Blank
import Imageboard.Time.Instant

namespace Imageboard.Rfc3339

open Text

def number? (width : Nat) (cs : List Char) : Option (Nat × List Char) :=
  let cs := cs.dropWhile isBlank
  let ds := (cs.takeWhile isDigit).take width
  if ds.isEmpty then none else some (ofDigits ds, cs.drop ds.length)

/-- A year: four digits, or any number of them after a sign. -/
def year? (cs : List Char) : Option (Int × List Char) :=
  let signed (cs : List Char) : Option (Nat × List Char) :=
    let (ds, rest) := digits cs
    if ds.isEmpty then none else some (ofDigits ds, rest)
  match cs.dropWhile isBlank with
  | '-' :: cs => (signed cs).map fun p => (-(p.1 : Int), p.2)
  | '+' :: cs => (signed cs).map fun p => ((p.1 : Int), p.2)
  | cs => (number? 4 cs).map fun p => ((p.1 : Int), p.2)

def mark? (c : Char) (cs : List Char) : Option (List Char) :=
  match cs.dropWhile isBlank with
  | d :: cs => if d = c then some cs else none
  | [] => none

/-- Nanoseconds written as a fraction; digits after the ninth are passed over. -/
def fraction? : List Char → Option (Nat × List Char)
  | '.' :: cs =>
    let (ds, rest) := digits cs
    let used := ds.take 9
    if ds.isEmpty then none
    else some (ofDigits used * .pow 10 (9 - used.length), rest)
  | cs => some (0, cs)

def pair? (most : Char) : List Char → Option (Nat × List Char)
  | a :: b :: cs =>
    if isDigit a && isDigit b && a ≤ most then
      some (10 * digitValue a + digitValue b, cs)
    else none
  | _ => none

/-- Seconds east of Greenwich: `UTC`, `Z`, or a sign with hours and minutes. -/
def offset? (cs : List Char) : Option (Int × List Char) :=
  let signed (sign : Int) (cs : List Char) : Option (Int × List Char) := do
    let (h, cs) ← pair? '9' cs
    let (m, cs) ← pair? '5' (cs.dropWhile fun c => c == ':' || isBlank c)
    if h < 24 then some (sign * ((h * 60 + m) * 60 : Nat), cs) else none
  let utc := (cs.take 3).map lowerChar == ['u', 't', 'c']
  if utc then some (0, cs.drop 3)
  else
    match cs with
    | 'Z' :: cs | 'z' :: cs => some (0, cs)
    | '+' :: cs => signed 1 cs
    | '-' :: cs | '\u2212' :: cs => signed (-1) cs
    | _ => none

/-- The moment that a text names. A sixtieth second is the leap second after the fifty-ninth. -/
def parse? (s : String) : Option Instant := do
  let (year, cs) ← year? s.toList
  let (month, cs) ← number? 2 (← mark? '-' cs)
  let (day, cs) ← number? 2 (← mark? '-' cs)
  let cs ← match cs with
    | 'T' :: cs | 't' :: cs | ' ' :: cs => some cs
    | _ => none
  let (hour, cs) ← number? 2 cs
  let (minute, cs) ← number? 2 (← mark? ':' cs)
  let (second, cs) ← number? 2 (← mark? ':' cs)
  let (nano, cs) ← fraction? cs
  let (offset, cs) ← offset? (cs.dropWhile isBlank)
  let date ← Time.Date.of? year month day
  if hour < 24 && minute < 60 && second ≤ 60 && cs.all isBlank then
    let leap := second == 60
    let inDay := (hour * 60 + minute) * 60 + if leap then 59 else second
    let here := date.dayNumber * 86400 + inDay
    if Instant.firstSecond ≤ here ∧ here ≤ Instant.lastSecond then
      Instant.of? (here - offset) (nano + if leap then 1000000000 else 0)
    else none
  else none

def yearText (y : Int) : String :=
  if 0 ≤ y ∧ y ≤ 9999 then padded 4 y.toNat
  else (if y < 0 then "-" else "+") ++ padded 4 y.natAbs

def fractionText (nano : Nat) : String :=
  if nano = 0 then ""
  else if nano % 1000000 = 0 then "." ++ padded 3 (nano / 1000000)
  else if nano % 1000 = 0 then "." ++ padded 6 (nano / 1000)
  else "." ++ padded 9 nano

def render (t : Instant) : String :=
  let date := Time.Date.ofDayNumber (t.second / 86400)
  let inDay := (t.second % 86400).toNat
  let leap := 1000000000 ≤ t.nano
  yearText date.year ++ "-" ++ padded 2 date.month ++ "-" ++ padded 2 date.day ++ "T" ++
    padded 2 (inDay / 3600) ++ ":" ++ padded 2 (inDay / 60 % 60) ++ ":" ++
    padded 2 (inDay % 60 + if leap then 1 else 0) ++
    fractionText (if leap then t.nano - 1000000000 else t.nano) ++ "Z"

end Imageboard.Rfc3339
