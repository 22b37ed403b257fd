import Imageboard.Text.Blank
import Imageboard.Time.Civil

namespace Imageboard.HttpDate

open Text Time

def dayNames : List String := ["Sun", "Mon", "Tue", "Wed", "Thu", "Fri", "Sat"]

def longDayNames : List String :=
  ["Sunday", "Monday", "Tuesday", "Wednesday", "Thursday", "Friday", "Saturday"]

def monthNames : List String :=
  ["Jan", "Feb", "Mar", "Apr", "May", "Jun", "Jul", "Aug", "Sep", "Oct", "Nov", "Dec"]

/-- The place of the first name that starts a list, and what follows the name. -/
def name? (names : List String) (cs : List Char) : Option (Nat × List Char) :=
  go 0 names
where
  go (i : Nat) : List String → Option (Nat × List Char)
    | [] => none
    | n :: ns =>
      match after? n.toList cs with
      | some rest => some (i, rest)
      | none => go (i + 1) ns

def number? : Nat → List Char → Option (Nat × List Char)
  | width, cs =>
    let ds := cs.take width
    if ds.length = width ∧ ds.all isDigit then some (ofDigits ds, cs.drop width) else none

def timeOfDay? (cs : List Char) : Option (Nat × List Char) := do
  let (h, cs) ← number? 2 cs
  let (m, cs) ← number? 2 (← after? [':'] cs)
  let (s, cs) ← number? 2 (← after? [':'] cs)
  if h < 24 && m < 60 && s < 60 then some ((h * 60 + m) * 60 + s, cs) else none

def second? (weekDay year month day inDay : Nat) : Option Nat := do
  let date ← Date.of? year month day
  if 1970 ≤ year && weekday date.dayNumber == weekDay then
    some ((date.dayNumber * 86400).toNat + inDay)
  else none

/-- `Sun, 06 Nov 1994 08:49:37 GMT` -/
def fixed? (cs : List Char) : Option Nat := do
  let (w, cs) ← name? dayNames cs
  let (day, cs) ← number? 2 (← after? [',', ' '] cs)
  let (month, cs) ← name? monthNames (← after? [' '] cs)
  let (year, cs) ← number? 4 (← after? [' '] cs)
  let (t, cs) ← timeOfDay? (← after? [' '] cs)
  if cs = " GMT".toList then second? w year (month + 1) day t else none

/-- `Sunday, 06-Nov-94 08:49:37 GMT`; years below 70 are in the next century, and any character
may stand before the hours. -/
def dashed? (cs : List Char) : Option Nat := do
  let (w, cs) ← name? longDayNames cs
  let (day, cs) ← number? 2 (← after? [',', ' '] cs)
  let (month, cs) ← name? monthNames (← after? ['-'] cs)
  let (year, cs) ← number? 2 (← after? ['-'] cs)
  let (t, cs) ← timeOfDay? (← cs.tail?)
  if cs = " GMT".toList then
    second? w (year + if year < 70 then 2000 else 1900) (month + 1) day t
  else none

/-- `Sun Nov  6 08:49:37 1994` -/
def spaced? (cs : List Char) : Option Nat := do
  let (w, cs) ← name? dayNames cs
  let (month, cs) ← name? monthNames (← after? [' '] cs)
  let cs ← after? [' '] cs
  let (day, cs) ← match cs with
    | ' ' :: cs => number? 1 cs
    | cs => number? 2 cs
  let (t, cs) ← timeOfDay? (← after? [' '] cs)
  let (year, cs) ← number? 4 (← after? [' '] cs)
  if cs = [] then second? w year (month + 1) day t else none

/-- Seconds since 1970 of a date in any of the three forms, with blanks around it. -/
def parse? (s : String) : Option Nat :=
  let cs := strip isBlank s.toList
  if s.toList.all fun c => c.toNat < 128 then
    (fixed? cs).orElse fun _ => (dashed? cs).orElse fun _ => spaced? cs
  else none

def render (second : Int) : String :=
  let dayNumber := second / 86400
  let inDay := (second % 86400).toNat
  let date := Date.ofDayNumber dayNumber
  dayNames[weekday dayNumber]?.getD "" ++ ", " ++ padded 2 date.day ++ " " ++
    monthNames[date.month - 1]?.getD "" ++ " " ++ padded 4 date.year.toNat ++ " " ++
    padded 2 (inDay / 3600) ++ ":" ++ padded 2 (inDay / 60 % 60) ++ ":" ++
    padded 2 (inDay % 60) ++ " GMT"

end Imageboard.HttpDate
