import Imageboard.Time.Civil

namespace Imageboard

def Instant.firstSecond : Int := -8334601228800

def Instant.lastSecond : Int := 8210266876799

/-- Whole seconds since 1970 and the nanoseconds after them. Inside a leap second, which follows
the last second of a minute, the nanoseconds count on from one billion. -/
structure Instant where
  second : Int
  nano : Nat
  nano_lt : nano < 2000000000
  leap : 1000000000 ≤ nano → second % 60 = 59
  first_le : Instant.firstSecond ≤ second
  le_last : second ≤ Instant.lastSecond
deriving DecidableEq

namespace Instant

def of? (second : Int) (nano : Nat) : Option Instant :=
  if h : nano < 2000000000 ∧ (1000000000 ≤ nano → second % 60 = 59) ∧
      firstSecond ≤ second ∧ second ≤ lastSecond then
    some ⟨second, nano, h.1, h.2.1, h.2.2.1, h.2.2.2⟩
  else none

def epoch : Instant :=
  ⟨0, 0, by decide, by decide, by decide, by decide⟩

instance : Inhabited Instant := ⟨epoch⟩

def ofMillis? (ms : Int) : Option Instant :=
  of? (ms / 1000) ((ms % 1000).toNat * 1000000)

/-- Milliseconds since 1970, cut down; a leap second runs on into the next one. -/
def millis (t : Instant) : Int :=
  t.second * 1000 + (t.nano / 1000000 : Nat)

/-- Nanoseconds since 1970; a leap second runs on into the next one. -/
def nanos (t : Instant) : Int :=
  t.second * 1000000000 + t.nano

def clockMillis (t : Instant) : Int :=
  max 0 t.millis

end Instant
end Imageboard
