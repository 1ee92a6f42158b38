import Timetable.Calendar.Reading
import Timetable.Text.Numeral

/-! Dates and wall times as text: `YYYY-MM-DD` and `YYYY-MM-DDTHH:MM:SS` with an optional fraction. -/

namespace Timetable.Calendar

open Timetable.Text

def yearText (y : Int) : List Char :=
  if 0 ≤ y ∧ y ≤ 9999 then paddedDecimal 4 y.toNat
  else (if y < 0 then '-' else '+') :: paddedDecimal 4 y.natAbs

def Date.text (d : Date) : List Char :=
  let c := d.civil
  yearText c.year ++ '-' :: paddedDecimal 2 c.month ++ '-' :: paddedDecimal 2 c.day

def fractionText (nano : Nat) : List Char :=
  if nano = 0 then []
  else if nano % 1000000 = 0 then '.' :: paddedDecimal 3 (nano / 1000000)
  else if nano % 1000 = 0 then '.' :: paddedDecimal 6 (nano / 1000)
  else '.' :: paddedDecimal 9 nano

namespace Reading
variable {c : Clock}

def timeText (r : Reading c) : List Char :=
  let s := r.secondOfDay
  let second := if r.isLeap then s % 60 + 1 else s % 60
  let nano := if r.isLeap then r.nano - nanosPerSecond else r.nano
  paddedDecimal 2 (s / 3600) ++ ':' :: paddedDecimal 2 (s / 60 % 60) ++ ':' :: paddedDecimal 2 second ++
    fractionText nano

def text (r : Reading c) : List Char := r.date.text ++ 'T' :: r.timeText

end Reading

def takeDigits? (n : Nat) (cs : List Char) : Option (Nat × List Char) :=
  (digitsValue? (cs.take n)).bind fun v => if n ≤ cs.length then some (v, cs.drop n) else none

def expect? (c : Char) : List Char → Option (List Char)
  | [] => none
  | d :: cs => if c = d then some cs else none

/-- The nanoseconds that a run of digits after the point stands for; digits after the ninth are
dropped. -/
def nanosOfDigits (ds : List Char) : Nat :=
  Nat.ofDigitChars 10 ((ds ++ List.replicate 9 '0').take 9) 0

def noFraction : Fin 1000000000 := 0

def takeNanos (cs : List Char) : Fin 1000000000 × List Char :=
  (Fin.ofNat 1000000000 (nanosOfDigits (cs.takeWhile Char.isDigit)), cs.dropWhile Char.isDigit)

def readYear? (cs : List Char) : Option (Int × List Char) :=
  let (sign, cs) := match cs with
    | '-' :: r => ((-1 : Int), r)
    | '+' :: r => (1, r)
    | _ => (1, cs)
  (digitsValue? (cs.takeWhile Char.isDigit)).map fun y => (sign * y, cs.dropWhile Char.isDigit)

def takeDate? (cs : List Char) : Option (Date × List Char) := do
  let (y, cs) ← readYear? cs
  let (m, cs) ← takeDigits? 2 (← expect? '-' cs)
  let (d, cs) ← takeDigits? 2 (← expect? '-' cs)
  return (← Date.ofCivil? ⟨y, m, d⟩, cs)

structure ClockFace where
  hour : Nat
  minute : Nat
  second : Nat
deriving DecidableEq, Repr

namespace ClockFace

def Valid (f : ClockFace) : Prop := f.hour ≤ 23 ∧ f.minute ≤ 59 ∧ f.second ≤ 60

instance (f : ClockFace) : Decidable f.Valid := inferInstanceAs (Decidable (_ ∧ _))

def isLeap (f : ClockFace) : Bool := 60 ≤ f.second

def secondOfDay (f : ClockFace) : Nat := 3600 * f.hour + 60 * f.minute + min f.second 59

def onDate (f : ClockFace) (d : Date) (nano : Fin 1000000000) (c : Clock) : Reading c :=
  ⟨dayStart d.number + f.secondOfDay, if f.isLeap then nanosPerSecond + nano else nano, by
    have : nanosPerSecond = 1000000000 := rfl
    split <;> omega⟩

end ClockFace

def takeClockFace? (cs : List Char) : Option (ClockFace × List Char) := do
  let (h, cs) ← takeDigits? 2 cs
  let (m, cs) ← takeDigits? 2 (← expect? ':' cs)
  let (s, cs) ← takeDigits? 2 (← expect? ':' cs)
  return (⟨h, m, s⟩, cs)

def Date.ofText? (cs : List Char) : Option Date := do
  let (d, rest) ← takeDate? cs
  if rest.isEmpty then some d else none

def WallTime.ofText? (cs : List Char) : Option WallTime := do
  let (d, cs) ← takeDate? cs
  let (f, cs) ← takeClockFace? (← expect? 'T' cs)
  let (nano, rest) := match cs with
    | '.' :: cs => takeNanos cs
    | _ => (noFraction, cs)
  if f.Valid ∧ rest.isEmpty then some (f.onDate d nano .wall) else none

end Timetable.Calendar
