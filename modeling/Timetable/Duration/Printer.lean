import Timetable.Duration.Basic
import Timetable.Text.Numeral

/-! The canonical text of a duration. -/

namespace Timetable

open Text

def amountText (n : UInt32) (letter : Char) : List Char :=
  if n = 0 then [] else decimal n.toNat ++ [letter]

namespace Duration

def calendarText (d : Duration) : List Char :=
  amountText d.years 'Y' ++ amountText d.months 'M' ++ amountText d.weeks 'W' ++ amountText d.days 'D'

/-- Hours, minutes and seconds. Minutes are an `m` where an `M` would be read as months. -/
def clockText (d : Duration) : List Char :=
  amountText d.hours 'H' ++
    amountText d.minutes (if d.hasCalendarLength || d.hours != 0 then 'M' else 'm') ++
    amountText d.seconds 'S'

def zeroLetter : Reference → Char
  | .start | .stop => 'S'
  | .day => 'D'
  | .week => 'W'
  | .month | .quarter => 'M'
  | .year => 'Y'

def unitsText (d : Duration) : List Char :=
  if !d.hasLength then ['0', zeroLetter d.reference]
  else if d.hasCalendarLength && d.hasTimeLength then d.calendarText ++ 'T' :: d.clockText
  else d.calendarText ++ d.clockText

def impliedReference? (d : Duration) : Option Reference :=
  if d.years ≠ 0 then some .year
  else if d.months ≠ 0 then some .month
  else if d.weeks ≠ 0 then some .week
  else if d.days ≠ 0 then some .day
  else if d.hasTimeLength then none
  else Reference.ofLetter? (zeroLetter d.reference)

def suffixText (d : Duration) : List Char :=
  match d.reference.letter? with
  | none => []
  | some c => if d.impliedReference? = some d.reference then [] else [' ', c]

def eventText (d : Duration) : List Char :=
  match d.event with
  | none => []
  | some name => " E[".toList ++ name.toList ++ [']']

def canonicalText (d : Duration) : List Char :=
  (if d.fromStart then 'S' else 'E') :: d.unitsText ++ d.suffixText ++ d.eventText

def canonical (d : Duration) : String := String.ofList d.canonicalText

end Duration

end Timetable
