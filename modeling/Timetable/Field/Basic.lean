import Timetable.Calendar.Date

namespace Timetable

open Calendar

inductive FieldKind where
  | second
  | minute
  | hour
  | dayOfMonth
  | month
  | dayOfWeek
  | year
  | weekOfYear
deriving DecidableEq, Repr

namespace FieldKind

def name : FieldKind → String
  | second => "second"
  | minute => "minute"
  | hour => "hour"
  | dayOfMonth => "day-of-month"
  | month => "month"
  | dayOfWeek => "day-of-week"
  | year => "year"
  | weekOfYear => "week-of-year"

def min : FieldKind → Nat
  | second | minute | hour | dayOfWeek => 0
  | dayOfMonth | month | weekOfYear => 1
  | year => 1970

/-- The largest value; days of the week are counted from Sunday, which is 0 and 7. -/
def max : FieldKind → Nat
  | second | minute => 59
  | hour => 23
  | dayOfMonth => 31
  | month => 12
  | dayOfWeek => 7
  | year => 9999
  | weekOfYear => 53

/-- Where a progression ends whose end is not written: 7 is a Sunday only where it is written. -/
def openEnd : FieldKind → Nat
  | dayOfWeek => 6
  | k => k.max

def monthNames : List String :=
  ["JAN", "FEB", "MAR", "APR", "MAY", "JUN", "JUL", "AUG", "SEP", "OCT", "NOV", "DEC"]

def weekdayNames : List String := ["SUN", "MON", "TUE", "WED", "THU", "FRI", "SAT"]

def valueNames : FieldKind → List String
  | month => monthNames
  | dayOfWeek => weekdayNames
  | _ => []

def allowsQuestionMark : FieldKind → Bool
  | dayOfMonth | dayOfWeek => true
  | _ => false

theorem min_le_openEnd (k : FieldKind) : k.min ≤ k.openEnd := by cases k <;> decide

theorem openEnd_le_max (k : FieldKind) : k.openEnd ≤ k.max := by cases k <;> decide

end FieldKind

inductive Term where
  | progression (start stop step : Nat)
  | lastDay
  | lastWeekday (weekday : Nat)
  | nthWeekday (weekday nth : Nat)
deriving DecidableEq, Repr

namespace Term

def contains (v : Nat) : Term → Bool
  | progression start stop step => start ≤ v && v ≤ stop && (v - start) % step == 0
  | _ => false

def containsDay (d : Date) : Term → Bool
  | progression .. => false
  | lastDay => d == d.lastOfMonth
  | lastWeekday n => n % 7 == d.daysFromSunday && d.lastOfMonth.day < d.day + 7
  | nthWeekday n k => n % 7 == d.daysFromSunday && (d.day - 1) / 7 + 1 == k

end Term

end Timetable
