import Timetable.Duration.Basic
import Timetable.Duration.Printer
import Timetable.Error
import Timetable.Field.Parser
import Timetable.Zone.Named

/-! Schedules. Every field of one has been read, so a schedule that exists can be searched. -/

namespace Timetable

inductive Special where
  | reboot
deriving DecidableEq, Repr

structure Schedule where
  second : Option (Field .second) := none
  minute : Option (Field .minute) := none
  hour : Option (Field .hour) := none
  dayOfMonth : Option (Field .dayOfMonth) := none
  month : Option (Field .month) := none
  dayOfWeek : Option (Field .dayOfWeek) := none
  year : Option (Field .year) := none
  weekOfYear : Option (Field .weekOfYear) := none
  timezone : Option Timezone := none
  endOfDuration : Option Duration := none
  special : Option Special := none
deriving DecidableEq

def readField (k : FieldKind) (text : String) : Except Error (Field k) :=
  (Field.parse k text).mapError (.field k)

def readTimezone [TimezoneDatabase] (name : String) : Except Error Timezone :=
  (TimezoneDatabase.find? name).elim (.error (.unknownTimezone name)) .ok

namespace Schedule

def reboot : Schedule := { special := some .reboot }

def field? (s : Schedule) : (k : FieldKind) → Option (Field k)
  | .second => s.second
  | .minute => s.minute
  | .hour => s.hour
  | .dayOfMonth => s.dayOfMonth
  | .month => s.month
  | .dayOfWeek => s.dayOfWeek
  | .year => s.year
  | .weekOfYear => s.weekOfYear

def ofFields (second minute hour dayOfMonth month dayOfWeek : String) : Except Error Schedule := do
  return {
    second := some (← readField .second second)
    minute := some (← readField .minute minute)
    hour := some (← readField .hour hour)
    dayOfMonth := some (← readField .dayOfMonth dayOfMonth)
    month := some (← readField .month month)
    dayOfWeek := some (← readField .dayOfWeek dayOfWeek) }

def withWeekOfYear (s : Schedule) (text : String) : Except Error Schedule :=
  (readField .weekOfYear text).map fun f => { s with weekOfYear := some f }

def withYear (s : Schedule) (text : String) : Except Error Schedule :=
  (readField .year text).map fun f => { s with year := some f }

def withTimezone [TimezoneDatabase] (s : Schedule) (name : String) : Except Error Schedule :=
  (readTimezone name).map fun z => { s with timezone := some z }

def withEndOfDuration (s : Schedule) (d : Duration) : Schedule := { s with endOfDuration := some d }

def fieldText {k : FieldKind} (f : Option (Field k)) : List Char :=
  match f with
  | none => ['*']
  | some f => f.text.toList

/-- The words of the canonical text: six fields, then the year and the clauses that are set. The
clause of a duration may have several words. -/
def canonicalWords (s : Schedule) : List (List Char) :=
  [fieldText s.second, fieldText s.minute, fieldText s.hour, fieldText s.dayOfMonth,
    fieldText s.month, fieldText s.dayOfWeek] ++
    (s.year.map fun f => f.text.toList).toList ++
    (s.weekOfYear.map fun f => "WOY:".toList ++ f.text.toList).toList ++
    (s.timezone.map fun z => "TZ:".toList ++ z.name.toList).toList ++
    (s.endOfDuration.map fun d => "EOD:".toList ++ d.canonicalText).toList

def canonicalText (s : Schedule) : List Char :=
  match s.special with
  | some .reboot => "@reboot".toList
  | none => [' '].intercalate s.canonicalWords

def canonical (s : Schedule) : String := String.ofList s.canonicalText

end Schedule

end Timetable
