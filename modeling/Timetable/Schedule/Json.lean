import Timetable.Duration.Json
import Timetable.Schedule.Basic

namespace Timetable

def FieldKind.choices : List (String × FieldKind) :=
  [("second", .second), ("minute", .minute), ("hour", .hour), ("day_of_month", .dayOfMonth),
    ("month", .month), ("day_of_week", .dayOfWeek), ("year", .year), ("week_of_year", .weekOfYear)]

def FieldKind.ofJson (j : Json) : Json.Decoded FieldKind := j.asChoice choices

def Special.choices : List (String × Special) := [("reboot", .reboot)]

def Special.toJson : Special → Json
  | reboot => .string "reboot"

def Special.ofJson (j : Json) : Json.Decoded Special := j.asChoice choices

namespace Schedule

def toJson (s : Schedule) : Json :=
  let text {k : FieldKind} (f : Option (Field k)) : Option Json := f.map fun f => .string f.text
  .ofMembers [
    ("dayOfMonth", text s.dayOfMonth),
    ("dayOfWeek", text s.dayOfWeek),
    ("endOfDuration", s.endOfDuration.map Duration.toJson),
    ("hour", text s.hour),
    ("minute", text s.minute),
    ("month", text s.month),
    ("second", text s.second),
    ("special", s.special.map Special.toJson),
    ("timezone", s.timezone.map fun z => .string z.name),
    ("weekOfYear", text s.weekOfYear),
    ("year", text s.year)]

/-- The members of a schedule before its fields and its zone are looked at. -/
structure Members where
  second : Option String
  minute : Option String
  hour : Option String
  dayOfMonth : Option String
  month : Option String
  dayOfWeek : Option String
  year : Option String
  weekOfYear : Option String
  timezone : Option String
  endOfDuration : Option Duration
  special : Option Special
deriving DecidableEq, Repr

def Members.schedule [TimezoneDatabase] (m : Members) : Except Error Schedule := do
  let timezone ← m.timezone.mapM readTimezone
  return {
    second := ← m.second.mapM (readField .second)
    minute := ← m.minute.mapM (readField .minute)
    hour := ← m.hour.mapM (readField .hour)
    dayOfMonth := ← m.dayOfMonth.mapM (readField .dayOfMonth)
    month := ← m.month.mapM (readField .month)
    dayOfWeek := ← m.dayOfWeek.mapM (readField .dayOfWeek)
    year := ← m.year.mapM (readField .year)
    weekOfYear := ← m.weekOfYear.mapM (readField .weekOfYear)
    timezone
    endOfDuration := m.endOfDuration
    special := m.special }

namespace Members

def ofMembers (ms : List (String × Json)) : Json.Decoded Members := do
  let dayOfMonth ← optionalMember ms "dayOfMonth" Json.asString
  let dayOfWeek ← optionalMember ms "dayOfWeek" Json.asString
  let endOfDuration ← optionalMember ms "endOfDuration" Duration.ofJson
  let hour ← optionalMember ms "hour" Json.asString
  let minute ← optionalMember ms "minute" Json.asString
  let month ← optionalMember ms "month" Json.asString
  let second ← optionalMember ms "second" Json.asString
  let special ← optionalMember ms "special" Special.ofJson
  let timezone ← optionalMember ms "timezone" Json.asString
  let weekOfYear ← optionalMember ms "weekOfYear" Json.asString
  let year ← optionalMember ms "year" Json.asString
  return { second, minute, hour, dayOfMonth, month, dayOfWeek, year, weekOfYear, timezone,
           endOfDuration, special }

def ofElements : Json.Elements Members := do
  return {
    second := ← Json.optionalElement Json.asString
    minute := ← Json.optionalElement Json.asString
    hour := ← Json.optionalElement Json.asString
    dayOfMonth := ← Json.optionalElement Json.asString
    month := ← Json.optionalElement Json.asString
    dayOfWeek := ← Json.optionalElement Json.asString
    year := ← Json.optionalElement Json.asString
    weekOfYear := ← Json.optionalElement Json.asString
    timezone := ← Json.optionalElement Json.asString
    endOfDuration := ← Json.optionalElement Duration.ofJson
    special := ← Json.optionalElement Special.ofJson }

def ofJson : Json → Json.Decoded Members := Json.asRecord "ScheduleRepr" 11 ofMembers ofElements

end Members

def ofJson [TimezoneDatabase] (j : Json) : Json.Decoded Schedule := do
  (← Members.ofJson j).schedule.mapError .malformed

end Schedule

end Timetable
