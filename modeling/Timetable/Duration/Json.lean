import Timetable.Duration.Basic
import Timetable.Json.Decode

namespace Timetable

def Reference.choices : List (String × Reference) :=
  [("start", .start), ("end", .stop), ("day", .day), ("week", .week), ("month", .month),
    ("quarter", .quarter), ("year", .year)]

def Reference.choiceName : Reference → String
  | start => "start"
  | stop => "end"
  | day => "day"
  | week => "week"
  | month => "month"
  | quarter => "quarter"
  | year => "year"

def Reference.ofJson (j : Json) : Json.Decoded Reference := j.asChoice choices

@[simp] theorem Reference.ofJson_choiceName (r : Reference) :
    ofJson (.string r.choiceName) = .ok r := by
  cases r <;> rfl

namespace Duration

def toJson (d : Duration) : Json :=
  let word (n : UInt32) : Option Json := some (.integer n.toNat)
  .ofMembers [
    ("days", word d.days),
    ("event", d.event.map .string),
    ("hours", word d.hours),
    ("is_sod", some (.bool d.fromStart)),
    ("minutes", word d.minutes),
    ("months", word d.months),
    ("reference_point", some (.string d.reference.choiceName)),
    ("seconds", word d.seconds),
    ("weeks", word d.weeks),
    ("years", word d.years)]

def ofMembers (ms : List (String × Json)) : Json.Decoded Duration := do
  let days ← member? ms "days" Json.asUInt32
  let event ← optionalMember ms "event" Json.asString
  let hours ← member? ms "hours" Json.asUInt32
  let fromStart ← member? ms "is_sod" Json.asBool
  let minutes ← member? ms "minutes" Json.asUInt32
  let months ← member? ms "months" Json.asUInt32
  let reference ← member? ms "reference_point" Reference.ofJson
  let seconds ← member? ms "seconds" Json.asUInt32
  let weeks ← member? ms "weeks" Json.asUInt32
  let years ← member? ms "years" Json.asUInt32
  return {
    years := ← required "years" years
    months := ← required "months" months
    weeks := ← required "weeks" weeks
    days := ← required "days" days
    hours := ← required "hours" hours
    minutes := ← required "minutes" minutes
    seconds := ← required "seconds" seconds
    reference := ← required "reference_point" reference
    fromStart := ← required "is_sod" fromStart
    event }

def ofElements : Json.Elements Duration := do
  return {
    years := ← Json.element Json.asUInt32
    months := ← Json.element Json.asUInt32
    weeks := ← Json.element Json.asUInt32
    days := ← Json.element Json.asUInt32
    hours := ← Json.element Json.asUInt32
    minutes := ← Json.element Json.asUInt32
    seconds := ← Json.element Json.asUInt32
    reference := ← Json.element Reference.ofJson
    fromStart := ← Json.element Json.asBool
    event := ← Json.optionalElement Json.asString }

def ofJson : Json → Json.Decoded Duration := Json.asRecord "EndOfDuration" 10 ofMembers ofElements

end Duration

end Timetable
