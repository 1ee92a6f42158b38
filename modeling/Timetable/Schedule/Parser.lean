import Timetable.Duration.Parser
import Timetable.Schedule.Basic
import Timetable.Schedule.Clauses

/-! Reading the text of a schedule. -/

namespace Timetable

open Text

/-- Whether the numbers of a seventh field, steps aside, all lie above the number of weeks. -/
def looksLikeYears (cs : List Char) : Bool :=
  let bounds := (cs.splitOn ',').flatMap fun element =>
    (element.takeWhile (· != '/')).splitOn '-'
  let numbers := bounds.filter fun b => !b.isEmpty && b.all Char.isDigit
  !numbers.isEmpty && numbers.all fun b => FieldKind.weekOfYear.max < (readWord? b).getD 0

/-- The fields that a macro stands for; `none` if it has no times. -/
def macroFields? : String → Option (Option (List String))
  | "@reboot" => some none
  | "@yearly" | "@annually" => some (some ["0", "0", "0", "1", "1", "*"])
  | "@monthly" => some (some ["0", "0", "0", "1", "*", "*"])
  | "@weekly" => some (some ["0", "0", "0", "*", "*", "0"])
  | "@daily" | "@midnight" => some (some ["0", "0", "0", "*", "*", "*"])
  | "@hourly" => some (some ["0", "0", "*", "*", "*", "*"])
  | _ => none

namespace Schedule

def withTrailing (s : Schedule) (text : String) : Except Error Schedule :=
  if text = "*" ∨ text = "?" then .ok s
  else if looksLikeYears text.toList then s.withYear text
  else s.withWeekOfYear text

def ofMacro (name : String) : Except Error Schedule :=
  match macroFields? (String.ofList (name.toList.map Char.toLower)) with
  | none => .error (.unknownMacro name)
  | some none => .ok reboot
  | some (some [s, mi, h, d, mo, w]) => ofFields s mi h d mo w
  | some (some _) => .error (.unknownMacro name)

def ofWords : List String → Except Error Schedule
  | [] => .error .empty
  | [mi, h, d, mo, w] => ofFields "0" mi h d mo w
  | [s, mi, h, d, mo, w] => ofFields s mi h d mo w
  | [s, mi, h, d, mo, w, trailing] => do (← ofFields s mi h d mo w).withTrailing trailing
  | [word] => if word.toList.head? = some '@' then ofMacro word else .error (.fieldCount 1)
  | fields => .error (.fieldCount fields.length)

def parseCron (text : String) : Except Error Schedule :=
  ofWords ((words text.toList).map String.ofList)

def addWeeks (s : Schedule) (weeks : Option String) : Except Error Schedule :=
  match weeks with
  | none => .ok s
  | some text => if s.weekOfYear.isSome then .error .weeksGivenTwice else s.withWeekOfYear text

def addTimezone [TimezoneDatabase] (s : Schedule) (name : Option String) : Except Error Schedule :=
  match name with
  | none => .ok s
  | some name => s.withTimezone name

def addEndOfDuration (s : Schedule) (text : Option String) : Except Error Schedule :=
  match text with
  | none => .ok s
  | some text => ((Duration.parse text).mapError .endOfDuration).map s.withEndOfDuration

def ofParts [TimezoneDatabase] (p : Parts) : Except Error Schedule := do
  let s ← ofWords p.fields
  let s ← s.addWeeks p.weekOfYear
  let s ← s.addTimezone p.timezone
  s.addEndOfDuration p.endOfDuration

def parseExtended [TimezoneDatabase] (text : String) : Except Error Schedule := do ofParts (← Parts.split text)

def parseHybrid (text : String) : Except Error Schedule :=
  match cutAt "EOD:".toList text.toList with
  | none => parseCron text
  | some (cron, duration) => do
    let s ← parseCron (String.ofList cron)
    s.addEndOfDuration (some (String.ofList duration))

end Schedule

end Timetable
