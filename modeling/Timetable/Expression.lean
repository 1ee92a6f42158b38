import Timetable.Engine
import Timetable.Schedule.Parser

/-! Expressions: a schedule, with or without a bound for its sessions, or a duration. -/

namespace Timetable

open Calendar Text

inductive Expression where
  | cron (s : Schedule)
  | hybrid (s : Schedule)
  | duration (d : Duration)
deriving DecidableEq

namespace Expression

inductive Kind where
  | cron
  | hybrid
  | duration
deriving DecidableEq, Repr

def Kind.name : Kind → String
  | cron => "cron"
  | hybrid => "hybrid"
  | duration => "duration"

def kind : Expression → Kind
  | cron _ => .cron
  | hybrid _ => .hybrid
  | duration _ => .duration

def schedule? : Expression → Option Schedule
  | cron s | hybrid s => some s
  | duration _ => none

def duration? : Expression → Option Duration
  | cron _ => none
  | hybrid s => s.endOfDuration
  | duration d => some d

def canonical : Expression → String
  | cron s | hybrid s => s.canonical
  | duration d => d.canonical

def ofSchedule (s : Schedule) : Expression := if s.endOfDuration.isSome then hybrid s else cron s

def beginsAmounts (c : Char) : Bool := c.isDigit || Duration.isUnitLetter c || c == 'T'

def isOtherClause (word : List Char) : Bool :=
  match clause? word with
  | none => false
  | some (keyword, _) => keyword != "EOD"

def readSchedule [TimezoneDatabase] (text : String) : Except Error Schedule :=
  if (words text.toList).any isOtherClause then Schedule.parseExtended text
  else if (cutAt "EOD:".toList text.toList).isSome then Schedule.parseHybrid text
  else Schedule.parseCron text

def parse [TimezoneDatabase] (text : String) : Except Error Expression :=
  let trimmed := String.ofList (trim text.toList)
  match trim text.toList with
  | [] => .error .empty
  | 'E' :: rest | 'S' :: rest =>
    if rest.head?.any beginsAmounts then ((Duration.parse trimmed).mapError .duration).map duration
    else .error (.ambiguous trimmed)
  | _ => (readSchedule trimmed).map ofSchedule

end Expression

namespace Engine

/-- The instant that a duration names on the wall clock of the engine's own zone. A duration is
answered only if its rough length can be told. -/
def evaluate (e : Engine) (d : Duration) (t : Instant) : Outcome Instant :=
  match d.approxSeconds? with
  | none => .outOfRange
  | some _ => .ofOption (d.evaluate? e.timezone.zone t)

section
variable [TimezoneDatabase]

def computeNext (e : Engine) (text : String) (t : Instant) : Outcome Instant := do
  match ← Outcome.ofExcept (Expression.parse text) with
  | .cron s | .hybrid s => e.next s t
  | .duration d => e.evaluate d t

def isTimeMatch (e : Engine) (text : String) (t : Instant) : Outcome Bool := do
  match ← Outcome.ofExcept (Expression.parse text) with
  | .cron s | .hybrid s => e.isMatch s t
  | .duration d => return (← e.evaluate d t) == t

def endOfExpression (e : Engine) (text : String) (t : Instant) : Outcome (Option Instant) := do
  match ← Outcome.ofExcept (Expression.parse text) with
  | .cron s | .hybrid s => e.endOf s t
  | .duration d => return some (← e.evaluate d t)

end

end Engine

end Timetable
