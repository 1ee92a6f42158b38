import Timetable.Duration.Json
import Timetable.Journal
import Timetable.Schedule.Json

/-! Commands on expressions. The exit code is 2 if the expression is malformed and 1 if it has no answer. -/

namespace Timetable

open Calendar

inductive Command where
  | parse (text : String) (json : Bool)
  | next (text : String) (start : Instant) (count : UInt64)
  | prev (text : String) (start : Instant)
  | isMatch (text : String) (time : Instant)
  | endOf (text : String) (time : Instant)
deriving DecidableEq, Repr

inductive Failure where
  | unreadable (text : String) (cause : Error)
  | unanswered (cause : Error)
  | noOccurrence (years : Nat) (start : Instant)
  | noPrevious
  | outOfRange
deriving DecidableEq, Repr

def Error.chain (e : Error) : List String :=
  e.message :: (e.cause?.map DurationError.message).toList

namespace Failure

def chain : Failure → List String
  | unreadable text cause => s!"parsing '{text}'" :: cause.chain
  | unanswered cause => cause.chain
  | noOccurrence years start =>
    ["no occurrence within " ++ toString years ++ " year(s) of " ++ String.ofList start.stamp]
  | noPrevious => ["a pure duration has no previous occurrence"]
  | outOfRange => ["calculation out of range"]

def message (f : Failure) : String := ": ".intercalate f.chain

def codeOf (e : Error) : Nat := if e.isMalformed then 2 else 1

def exitCode : Failure → Nat
  | unreadable _ cause | unanswered cause => codeOf cause
  | noOccurrence .. | noPrevious => 1
  | outOfRange => 101

end Failure

def Outcome.result {α : Type} : Outcome α → Except Failure α
  | ok a => .ok a
  | error e => .error (.unanswered e)
  | outOfRange => .error .outOfRange

section
variable [TimezoneDatabase]

def readExpression (text : String) : Except Failure Expression :=
  (Expression.parse text).mapError (.unreadable text)

end

def Expression.toJson : Expression → Json
  | cron s | hybrid s => s.toJson
  | duration d => d.toJson

namespace Command

def stampText (t : Instant) : String := String.ofList t.stamp

section
variable [TimezoneDatabase]

def runParse (text : String) (json : Bool) : Except Failure String := do
  let x ← readExpression text
  if json then return Json.pretty (.object [("kind", .string x.kind.name), ("value", x.toJson)])
  else return x.kind.name ++ ": " ++ x.canonical

def runNext (e : Engine) (text : String) (start : Instant) (count : UInt64) : Except Failure String := do
  match (← readExpression text).schedule? with
  | none => return stampText (← (e.computeNext text start).result)
  | some s =>
    match ← (e.nextN s start (max count 1)).result with
    | [] => .error (.noOccurrence e.horizon start)
    | found => return "\n".intercalate (found.map stampText)

def runPrev (e : Engine) (text : String) (start : Instant) : Except Failure String := do
  match (← readExpression text).schedule? with
  | none => .error .noPrevious
  | some s => return stampText (← (e.prev s start).result)

def runMatch (e : Engine) (text : String) (t : Instant) : Except Failure String := do
  return toString (← (e.isTimeMatch text t).result)

def runEnd (e : Engine) (text : String) (t : Instant) : Except Failure String := do
  return ((← (e.endOfExpression text t).result).map stampText).getD "none"

def run (e : Engine) : Command → Except Failure String
  | parse text json => runParse text json
  | next text start count => runNext e text start count
  | prev text start => runPrev e text start
  | isMatch text t => runMatch e text t
  | endOf text t => runEnd e text t

def notices (e : Engine) : Command → List Notice
  | parse text _ => Expression.notices text
  | next text start count =>
    Engine.expressionNotices text (e.nextNNotices · start (max count 1))
      fun _ => e.computeNextNotices text start
  | prev text start => Engine.expressionNotices text (e.prevNotices · start) fun _ => []
  | isMatch text t => e.isTimeMatchNotices text t
  | endOf text t => e.endOfExpressionNotices text t

end

end Command

end Timetable
