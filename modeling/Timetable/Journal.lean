import Timetable.Expression
import Timetable.Calendar.Rfc3339
import Timetable.Json.Basic

/-! What is noted for a log while questions are answered. -/

namespace Timetable

open Calendar

inductive Notice where
  | read (text : String) (kind : Expression.Kind)
  | evaluated (d : Duration) (approxSeconds : Nat)
  | searched (s : Schedule) (ahead : Bool) (start : Instant) (found : Option Instant)
  | noMatch (s : Schedule) (cause : Error)
  | eventLeftOpen (d : Duration)
  | calendarOverflow (shift : CalendarShift)
  | timeOverflow (d : Duration)
  | anchoredTimeOverflow (d : Duration)
  | anchorOverflow (d : Duration)
deriving DecidableEq

namespace Notice

def isWarning : Notice → Bool
  | calendarOverflow _ | timeOverflow _ | anchoredTimeOverflow _ | anchorOverflow _ => true
  | _ => false

def level (n : Notice) : String := if n.isWarning then "WARN" else "DEBUG"

def message : Notice → String
  | read .. | evaluated .. | searched .. => "cd_event"
  | noMatch .. => "schedule cannot match"
  | eventLeftOpen _ => "event is resolved by the caller; returning reference instant"
  | calendarOverflow _ => "calendar offset overflowed; keeping input"
  | timeOverflow _ => "time offset overflowed; keeping calendar result"
  | anchoredTimeOverflow _ => "time offset overflowed; ignoring it"
  | anchorOverflow _ => "anchor offset overflowed; snapping the current period"

def stamp (t : Instant) : Json := .string (String.ofList (t.text ++ offsetText 0))

def fields : Notice → List (String × Json)
  | read text kind => [("trace_event", .object [
      ("event", .string "ExpressionClassified"),
      ("expression", .string text),
      ("kind", .string kind.name)])]
  | evaluated d n => [("trace_event", .object [
      ("anchored", .bool d.reference.isAnchored),
      ("approx_seconds", .integer n),
      ("duration", .string d.canonical),
      ("event", .string "DurationEvaluated")])]
  | searched s ahead start found => [("trace_event", .object [
      ("direction", .string (if ahead then "next" else "prev")),
      ("event", .string "OccurrenceSearched"),
      ("found", (found.map stamp).getD .null),
      ("from", stamp start),
      ("schedule", .string s.canonical)])]
  | noMatch s cause => [("error", .string cause.message), ("schedule", .string s.canonical)]
  | calendarOverflow shift => [
      ("months", .string (toString shift.months)),
      ("total_days", .string (toString shift.days)),
      ("years", .string (toString shift.years))]
  | eventLeftOpen d | timeOverflow d | anchoredTimeOverflow d | anchorOverflow d =>
    [("duration", .string d.canonical)]

def toJson (n : Notice) : Json :=
  .object (("level", .string n.level) :: ("message", .string n.message) :: n.fields)

def ifMissing {α : Type} (result : Option α) (n : Notice) : List Notice :=
  if result.isSome then [] else [n]

end Notice

namespace Duration

def additiveNotices (d : Duration) (z : Zone) (t : Instant) (w : WallTime) : List Notice :=
  Notice.ifMissing (d.calendarShift.addTo? w) (.calendarOverflow d.calendarShift) ++
    match d.additiveBase? z t w with
    | none => []
    | some base => Notice.ifMissing (base.addSeconds? d.timeSeconds) (.timeOverflow d)

def anchoredNotices (d : Duration) (p : Period) (w : WallTime) : List Notice :=
  Notice.ifMissing (d.calendarShift.addTo? w) (.calendarOverflow d.calendarShift) ++
    Notice.ifMissing ((d.shift w).addSeconds? d.timeSeconds) (.anchoredTimeOverflow d) ++
    Notice.ifMissing (d.advance? p (d.reached w).date) (.anchorOverflow d)

def notices (d : Duration) (z : Zone) (t : Instant) : List Notice :=
  match z.wallAt? t, d.reference.period? with
  | none, _ => []
  | some w, none => d.additiveNotices z t w
  | some w, some p => d.anchoredNotices p w

end Duration

def Expression.notices [TimezoneDatabase] (text : String) : List Notice :=
  match parse text with
  | .ok x => [.read (String.ofList (Text.trim text.toList)) x.kind]
  | .error _ => []

namespace Engine

def evaluateNotices (e : Engine) (d : Duration) (t : Instant) : List Notice :=
  match d.approxSeconds? with
  | none => []
  | some n =>
    (if d.needsEvent then [.eventLeftOpen d] else []) ++
      .evaluated d n :: d.notices e.timezone.zone t

def foundNotices (s : Schedule) (ahead : Bool) (t : Instant) : Found Instant → List Notice
  | .found u => [.searched s ahead t (some u)]
  | .exhausted => [.searched s ahead t none]
  | .outOfRange => []

def nextNotices (e : Engine) (s : Schedule) (t : Instant) : List Notice :=
  match e.plan s with
  | .ok p => foundNotices s true t (p.next e.horizon t)
  | _ => []

def prevNotices (e : Engine) (s : Schedule) (t : Instant) : List Notice :=
  match e.plan s with
  | .ok p => foundNotices s false t (p.prev e.horizon t)
  | _ => []

def firingsNotices (e : Engine) (s : Schedule) (t : Instant) : Nat → List Notice
  | 0 => []
  | n + 1 =>
    e.nextNotices s t ++
      match e.next s t with
      | .ok u => firingsNotices e s u n
      | _ => []

def nextNNotices (e : Engine) (s : Schedule) (t : Instant) (n : UInt64) : List Notice :=
  if n.toNat ≤ maxListed then e.firingsNotices s t n.toNat else []

def isMatchNotices (e : Engine) (s : Schedule) : List Notice :=
  match e.plan s with
  | .error cause => [.noMatch s cause]
  | _ => []

def endOfNotices (e : Engine) (s : Schedule) (t : Instant) : List Notice :=
  match s.endOfDuration with
  | none => []
  | some d => d.notices (e.timezoneOf s).zone t

section
variable [TimezoneDatabase]

def expressionNotices (text : String) (ofSchedule : Schedule → List Notice)
    (ofDuration : Duration → List Notice) : List Notice :=
  Expression.notices text ++
    match Expression.parse text with
    | .ok (.cron s) | .ok (.hybrid s) => ofSchedule s
    | .ok (.duration d) => ofDuration d
    | .error _ => []

def computeNextNotices (e : Engine) (text : String) (t : Instant) : List Notice :=
  expressionNotices text (e.nextNotices · t) (e.evaluateNotices · t)

def isTimeMatchNotices (e : Engine) (text : String) (t : Instant) : List Notice :=
  expressionNotices text e.isMatchNotices (e.evaluateNotices · t)

def endOfExpressionNotices (e : Engine) (text : String) (t : Instant) : List Notice :=
  expressionNotices text (e.endOfNotices · t) (e.evaluateNotices · t)

end

end Engine

end Timetable
