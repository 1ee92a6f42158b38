import Timetable.Duration.Error
import Timetable.Field.Basic
import Timetable.Field.Error

namespace Timetable

inductive Clause where
  | weekOfYear
  | timezone
  | endOfDuration
deriving DecidableEq, Repr

def Clause.keyword : Clause → String
  | weekOfYear => "WOY"
  | timezone => "TZ"
  | endOfDuration => "EOD"

def Clause.ofKeyword? : String → Option Clause
  | "WOY" => some weekOfYear
  | "TZ" => some timezone
  | "EOD" => some endOfDuration
  | _ => none

inductive Error where
  | empty
  | fieldCount (found : Nat)
  | unknownClause (token : String)
  | ambiguous (text : String)
  | field (kind : FieldKind) (cause : FieldError)
  | clauseWithoutValue (keyword : String)
  | repeatedClause (clause : Clause)
  | weeksGivenTwice
  | unknownMacro (name : String)
  | unknownTimezone (name : String)
  | endOfDuration (cause : DurationError)
  | duration (cause : DurationError)
  | exhausted (years : Nat)
  | notOnCalendar
deriving DecidableEq, Repr

namespace Error

def message : Error → String
  | empty => "empty expression"
  | fieldCount found => s!"expected 5, 6, or 7 cron fields, got {found}"
  | unknownClause token => s!"unknown extension: {token}"
  | ambiguous text => s!"ambiguous expression: {text}"
  | field kind cause => s!"{kind.name}: {cause.message}"
  | clauseWithoutValue keyword => s!"{keyword}: extension has no value"
  | repeatedClause clause => s!"{clause.keyword}: extension given more than once"
  | weeksGivenTwice => "week-of-year: given both as a 7th field and as WOY:"
  | unknownMacro name => s!"macro: unknown macro '{name}'"
  | unknownTimezone name =>
    s!"invalid timezone: '{name}' (use IANA names like 'America/New_York' or 'UTC')"
  | endOfDuration cause => s!"invalid EOD clause: {cause.message}"
  | duration cause => s!"duration: {cause.message}"
  | exhausted years => s!"no occurrence found within {years} year(s)"
  | notOnCalendar => "schedule @reboot fires on an external event, not on the calendar"

def cause? : Error → Option DurationError
  | endOfDuration cause | duration cause => some cause
  | _ => none

def isMalformed : Error → Bool
  | exhausted _ | notOnCalendar => false
  | _ => true

end Error

/-- The answer to a question about the calendar, which may have none, or lie beyond the calendar's
range. -/
inductive Outcome (α : Type) where
  | ok (value : α)
  | error (cause : Error)
  | outOfRange
deriving DecidableEq, Repr

namespace Outcome

instance : Monad Outcome where
  pure := ok
  bind x f :=
    match x with
    | ok a => f a
    | error e => error e
    | outOfRange => outOfRange

def ofExcept {α : Type} : Except Error α → Outcome α
  | .ok a => ok a
  | .error e => error e

def ofOption {α : Type} : Option α → Outcome α
  | some a => ok a
  | none => outOfRange

@[simp] theorem pure_eq {α : Type} (a : α) : (pure a : Outcome α) = ok a := rfl

@[simp] theorem ok_bind {α β : Type} (a : α) (f : α → Outcome β) : (ok a >>= f) = f a := rfl

@[simp] theorem error_bind {α β : Type} (e : Error) (f : α → Outcome β) :
    (error e >>= f) = error e := rfl

@[simp] theorem outOfRange_bind {α β : Type} (f : α → Outcome β) :
    ((outOfRange : Outcome α) >>= f) = outOfRange := rfl

instance : LawfulMonad Outcome := LawfulMonad.mk' _
  (fun x => by cases x <;> rfl)
  (fun _ _ => rfl)
  (fun x _ _ => by cases x <;> rfl)

end Outcome

end Timetable
