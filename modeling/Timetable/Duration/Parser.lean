import Timetable.Duration.Basic
import Timetable.Duration.Error
import Timetable.Text.Blank
import Timetable.Text.Numeral
import Timetable.Text.Split

/-! Reading the text of a duration. `M` means minutes after the `T` and directly after hours; `m` always
does. -/

namespace Timetable

open Text

def maxAmount : Nat := 100000

namespace Duration

inductive Side where
  | calendar
  | time
deriving DecidableEq, Repr

structure Token where
  amount : Nat
  unit : TimeUnit
deriving DecidableEq, Repr

def isUnitLetter (c : Char) : Bool := c ∈ ['Y', 'M', 'W', 'D', 'H', 'm', 'S']

def unitOf (side : Side) (previous : Option TimeUnit) (letter : Char) :
    Except DurationError TimeUnit :=
  let onCalendar (u : TimeUnit) : Except DurationError TimeUnit :=
    if side = .time then .error (.notTimeUnit letter) else .ok u
  match letter with
  | 'H' => .ok .hours
  | 'm' => .ok .minutes
  | 'S' => .ok .seconds
  | 'M' => .ok (if side = .time ∨ previous = some .hours then .minutes else .months)
  | 'Y' => onCalendar .years
  | 'W' => onCalendar .weeks
  | 'D' => onCalendar .days
  | _ => .error (.unknownUnit letter.toString)

def readAmount (digits : List Char) : Except DurationError Nat :=
  match readWord? digits with
  | none => .error (.badNumber (String.ofList digits))
  | some n => if maxAmount < n then .error (.tooLarge n maxAmount) else .ok n

/-- The amounts in a text, where `digits` have been read before it and `previous` is the unit before
those. -/
def tokens (side : Side) (previous : Option TimeUnit) (digits : List Char) :
    List Char → Except DurationError (List Token)
  | [] => if digits.isEmpty then .ok [] else .error (.noUnitAfter (String.ofList digits))
  | c :: cs =>
    if c.isDigit then tokens side previous (digits ++ [c]) cs
    else if digits.isEmpty then
      if c = 'T' ∧ side = .calendar then tokens .time previous [] cs
      else .error (if isUnitLetter c then .noAmountBefore c else .unknownUnit c.toString)
    else do
      let n ← readAmount digits
      let u ← unitOf side previous c
      let rest ← tokens side (some u) [] cs
      return ⟨n, u⟩ :: rest

def addToken (d : Duration) (t : Token) : Except DurationError Duration :=
  let total := (d.amount t.unit).toNat + t.amount
  if maxAmount < total then .error (.tooLarge total maxAmount)
  else .ok (d.withAmount t.unit (UInt32.ofNat total))

def referenceOf : TimeUnit → Reference
  | .years => .year
  | .months => .month
  | .weeks => .week
  | .days => .day
  | .hours | .minutes | .seconds => .stop

def eventName? (word : List Char) : Option (List Char) :=
  match word with
  | 'E' :: '[' :: rest => dropLast? ']' rest
  | _ => none

def suffix? : List Char → Option Reference
  | [c] => Reference.ofLetter? c
  | _ => none

/-- Reads the words after the amounts; `suffixed` tells whether a suffix came before them. -/
def addClauses (d : Duration) (suffixed : Bool) : List (List Char) → Except DurationError Duration
  | [] => .ok d
  | word :: words =>
    let text := String.ofList word
    match eventName? word with
    | some name =>
      if name.isEmpty then .error (.unnamedEvent text)
      else if d.event.isSome then .error (.secondEvent text)
      else addClauses (d.withEvent (String.ofList name)) suffixed words
    | none =>
      match suffix? word with
      | none => .error (.unknownUnit text)
      | some r =>
        if suffixed then .error (.secondSuffix text)
        else addClauses { d with reference := r } true words

def ofWords (fromStart : Bool) (units : List Char) (clauses : List (List Char)) (text : String) :
    Except DurationError Duration := do
  match ← tokens .calendar none [] units with
  | [] => .error (.noUnits text)
  | t :: ts =>
    let blank := if fromStart then starting (referenceOf t.unit) else ending (referenceOf t.unit)
    let d ← (t :: ts).foldlM addToken blank
    let d ← addClauses d false clauses
    if !d.hasLength && d.event.isNone && !d.reference.isAnchored then .error (.nothing text)
    else .ok d

def ofText (cs : List Char) : Except DurationError Duration :=
  let text := String.ofList (trim cs)
  match words cs with
  | [] => .error .empty
  | ('S' :: units) :: clauses => ofWords true units clauses text
  | ('E' :: units) :: clauses => ofWords false units clauses text
  | _ => .error (.badStart text)

def parse (text : String) : Except DurationError Duration := ofText text.toList

def isValid (text : String) : Bool := (parse text).isOk

end Duration

end Timetable
