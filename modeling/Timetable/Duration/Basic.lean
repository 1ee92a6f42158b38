import Timetable.Calendar.Period

/-! Durations of sessions. `start` and `stop` only add; every other reference point is anchored. -/

namespace Timetable

inductive TimeUnit where
  | years
  | months
  | weeks
  | days
  | hours
  | minutes
  | seconds
deriving DecidableEq, Repr

inductive Reference where
  | start
  | stop
  | day
  | week
  | month
  | quarter
  | year
deriving DecidableEq, Repr

namespace Reference

def period? : Reference → Option Calendar.Period
  | start | stop => none
  | day => some .day
  | week => some .week
  | month => some .month
  | quarter => some .quarter
  | year => some .year

def unit? : Reference → Option TimeUnit
  | start | stop => none
  | day => some .days
  | week => some .weeks
  | month | quarter => some .months
  | year => some .years

def isAnchored (r : Reference) : Bool := r.period?.isSome

def letter? : Reference → Option Char
  | start | stop => none
  | day => some 'D'
  | week => some 'W'
  | month => some 'M'
  | quarter => some 'Q'
  | year => some 'Y'

def ofLetter? : Char → Option Reference
  | 'D' => some day
  | 'W' => some week
  | 'M' => some month
  | 'Q' => some quarter
  | 'Y' => some year
  | _ => none

def display : Reference → String
  | start => "START"
  | stop => "END"
  | day => "DAY"
  | week => "WEEK"
  | month => "MONTH"
  | quarter => "QUARTER"
  | year => "YEAR"

theorem ofLetter?_eq_some_iff {c : Char} {r : Reference} :
    ofLetter? c = some r ↔ r.letter? = some c := by
  constructor
  · intro h
    unfold ofLetter? at h
    split at h <;> simp_all [letter?] <;> subst h <;> rfl
  · intro h
    cases r <;> simp [letter?] at h <;> subst h <;> rfl

theorem isAnchored_iff_letter? (r : Reference) : r.isAnchored = r.letter?.isSome := by
  cases r <;> rfl

end Reference

/-- Amounts of every unit with a reference point. Of an anchored one the amount of its own unit
counts the periods to advance by, and quarters are counted in `months`. An event that ends the
session is named here and looked up elsewhere. -/
structure Duration where
  years : UInt32 := 0
  months : UInt32 := 0
  weeks : UInt32 := 0
  days : UInt32 := 0
  hours : UInt32 := 0
  minutes : UInt32 := 0
  seconds : UInt32 := 0
  reference : Reference := .stop
  /-- Whether the first instant of the period is meant, or of additive durations the form written
  with `S`. -/
  fromStart : Bool := false
  event : Option String := none
deriving DecidableEq, Repr

namespace Duration

def ending (r : Reference) : Duration :=
  { reference := if r = .start then .stop else r }

def starting (r : Reference) : Duration :=
  { reference := if r = .stop then .start else r, fromStart := true }

def amount (d : Duration) : TimeUnit → UInt32
  | .years => d.years
  | .months => d.months
  | .weeks => d.weeks
  | .days => d.days
  | .hours => d.hours
  | .minutes => d.minutes
  | .seconds => d.seconds

def withAmount (d : Duration) (u : TimeUnit) (n : UInt32) : Duration :=
  match u with
  | .years => { d with years := n }
  | .months => { d with months := n }
  | .weeks => { d with weeks := n }
  | .days => { d with days := n }
  | .hours => { d with hours := n }
  | .minutes => { d with minutes := n }
  | .seconds => { d with seconds := n }

def withEvent (d : Duration) (name : String) : Duration := { d with event := some name }

def hasCalendarLength (d : Duration) : Bool :=
  d.years != 0 || d.months != 0 || d.weeks != 0 || d.days != 0

def hasTimeLength (d : Duration) : Bool := d.hours != 0 || d.minutes != 0 || d.seconds != 0

def hasLength (d : Duration) : Bool := d.hasCalendarLength || d.hasTimeLength

def needsEvent (d : Duration) : Bool := d.event.isSome && !d.hasLength && !d.reference.isAnchored

def anchorOffset (d : Duration) : UInt32 := (d.reference.unit?.map d.amount).getD 0

def amountBesideAnchor (d : Duration) (u : TimeUnit) : Nat :=
  if d.reference.unit? = some u then 0 else (d.amount u).toNat

def timeSeconds (d : Duration) : Nat :=
  3600 * d.hours.toNat + 60 * d.minutes.toNat + d.seconds.toNat

def approxDays (d : Duration) : Nat :=
  d.days.toNat + 7 * d.weeks.toNat + 30 * d.months.toNat + 365 * d.years.toNat

def approxSeconds (d : Duration) : Nat := 86400 * d.approxDays + d.timeSeconds

/-- The most seconds that a length in milliseconds of 64 bits can have. -/
def maxLengthSeconds : Nat := Int64.maxValue.toInt.toNat / 1000

def approxSeconds? (d : Duration) : Option Nat :=
  if d.approxSeconds ≤ maxLengthSeconds then some d.approxSeconds else none

theorem amount_withAmount (d : Duration) (u v : TimeUnit) (n : UInt32) :
    (d.withAmount u n).amount v = if v = u then n else d.amount v := by
  cases u <;> cases v <;> rfl

@[simp] theorem reference_withAmount (d : Duration) (u : TimeUnit) (n : UInt32) :
    (d.withAmount u n).reference = d.reference := by cases u <;> rfl

@[simp] theorem fromStart_withAmount (d : Duration) (u : TimeUnit) (n : UInt32) :
    (d.withAmount u n).fromStart = d.fromStart := by cases u <;> rfl

@[simp] theorem event_withAmount (d : Duration) (u : TimeUnit) (n : UInt32) :
    (d.withAmount u n).event = d.event := by cases u <;> rfl

theorem hasLength_eq_false_iff {d : Duration} :
    d.hasLength = false ↔ ∀ u, d.amount u = 0 := by
  constructor
  · intro h u
    simp only [hasLength, hasCalendarLength, hasTimeLength, Bool.or_eq_false_iff, bne_eq_false_iff_eq]
      at h
    cases u <;> simp [amount, h]
  · intro h
    have := h .years; have := h .months; have := h .weeks; have := h .days
    have := h .hours; have := h .minutes; have := h .seconds
    simp_all [hasLength, hasCalendarLength, hasTimeLength, amount]

end Duration

end Timetable
