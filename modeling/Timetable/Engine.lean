import Timetable.Duration.Evaluate
import Timetable.Search.Occurrence

namespace Timetable

open Calendar

def maxHorizon : Nat := 400

structure Engine where
  horizon : Nat := 10
  timezone : Timezone := .utc
  horizon_pos : 1 ≤ horizon := by decide
  horizon_le : horizon ≤ maxHorizon := by decide

namespace Engine

def default : Engine := {}

instance : Inhabited Engine := ⟨default⟩

def ofHorizon (years : Nat) (z : Timezone) : Engine where
  horizon := min (max years 1) maxHorizon
  timezone := z
  horizon_pos := by simp only [maxHorizon]; omega
  horizon_le := by omega

def timezoneOf (e : Engine) (s : Schedule) : Timezone := s.timezone.getD e.timezone

def plan (e : Engine) (s : Schedule) : Outcome Plan :=
  match s.special with
  | some .reboot => .error .notOnCalendar
  | none => .ok (s.plan e.timezone.zone)

def ofFound (e : Engine) : Found Instant → Outcome Instant
  | .found t => .ok t
  | .exhausted => .error (.exhausted e.horizon)
  | .outOfRange => .outOfRange

def next (e : Engine) (s : Schedule) (t : Instant) : Outcome Instant := do
  e.ofFound ((← e.plan s).next e.horizon t)

def prev (e : Engine) (s : Schedule) (t : Instant) : Outcome Instant := do
  e.ofFound ((← e.plan s).prev e.horizon t)

def firings (e : Engine) (s : Schedule) (t : Instant) : Nat → Outcome (List Instant)
  | 0 => .ok []
  | n + 1 =>
    match e.next s t with
    | .ok u => do return u :: (← e.firings s u n)
    | .error (.exhausted _) => .ok []
    | .error cause => .error cause
    | .outOfRange => .outOfRange

/-- An instant takes 12 bytes, and a list has no more of them than a signed word can count. -/
def maxListed : Nat := Int64.maxValue.toInt.toNat / 12

/-- Room for the whole list is set aside before the first search. -/
def nextN (e : Engine) (s : Schedule) (t : Instant) (n : UInt64) : Outcome (List Instant) :=
  if n.toNat ≤ maxListed then e.firings s t n.toNat else .outOfRange

def isMatch (e : Engine) (s : Schedule) (t : Instant) : Outcome Bool :=
  match e.plan s with
  | .ok p => .ofOption (p.matchesAt? t)
  | _ => .ok false

def endOf (e : Engine) (s : Schedule) (t : Instant) : Outcome (Option Instant) :=
  match s.endOfDuration with
  | none => .ok none
  | some d => do return some (← .ofOption (d.evaluate? (e.timezoneOf s).zone t))

end Engine

end Timetable
