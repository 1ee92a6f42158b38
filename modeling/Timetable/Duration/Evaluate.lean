import Timetable.Duration.Basic
import Timetable.Zone.Basic

namespace Timetable

open Calendar

structure CalendarShift where
  years : Nat
  months : Nat
  days : Nat
deriving DecidableEq, Repr

def CalendarShift.addTo? (s : CalendarShift) (w : WallTime) : Option WallTime := do
  let w ← w.addMonths? (12 * s.years)
  let w ← w.addMonths? s.months
  w.addDays? s.days

namespace Duration

def calendarShift (d : Duration) : CalendarShift where
  years := d.amountBesideAnchor .years
  months := d.amountBesideAnchor .months
  days := 7 * d.amountBesideAnchor .weeks + d.amountBesideAnchor .days

def shift (d : Duration) (w : WallTime) : WallTime := (d.calendarShift.addTo? w).getD w

def additiveBase? (d : Duration) (z : Zone) (t : Instant) (w : WallTime) : Option Instant :=
  if d.shift w = w then some t else z.resolve? (d.shift w)

def evaluateAdditive? (d : Duration) (z : Zone) (t : Instant) (w : WallTime) : Option Instant :=
  (d.additiveBase? z t w).map fun base => (base.addSeconds? d.timeSeconds).getD base

def reached (d : Duration) (w : WallTime) : WallTime :=
  let w := d.shift w
  (w.addSeconds? d.timeSeconds).getD w

def advance? (d : Duration) (p : Period) (date : Date) : Option Date :=
  p.advance? date d.anchorOffset.toNat

def anchoredDate (d : Duration) (p : Period) (w : WallTime) : Date :=
  let date := (d.reached w).date
  (d.advance? p date).getD date

def boundary (d : Duration) (p : Period) (date : Date) : WallTime :=
  if d.fromStart then .ofDate (p.first date) 0 else .endOfDate (p.last date)

def evaluateAnchored? (d : Duration) (p : Period) (z : Zone) (w : WallTime) : Option Instant :=
  z.resolve? (d.boundary p (d.anchoredDate p w))

/-- The instant that is named from `t`, unless a wall time on the way to it leaves the range. -/
def evaluate? (d : Duration) (z : Zone) (t : Instant) : Option Instant := do
  let w ← z.wallAt? t
  match d.reference.period? with
  | none => d.evaluateAdditive? z t w
  | some p => d.evaluateAnchored? p z w

end Duration

end Timetable
