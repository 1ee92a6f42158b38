import Timetable.Search.Seek

/-! The instants whose wall time matches a plan. A search that begins in a repeated hour looks at it twice. -/

namespace Timetable

open Calendar

namespace Found
variable {α : Type}

def merge (choose : α → α → α) : Found α → Found α → Found α
  | outOfRange, _ | _, outOfRange => outOfRange
  | found a, found b => found (choose a b)
  | exhausted, x | x, exhausted => x

end Found

namespace Plan

def matchesAt? (p : Plan) (t : Instant) : Option Bool :=
  (p.zone.wallAt? t).map fun w => p.admits w.second

def firstAfter (p : Plan) (t : Instant) (w : Int) : Option Instant :=
  (p.zone.instantsAt (.ofSecond w)).find? (t < ·)

def lastBefore (p : Plan) (t : Instant) (w : Int) : Option Instant :=
  (p.zone.instantsAt (.ofSecond w)).reverse.find? (· < t)

def horizonAfter (years : Nat) (w : WallTime) : WallTime :=
  (w.addMonths? (12 * years)).getD .latest

def horizonBefore (years : Nat) (w : WallTime) : WallTime :=
  (w.addMonths? (-(12 * years))).getD .earliest

def secondFrom {c : Clock} (r : Reading c) : Int := if r.nano = 0 then r.second else r.second + 1

def seekAfter (p : Plan) (years : Nat) (t : Instant) (w : WallTime) : Found Instant :=
  if w.second < latestSecond then
    p.seekForward (p.firstAfter t) (horizonAfter years w).second (w.second + 1)
  else .outOfRange

def seekBefore (p : Plan) (years : Nat) (t : Instant) (w : WallTime) : Found Instant :=
  if earliestSecond < secondFrom w then
    p.seekBackward (p.lastBefore t) (secondFrom (horizonBefore years w)) (secondFrom w - 1)
  else .outOfRange

/-- Searches forward over the wall times that are `shift` seconds away from `w` at most. -/
def seekAgainForward (p : Plan) (t : Instant) (w : WallTime) (shift : Int) : Found Instant :=
  match w.addSeconds? (-shift), w.addSeconds? shift with
  | some first, some last => p.seekForward (p.firstAfter t) last.second first.second
  | _, _ => .outOfRange

def seekAgainBackward (p : Plan) (t : Instant) (w : WallTime) (shift : Int) : Found Instant :=
  match w.addSeconds? (-shift), w.addSeconds? shift with
  | some first, some last => p.seekBackward (p.lastBefore t) (secondFrom first) last.second
  | _, _ => .outOfRange

def nextFrom (p : Plan) (years : Nat) (t : Instant) (w : WallTime) : Found Instant :=
  let ahead := p.seekAfter years t w
  match p.zone.instantsAt w with
  | first :: second :: _ =>
    if t < second then ahead.merge min (p.seekAgainForward t w (second.secondsSince first)) else ahead
  | _ => ahead

def next (p : Plan) (years : Nat) (t : Instant) : Found Instant :=
  match p.zone.wallAt? t with
  | some w => p.nextFrom years t w
  | none => .outOfRange

def prevFrom (p : Plan) (years : Nat) (t : Instant) (w : WallTime) : Found Instant :=
  let behind := p.seekBefore years t w
  match p.zone.instantsAt w with
  | first :: second :: _ =>
    if first < t then behind.merge max (p.seekAgainBackward t w (second.secondsSince first))
    else behind
  | _ => behind

def prev (p : Plan) (years : Nat) (t : Instant) : Found Instant :=
  match p.zone.wallAt? t with
  | some w => p.prevFrom years t w
  | none => .outOfRange

end Plan

end Timetable
