import Timetable.Calendar.Reading

/-! Time zones as tables of offsets. The last transition holds for ever. -/

namespace Timetable

open Calendar

structure Transition where
  second : Int
  offset : Int
deriving DecidableEq, Repr

/-- The wall clocks of a place, none of which is set within two days of an end of the range. -/
structure Zone where
  before : Int
  transitions : List Transition
  inside : ∀ x ∈ transitions,
    earliestSecond + 172800 ≤ x.second ∧ x.second + 172800 ≤ latestSecond := by decide +kernel
deriving DecidableEq, Repr

namespace Zone

def fixed (offset : Int) : Zone := ⟨offset, [], List.forall_mem_nil _⟩

def utc : Zone := fixed 0

/-- Offsets are shorter than a day, and between transitions lie more than two days. -/
def Regular (z : Zone) : Prop :=
  z.before.natAbs < 86400 ∧ (∀ x ∈ z.transitions, x.offset.natAbs < 86400) ∧
    z.transitions.Pairwise fun x y => x.second + 172800 < y.second

instance (z : Zone) : Decidable z.Regular := inferInstanceAs (Decidable (_ ∧ _))

def offsetAfter (offset : Int) (t : Int) : List Transition → Int
  | [] => offset
  | x :: xs => if t < x.second then offset else offsetAfter x.offset t xs

def offsetAt (z : Zone) (t : Int) : Int := offsetAfter z.before t z.transitions

/-- The offsets under which wall clocks show second `w`, in the order of their times: that of each
span between transitions whose first wall time is at most `w` and whose end lies after it. The span
of `offset` comes first, and `begun` tells whether its first wall time is at most `w`. -/
def offsetsAfter (begun : Bool) (offset : Int) (w : Int) : List Transition → List Int
  | [] => if begun then [offset] else []
  | x :: xs =>
    let later := offsetsAfter (x.second + x.offset ≤ w) x.offset w xs
    if begun && w < x.second + offset then offset :: later else later

def offsetsAt (z : Zone) (w : Int) : List Int := offsetsAfter true z.before w z.transitions

def wallAt (z : Zone) (t : Instant) : WallTime :=
  ⟨t.second + z.offsetAt t.second, t.nano, t.nano_lt⟩

def wallAt? (z : Zone) (t : Instant) : Option WallTime := (z.wallAt t).inRange?

def instantUnder (offset : Int) (w : WallTime) : Instant := ⟨w.second - offset, w.nano, w.nano_lt⟩

/-- The instants whose wall time is `w`, the first one first; none if one of them leaves the range. -/
def instantsAt (z : Zone) (w : WallTime) : List Instant :=
  let ts := (z.offsetsAt w.second).map fun offset => instantUnder offset w
  if ∀ t ∈ ts, t.InRange then ts else []

/-- The instant that a wall time means: of two the first, and for a skipped time the instant that
has it under the offset of the day before. -/
def resolve (z : Zone) (w : WallTime) : Instant :=
  match z.instantsAt w with
  | t :: _ => t
  | [] =>
    let dayBefore := (w.addDays? (-1)).getD w
    Reading.addSeconds ⟨w.second, w.nano, w.nano_lt⟩ (-z.offsetAt dayBefore.second)

def resolve? (z : Zone) (w : WallTime) : Option Instant := (z.resolve w).inRange?

@[simp] theorem offsetAt_fixed (offset t : Int) : (fixed offset).offsetAt t = offset := rfl

@[simp] theorem offsetsAt_fixed (offset w : Int) : (fixed offset).offsetsAt w = [offset] := rfl

end Zone

end Timetable
