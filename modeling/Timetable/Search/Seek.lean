import Timetable.Search.Progress

namespace Timetable

open Calendar

inductive Found (α : Type) where
  | found (value : α)
  | exhausted
  | outOfRange
deriving DecidableEq, Repr

namespace Plan
variable {α : Type}

def seekForward (p : Plan) (accept : Int → Option α) (last t : Int) : Found α :=
  if last < t then .exhausted
  else
    match _h : p.forward t with
    | .here =>
      match accept t with
      | some a => .found a
      | none => if t < latestSecond then seekForward p accept last (t + 1) else .outOfRange
    | .jump u => seekForward p accept last u
    | .stuck => .exhausted
    | .outOfRange => .outOfRange
termination_by (last + 1 - t).toNat
decreasing_by
  · omega
  · have := lt_of_forward_eq_jump ‹_›; omega

def seekBackward (p : Plan) (accept : Int → Option α) (first t : Int) : Found α :=
  if t < first then .exhausted
  else
    match _h : p.backward t with
    | .here =>
      match accept t with
      | some a => .found a
      | none => if earliestSecond < t then seekBackward p accept first (t - 1) else .outOfRange
    | .jump u => seekBackward p accept first u
    | .stuck => .exhausted
    | .outOfRange => .outOfRange
termination_by (t + 1 - first).toNat
decreasing_by
  · omega
  · have := lt_of_backward_eq_jump ‹_›; omega

def nextWall (p : Plan) (last t : Int) : Found Int := p.seekForward some last t

def prevWall (p : Plan) (first t : Int) : Found Int := p.seekBackward some first t

end Plan

end Timetable
