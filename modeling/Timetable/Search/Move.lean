import Timetable.Search.Plan

/-! One move of the search: past all seconds that fail in the same field, the largest unit first. -/

namespace Timetable

open Calendar

inductive Move where
  | here
  | jump (t : Int)
  | stuck
  | outOfRange
deriving DecidableEq, Repr

namespace Move

def toDate (d : Option Date) (hour minute second : Nat) : Move :=
  match d with
  | none => stuck
  | some d => jump (secondAt d hour minute second)

def toSecond (t : Int) : Move :=
  if earliestSecond ≤ t ∧ t ≤ latestSecond then jump t else outOfRange

theorem exists_of_toDate_eq_jump {o : Option Date} {h m s : Nat} {u : Int}
    (hj : toDate o h m s = jump u) : ∃ d, o = some d ∧ u = secondAt d h m s := by
  cases o with
  | none => simp [toDate] at hj
  | some d => exact ⟨d, rfl, by simpa [toDate] using hj.symm⟩

theorem toDate_ne_here (o : Option Date) (h m s : Nat) : toDate o h m s ≠ here := by
  cases o <;> simp [toDate]

theorem toSecond_ne_here (t : Int) : toSecond t ≠ here := by
  rw [toSecond]; split <;> simp

theorem eq_of_toSecond_eq_jump {t u : Int} (h : toSecond t = jump u) : u = t := by
  simp only [toSecond] at h
  split at h <;> simp_all

end Move

namespace Plan

def nextYear (p : Plan) (y : Int) : Move :=
  match p.year with
  | none => .stuck
  | some f =>
    if y + 1 < 0 then .stuck
    else .toDate ((f.next? (y + 1).toNat).bind fun y => Date.ofCivil? ⟨y, 1, 1⟩) 0 0 0

def nextMonth (p : Plan) (c : Civil) : Move :=
  match p.month.next? (c.month + 1) with
  | some m => .toDate (Date.ofCivil? ⟨c.year, m, 1⟩) 0 0 0
  | none => .toDate (Date.ofCivil? ⟨c.year + 1, 1, 1⟩) 0 0 0

def nextHour (p : Plan) (t : Int) : Move :=
  match p.hour.next? (hourOf t + 1) with
  | some h => .jump (secondAt (dateOf t) h 0 0)
  | none => .toDate ((dateOf t).addDays? 1) 0 0 0

def nextMinute (p : Plan) (t : Int) : Move :=
  match p.minute.next? (minuteOf t + 1) with
  | some m => .jump (secondAt (dateOf t) (hourOf t) m 0)
  | none => .toSecond (secondAt (dateOf t) (hourOf t + 1) 0 0)

def nextSecond (p : Plan) (t : Int) : Move :=
  match p.second.next? (secondOf t + 1) with
  | some s => .jump (secondAt (dateOf t) (hourOf t) (minuteOf t) s)
  | none => .toSecond (secondAt (dateOf t) (hourOf t) (minuteOf t + 1) 0)

def forward (p : Plan) (t : Int) : Move :=
  let d := dateOf t
  let c := d.civil
  if !p.admitsYear c.year then p.nextYear c.year
  else if !p.month.admits c.month then p.nextMonth c
  else if !p.admitsDay d then .toDate (d.addDays? 1) 0 0 0
  else if !p.hour.admits (hourOf t) then p.nextHour t
  else if !p.minute.admits (minuteOf t) then p.nextMinute t
  else if !p.second.admits (secondOf t) then p.nextSecond t
  else .here

def prevYear (p : Plan) (y : Int) : Move :=
  match p.year with
  | none => .stuck
  | some f =>
    if y - 1 < 0 then .stuck
    else .toDate ((f.prev? (y - 1).toNat).bind fun y => Date.ofCivil? ⟨y, 12, 31⟩) 23 59 59

def prevMonth (p : Plan) (c : Civil) : Move :=
  let first : Option Date :=
    match p.month.prev? (c.month - 1) with
    | some m => Date.ofCivil? ⟨c.year, m, 1⟩
    | none => Date.ofCivil? ⟨c.year - 1, 12, 1⟩
  .toDate (first.map Date.lastOfMonth) 23 59 59

def below {k : FieldKind} (f : Field k) (v : Nat) : Option Nat :=
  if v = 0 then none else f.prev? (v - 1)

def prevHour (p : Plan) (t : Int) : Move :=
  match below p.hour (hourOf t) with
  | some h => .jump (secondAt (dateOf t) h 59 59)
  | none => .toDate ((dateOf t).addDays? (-1)) 23 59 59

def prevMinute (p : Plan) (t : Int) : Move :=
  match below p.minute (minuteOf t) with
  | some m => .jump (secondAt (dateOf t) (hourOf t) m 59)
  | none => .toSecond (secondAt (dateOf t) (hourOf t) 0 0 - 1)

def prevSecond (p : Plan) (t : Int) : Move :=
  match below p.second (secondOf t) with
  | some s => .jump (secondAt (dateOf t) (hourOf t) (minuteOf t) s)
  | none => .toSecond (secondAt (dateOf t) (hourOf t) (minuteOf t) 0 - 1)

def backward (p : Plan) (t : Int) : Move :=
  let d := dateOf t
  let c := d.civil
  if !p.admitsYear c.year then p.prevYear c.year
  else if !p.month.admits c.month then p.prevMonth c
  else if !p.admitsDay d then .toDate (d.addDays? (-1)) 23 59 59
  else if !p.hour.admits (hourOf t) then p.prevHour t
  else if !p.minute.admits (minuteOf t) then p.prevMinute t
  else if !p.second.admits (secondOf t) then p.prevSecond t
  else .here

theorem nextYear_ne_here (p : Plan) (y : Int) : p.nextYear y ≠ .here := by
  rw [nextYear]
  split
  · simp
  · split
    · simp
    · exact Move.toDate_ne_here _ _ _ _

theorem nextMonth_ne_here (p : Plan) (c : Civil) : p.nextMonth c ≠ .here := by
  rw [nextMonth]; split <;> exact Move.toDate_ne_here _ _ _ _

theorem nextHour_ne_here (p : Plan) (t : Int) : p.nextHour t ≠ .here := by
  rw [nextHour]
  split
  · simp
  · exact Move.toDate_ne_here _ _ _ _

theorem nextMinute_ne_here (p : Plan) (t : Int) : p.nextMinute t ≠ .here := by
  rw [nextMinute]
  split
  · simp
  · exact Move.toSecond_ne_here _

theorem nextSecond_ne_here (p : Plan) (t : Int) : p.nextSecond t ≠ .here := by
  rw [nextSecond]
  split
  · simp
  · exact Move.toSecond_ne_here _

theorem forward_eq_here_iff (p : Plan) (t : Int) : p.forward t = .here ↔ p.admits t = true := by
  simp only [forward, admits, admitsDate, Date.year, Date.month, Bool.not_eq_true', Bool.and_eq_true]
  repeat' split
  all_goals simp_all [nextYear_ne_here, nextMonth_ne_here, nextHour_ne_here, nextMinute_ne_here,
    nextSecond_ne_here, Move.toDate_ne_here]

theorem prevYear_ne_here (p : Plan) (y : Int) : p.prevYear y ≠ .here := by
  rw [prevYear]
  split
  · simp
  · split
    · simp
    · exact Move.toDate_ne_here _ _ _ _

theorem prevHour_ne_here (p : Plan) (t : Int) : p.prevHour t ≠ .here := by
  rw [prevHour]
  split
  · simp
  · exact Move.toDate_ne_here _ _ _ _

theorem prevMinute_ne_here (p : Plan) (t : Int) : p.prevMinute t ≠ .here := by
  rw [prevMinute]
  split
  · simp
  · exact Move.toSecond_ne_here _

theorem prevSecond_ne_here (p : Plan) (t : Int) : p.prevSecond t ≠ .here := by
  rw [prevSecond]
  split
  · simp
  · exact Move.toSecond_ne_here _

theorem backward_eq_here_iff (p : Plan) (t : Int) : p.backward t = .here ↔ p.admits t = true := by
  simp only [backward, admits, admitsDate, Date.year, Date.month, Bool.not_eq_true', Bool.and_eq_true]
  repeat' split
  all_goals simp_all [prevYear_ne_here, prevMonth, prevHour_ne_here, prevMinute_ne_here,
    prevSecond_ne_here, Move.toDate_ne_here]

end Plan

end Timetable
