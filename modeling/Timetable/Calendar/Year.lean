/-! Years and months of the Gregorian calendar. Day 0 is 1 January 1970. -/

namespace Timetable.Calendar

def isLeapYear (y : Int) : Bool := (y % 4 == 0 && y % 100 != 0) || y % 400 == 0

def daysInMonth (y : Int) (m : Nat) : Nat :=
  if m = 2 then (if isLeapYear y then 29 else 28)
  else if m = 4 ∨ m = 6 ∨ m = 9 ∨ m = 11 then 30
  else if 1 ≤ m ∧ m ≤ 12 then 31
  else 0

def yearStart (y : Int) : Int :=
  365 * (y - 1970) + ((y - 1) / 4 - (y - 1) / 100 + (y - 1) / 400) - 477

/-- The year of a day number: the mean length of a year gives it up to one, and the neighbours
decide. -/
def yearOf (n : Int) : Int :=
  let y := 1970 + 400 * n / 146097
  if n < yearStart y then y - 1 else if yearStart (y + 1) ≤ n then y + 1 else y

def monthStart (leap : Bool) (m : Nat) : Nat :=
  let days := [0, 31, 59, 90, 120, 151, 181, 212, 243, 273, 304, 334, 365].getD (m - 1) 0
  if leap && 2 < m then days + 1 else days

def monthOf (leap : Bool) (k : Nat) : Nat :=
  1 + (List.range' 2 11).countP fun m => monthStart leap m ≤ k

theorem yearStart_succ (y : Int) :
    yearStart (y + 1) = yearStart y + if isLeapYear y then 366 else 365 := by
  simp only [yearStart, isLeapYear, Bool.or_eq_true, Bool.and_eq_true, beq_iff_eq, bne_iff_ne]
  split <;> omega

theorem yearStart_le_of_le {y z : Int} (h : y ≤ z) : yearStart y ≤ yearStart z := by
  simp only [yearStart]; omega

theorem yearStart_yearOf_le (n : Int) : yearStart (yearOf n) ≤ n := by
  simp only [yearOf]
  split
  · simp only [yearStart] at *; omega
  · split <;> omega

theorem lt_yearStart_yearOf_succ (n : Int) : n < yearStart (yearOf n + 1) := by
  simp only [yearOf]
  split
  · simpa using ‹_›
  · split
    · simp only [yearStart] at *; omega
    · omega

theorem yearOf_eq_of_bounds {n y : Int} (h : yearStart y ≤ n) (h' : n < yearStart (y + 1)) :
    yearOf n = y := by
  have h₁ := yearStart_yearOf_le n
  have h₂ := lt_yearStart_yearOf_succ n
  rcases Int.lt_trichotomy (yearOf n) y with hlt | heq | hgt
  · have := yearStart_le_of_le (show yearOf n + 1 ≤ y by omega); omega
  · exact heq
  · have := yearStart_le_of_le (show y + 1 ≤ yearOf n by omega); omega

theorem monthOf_bounds (leap : Bool) {k : Nat} (h : k < if leap then 366 else 365) :
    1 ≤ monthOf leap k ∧ monthOf leap k ≤ 12 ∧ monthStart leap (monthOf leap k) ≤ k ∧
      k < monthStart leap (monthOf leap k + 1) := by
  revert k
  cases leap <;> decide +kernel

theorem monthStart_succ (y : Int) {m : Nat} (h₁ : 1 ≤ m) (h₂ : m ≤ 12) :
    monthStart (isLeapYear y) (m + 1) = monthStart (isLeapYear y) m + daysInMonth y m := by
  simp only [daysInMonth]
  generalize isLeapYear y = leap
  have : ∀ m : Fin 13, 1 ≤ m.val → monthStart leap (m + 1) = monthStart leap m +
      if m.val = 2 then if leap = true then 29 else 28
      else if m.val = 4 ∨ m.val = 6 ∨ m.val = 9 ∨ m.val = 11 then 30
      else if 1 ≤ m.val ∧ m.val ≤ 12 then 31 else 0 := by cases leap <;> decide
  exact this ⟨m, by omega⟩ h₁

end Timetable.Calendar
