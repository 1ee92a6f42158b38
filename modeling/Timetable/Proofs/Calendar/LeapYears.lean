import Timetable.Proofs.Calendar.Tiling
import Timetable.Proofs.Search.Horizon

namespace Timetable.Calendar

theorem daysInMonth_le_of_leap {y z : Int} (hz : isLeapYear z = true) (m : Nat) :
    daysInMonth y m ≤ daysInMonth z m := by
  simp only [daysInMonth, hz, if_true]
  repeat' split
  all_goals omega

theorem exists_leapYear_between (y : Int) : (∃ z, y < z ∧ z < y + 8 ∧ isLeapYear z = true) ∨
    (isLeapYear y = true ∧ isLeapYear (y + 8) = true) := by
  simp only [isLeapYear, Bool.or_eq_true, Bool.and_eq_true, beq_iff_eq, bne_iff_ne]
  -- the next year that 4 divides, and the one after it if that is the end of a century
  by_cases hcentury : (y - y % 4 + 4) % 100 = 0 ∧ (y - y % 4 + 4) % 400 ≠ 0
  · by_cases hy : y % 4 = 0
    · right
      omega
    · exact .inl ⟨y - y % 4 + 8, by omega, by omega, by omega⟩
  · exact .inl ⟨y - y % 4 + 4, by omega, by omega, by omega⟩

namespace Date

variable {d : Date} {y k : Int}

def inYear (d : Date) (y : Int) : Date := Civil.toDate { d.civil with year := y }

theorem civil_inYear (hy : isLeapYear y = true) :
    (d.inYear y).civil = { d.civil with year := y } := by
  obtain ⟨hm, hm', hday, hlast⟩ := d.civil_valid
  exact Civil.civil_toDate ⟨hm, hm', hday, Nat.le_trans hlast (daysInMonth_le_of_leap hy _)⟩

theorem number_inYear (hd : isLeapYear d.civil.year = true) (hy : isLeapYear y = true) :
    (d.inYear y).number = d.number + (yearStart y - yearStart d.civil.year) := by
  have hn := d.number_eq
  rw [hd] at hn
  simp only [inYear, Civil.toDate, hy]
  omega

theorem eq_lastOfMonth_iff_day :
    d = d.lastOfMonth ↔ d.civil.day = daysInMonth d.civil.year d.civil.month := by
  obtain ⟨n⟩ := d
  simp only [lastOfMonth, addDays, mk.injEq]
  omega

theorem lastOfMonth_inYear (hd : isLeapYear d.civil.year = true) (hy : isLeapYear y = true)
    (h : d = d.lastOfMonth) : d.inYear y = (d.inYear y).lastOfMonth := by
  rw [eq_lastOfMonth_iff_day] at h ⊢
  rw [civil_inYear hy]
  simp only [h]
  exact Nat.le_antisymm (daysInMonth_le_of_leap hy _) (daysInMonth_le_of_leap hd _)

theorem inRange_of_year_eq (h : d.civil.year = 2000) : d.InRange := by
  have hlo := d.yearStart_le_number
  have hhi := d.number_lt_yearStart_succ
  rw [h] at hlo hhi
  simp only [InRange, earliest, latest, yearStart] at *
  omega

theorem bounds_addMonths_years (d : Date) (k : Int) :
    yearStart (d.civil.year + k) ≤ (d.addMonths (12 * k)).number ∧
      (d.addMonths (12 * k)).number < yearStart (d.civil.year + k + 1) := by
  have hyear : (d.addMonths (12 * k)).civil.year = d.civil.year + k := by
    obtain ⟨hm, hm', -, -⟩ := d.civil_valid
    rw [civil_addMonths, monthIndex]
    simp only
    omega
  rw [← hyear]
  exact ⟨yearStart_le_number _, number_lt_yearStart_succ _⟩

theorem number_addMonths_leap (hd : isLeapYear d.civil.year = true)
    (hk : isLeapYear (d.civil.year + k) = true) : (d.addMonths (12 * k)).number =
      d.number + (yearStart (d.civil.year + k) - yearStart d.civil.year) := by
  have hlast := Nat.le_trans d.civil_valid.2.2.2
    (daysInMonth_le_of_leap (y := d.civil.year) hk d.civil.month)
  rw [d.addMonths_years k, Nat.min_eq_left hlast, ← number_inYear hd hk, inYear]

theorem secondAt_inYear_bounds (hy : isLeapYear y = true) {h m s : Nat} (hh : h < 24) (hm : m < 60)
    (hs : s < 60) : dayStart (yearStart y) ≤ secondAt (d.inYear y) h m s ∧
      secondAt (d.inYear y) h m s < dayStart (yearStart (y + 1)) := by
  have hlo := (d.inYear y).yearStart_le_number
  have hhi := (d.inYear y).number_lt_yearStart_succ
  rw [civil_inYear hy] at hlo hhi
  simp only [secondAt, dayStart, secondsPerDay] at *
  omega

section
variable (hd : isLeapYear d.civil.year = true) {h m s : Nat} (hh : h < 24) (hm : m < 60) (hs : s < 60)
include hd hh hm hs

theorem exists_leapYear_ahead (t : Int) : ∃ y, isLeapYear y = true ∧
    t < secondAt (d.inYear y) h m s ∧ secondAt (d.inYear y) h m s ≤
      dayStart ((dateOf t).addMonths (12 * 8)).number + t % 86400 := by
  have hlo := (dateOf t).yearStart_le_number
  have hhi := (dateOf t).number_lt_yearStart_succ
  have hend := (dateOf t).bounds_addMonths_years 8
  rcases exists_leapYear_between (dateOf t).civil.year with ⟨z, hz, hz', hleap⟩ | ⟨hleap, hleap'⟩
  · have h₁ := yearStart_le_of_le (y := (dateOf t).civil.year + 1) (z := z) (by omega)
    have h₂ := yearStart_le_of_le (y := z + 1) (z := (dateOf t).civil.year + 8) (by omega)
    have hin := secondAt_inYear_bounds (d := d) hleap hh hm hs
    refine ⟨z, hleap, ?_, ?_⟩
    · simp only [dateOf, dayStart, secondsPerDay] at *
      omega
    · simp only [dateOf, dayStart, secondsPerDay] at *
      omega
  · have h₁ := yearStart_le_of_le (y := (dateOf t).civil.year + 1)
      (z := (dateOf t).civil.year + 8) (by omega)
    have hin := secondAt_inYear_bounds (d := d) hleap hh hm hs
    have hin' := secondAt_inYear_bounds (d := d) hleap' hh hm hs
    rcases Int.lt_or_le t (secondAt (d.inYear (dateOf t).civil.year) h m s) with hlt | hle
    · refine ⟨_, hleap, hlt, ?_⟩
      simp only [dateOf, dayStart, secondsPerDay] at *
      omega
    · -- what lies behind in this year comes up again after exactly eight years
      have hnumber := number_inYear hd hleap
      have hnumber' := number_inYear hd hleap'
      have hshift := number_addMonths_leap hleap hleap'
      refine ⟨_, hleap', ?_, ?_⟩
      · simp only [dateOf, dayStart, secondsPerDay] at *
        omega
      · simp only [secondAt, dateOf, dayStart, secondsPerDay] at *
        omega

theorem exists_leapYear_behind {t u : Int} (hu : t ≤ u) (hu' : u ≤ t + 1) :
    ∃ y, isLeapYear y = true ∧ secondAt (d.inYear y) h m s < u ∧
      dayStart ((dateOf t).addMonths (12 * -8)).number + t % 86400 + (u - t) ≤
        secondAt (d.inYear y) h m s := by
  have hlo := (dateOf t).yearStart_le_number
  have hhi := (dateOf t).number_lt_yearStart_succ
  have hend := (dateOf t).bounds_addMonths_years (-8)
  rcases exists_leapYear_between ((dateOf t).civil.year + -8) with ⟨z, hz, hz', hleap⟩ | ⟨hleap', hleap⟩
  · have h₁ := yearStart_le_of_le (y := (dateOf t).civil.year + -8 + 1) (z := z) (by omega)
    have h₂ := yearStart_le_of_le (y := z + 1) (z := (dateOf t).civil.year) (by omega)
    have hin := secondAt_inYear_bounds (d := d) hleap hh hm hs
    refine ⟨z, hleap, ?_, ?_⟩
    · simp only [dateOf, dayStart, secondsPerDay] at *
      omega
    · simp only [dateOf, dayStart, secondsPerDay] at *
      omega
  · rw [Int.neg_add_cancel_right] at hleap
    have h₁ := yearStart_le_of_le (y := (dateOf t).civil.year + -8 + 1)
      (z := (dateOf t).civil.year) (by omega)
    have hin := secondAt_inYear_bounds (d := d) hleap hh hm hs
    have hin' := secondAt_inYear_bounds (d := d) hleap' hh hm hs
    rcases Int.lt_or_le (secondAt (d.inYear (dateOf t).civil.year) h m s) u with hlt | hle
    · refine ⟨_, hleap, hlt, ?_⟩
      simp only [dateOf, dayStart, secondsPerDay] at *
      omega
    · have hnumber := number_inYear hd hleap
      have hnumber' := number_inYear hd hleap'
      have hshift := number_addMonths_leap hleap hleap'
      refine ⟨_, hleap', ?_, ?_⟩
      · simp only [dateOf, dayStart, secondsPerDay] at *
        omega
      · simp only [secondAt, dateOf, dayStart, secondsPerDay] at *
        omega

end

end Date

end Timetable.Calendar
