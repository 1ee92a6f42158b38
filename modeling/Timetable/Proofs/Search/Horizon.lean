import Timetable.Proofs.Calendar.Advance
import Timetable.Search.Occurrence

namespace Timetable

open Calendar

namespace Calendar

theorem yearStart_add_bounds (y : Int) {k : Int} (hk : 0 ≤ k) :
    yearStart y + 365 * k ≤ yearStart (y + k) ∧ yearStart (y + k) ≤ yearStart y + 366 * k := by
  simp only [yearStart]
  omega

theorem monthStart_le_succ (leap leap' : Bool) {m : Nat} (h : m ≤ 12) :
    monthStart leap m ≤ monthStart leap' m + 1 := by
  have : ∀ m : Fin 13, monthStart leap m ≤ monthStart leap' m + 1 := by
    cases leap <;> cases leap' <;> decide
  exact this ⟨m, by omega⟩

theorem daysInMonth_le (y : Int) (m : Nat) : daysInMonth y m ≤ 31 := by
  simp only [daysInMonth]
  repeat' split
  all_goals omega

theorem Date.addMonths_years (d : Date) (k : Int) :
    d.addMonths (12 * k) = Civil.toDate ⟨d.civil.year + k, d.civil.month,
      min d.civil.day (daysInMonth (d.civil.year + k) d.civil.month)⟩ := by
  obtain ⟨h₁, h₂, -, -⟩ := d.civil_valid
  have hy : (12 * d.civil.year + (d.civil.month - 1) + 12 * k) / 12 = d.civil.year + k := by omega
  have hm : ((12 * d.civil.year + (d.civil.month - 1) + 12 * k) % 12).toNat + 1 =
      d.civil.month := by
    omega
  simp only [addMonths, hy, hm]

theorem Date.number_addMonths_years (d : Date) (k : Int) :
    d.number - 32 ≤ (d.addMonths (12 * k)).number +
        (yearStart d.civil.year - yearStart (d.civil.year + k)) ∧
      (d.addMonths (12 * k)).number + (yearStart d.civil.year - yearStart (d.civil.year + k)) ≤
        d.number + 32 := by
  obtain ⟨h₁, h₂, h₃, h₄⟩ := d.civil_valid
  have hd := daysInMonth_le d.civil.year d.civil.month
  have hs := monthStart_le_succ (isLeapYear d.civil.year) (isLeapYear (d.civil.year + k)) h₂
  have hs' := monthStart_le_succ (isLeapYear (d.civil.year + k)) (isLeapYear d.civil.year) h₂
  have hn := d.number_eq
  rw [d.addMonths_years k]
  simp only [Civil.toDate]
  omega

end Calendar

namespace WallTime

variable {w h : WallTime} {n : Nat}

theorem second_eq_date (w : WallTime) : w.second = dayStart w.date.number + w.secondOfDay := by
  simp only [Reading.date, dateOf, Reading.secondOfDay, dayStart, secondsPerDay]
  omega

theorem second_of_addMonths? {k : Int} (hw : w.addMonths? k = some h) :
    h.second = dayStart (w.date.addMonths k).number + w.secondOfDay ∧
      (w.date.addMonths k).InRange := by
  obtain ⟨d, hd, rfl⟩ := Option.map_eq_some_iff.1 hw
  obtain ⟨rfl, hr⟩ := Date.eq_addMonths_of_addMonths?_eq_some hd
  exact ⟨rfl, hr⟩

theorem bounds_of_addMonths?_years (hn : 1 ≤ n) (hn' : n ≤ 400)
    (hw : w.addMonths? (12 * n) = some h) :
    w.second + 300 * 86400 ≤ h.second ∧ h.second ≤ w.second + 401 * 366 * 86400 ∧
      h.second ≤ latestSecond := by
  obtain ⟨hs, hr⟩ := second_of_addMonths? hw
  have hb := w.date.number_addMonths_years n
  have hy := yearStart_add_bounds w.date.civil.year (k := n) (by omega)
  have ht := w.secondOfDay_lt
  have he := second_eq_date w
  have hl := hr.2
  simp only [dayStart, latestSecond, secondsPerDay] at *
  omega

theorem bounds_of_subMonths?_years (hn : 1 ≤ n) (hn' : n ≤ 400)
    (hw : w.addMonths? (-(12 * n)) = some h) :
    h.second + 300 * 86400 ≤ w.second ∧ earliestSecond ≤ h.second := by
  rw [← Int.mul_neg] at hw
  obtain ⟨hs, hr⟩ := second_of_addMonths? hw
  have hb := w.date.number_addMonths_years (-n)
  have hy := yearStart_add_bounds (w.date.civil.year + -n) (k := n) (by omega)
  rw [Int.add_assoc, Int.add_left_neg, Int.add_zero] at hy
  have ht := w.secondOfDay_lt
  have he := second_eq_date w
  have hl := hr.1
  simp only [dayStart, earliestSecond, secondsPerDay] at *
  omega

end WallTime

namespace Plan

variable {w : WallTime} {n : Nat}

theorem horizonAfter_bounds (hw : w.InRange) (hn : 1 ≤ n) (hn' : n ≤ 400) :
    (horizonAfter n w).second ≤ latestSecond ∧
      (horizonAfter n w).second ≤ w.second + 401 * 366 * 86400 := by
  rw [horizonAfter]
  cases hh : w.addMonths? (12 * n) with
  | some h => exact (WallTime.bounds_of_addMonths?_years hn hn' hh).2.symm
  | none =>
    have hout : ¬ (w.date.addMonths (12 * n)).InRange := by
      intro hin
      rw [Reading.addMonths?, Date.addMonths?, Date.inRange?, if_pos hin] at hh
      cases hh
    have hb := w.date.number_addMonths_years n
    have hy := yearStart_add_bounds w.date.civil.year (k := n) (by omega)
    have hlate : Date.latest.number < (w.date.addMonths (12 * n)).number := by
      rw [← Int.not_le]
      have := hw.1
      exact fun hle => hout ⟨by omega, hle⟩
    have he := WallTime.second_eq_date w
    simp only [Option.getD_none, Reading.latest, latestSecond, dayStart, secondsPerDay] at *
    omega

theorem second_horizonAfter_of_late (hn : 1 ≤ n) (hn' : n ≤ 400)
    (hw : latestSecond < w.second + 300 * 86400) : (horizonAfter n w).second = latestSecond := by
  rw [horizonAfter]
  cases hh : w.addMonths? (12 * n) with
  | none => rfl
  | some h =>
    have := WallTime.bounds_of_addMonths?_years hn hn' hh
    omega

theorem earliestSecond_le_horizonBefore (hn : 1 ≤ n) (hn' : n ≤ 400) :
    earliestSecond ≤ (horizonBefore n w).second := by
  rw [horizonBefore]
  cases hh : w.addMonths? (-(12 * n)) with
  | none => exact Int.le_refl _
  | some h => exact (WallTime.bounds_of_subMonths?_years hn hn' hh).2

theorem horizonBefore_of_early (hn : 1 ≤ n) (hn' : n ≤ 400)
    (hw : w.second < earliestSecond + 300 * 86400) : horizonBefore n w = .earliest := by
  rw [horizonBefore]
  cases hh : w.addMonths? (-(12 * n)) with
  | none => rfl
  | some h =>
    have := WallTime.bounds_of_subMonths?_years hn hn' hh
    omega

end Plan

end Timetable
