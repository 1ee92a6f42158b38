import Timetable.Calendar.Reading
import Timetable.Proofs.Calendar.Months

/-! The calendar repeats itself after 400 years, which are 146097 days and a whole number of weeks. -/

namespace Timetable.Calendar

def daysPerCycle : Int := 146097

def secondsPerCycle : Int := daysPerCycle * secondsPerDay

@[simp] theorem isLeapYear_add_cycles (y k : Int) : isLeapYear (y + 400 * k) = isLeapYear y := by
  have h₁ : (y + 400 * k) % 4 = y % 4 := by omega
  have h₂ : (y + 400 * k) % 100 = y % 100 := by omega
  have h₃ : (y + 400 * k) % 400 = y % 400 := by omega
  rw [isLeapYear, isLeapYear, h₁, h₂, h₃]

@[simp] theorem daysInMonth_add_cycles (y k : Int) (m : Nat) :
    daysInMonth (y + 400 * k) m = daysInMonth y m := by
  rw [daysInMonth, isLeapYear_add_cycles, daysInMonth]

theorem yearStart_add_cycles (y k : Int) :
    yearStart (y + 400 * k) = yearStart y + daysPerCycle * k := by
  simp only [yearStart, daysPerCycle]
  omega

theorem yearOf_add_cycles (n k : Int) : yearOf (n + daysPerCycle * k) = yearOf n + 400 * k := by
  have h₁ := yearStart_yearOf_le n
  have h₂ := lt_yearStart_yearOf_succ n
  have hsucc : yearOf n + 400 * k + 1 = yearOf n + 1 + 400 * k := by omega
  apply yearOf_eq_of_bounds
  · rw [yearStart_add_cycles]
    omega
  · rw [hsucc, yearStart_add_cycles]
    omega

namespace Date

variable (d : Date) (k : Int)

def addCycles (d : Date) (k : Int) : Date := d.addDays (daysPerCycle * k)

theorem number_addCycles : (d.addCycles k).number = d.number + daysPerCycle * k := rfl

theorem civil_addCycles : (d.addCycles k).civil = { d.civil with year := d.civil.year + 400 * k } := by
  have hday : d.number + daysPerCycle * k - (yearStart (yearOf d.number) + daysPerCycle * k) =
      d.number - yearStart (yearOf d.number) := by omega
  simp only [civil, number_addCycles, yearOf_add_cycles, yearStart_add_cycles, hday,
    isLeapYear_add_cycles]

@[simp] theorem month_addCycles : (d.addCycles k).month = d.month := by
  rw [month, civil_addCycles, month]

@[simp] theorem day_addCycles : (d.addCycles k).day = d.day := by
  rw [day, civil_addCycles, day]

@[simp] theorem daysFromSunday_addCycles : (d.addCycles k).daysFromSunday = d.daysFromSunday := by
  simp only [daysFromSunday, number_addCycles, daysPerCycle]
  omega

@[simp] theorem daysFromMonday_addCycles : (d.addCycles k).daysFromMonday = d.daysFromMonday := by
  simp only [daysFromMonday, number_addCycles, daysPerCycle]
  omega

@[simp] theorem isoWeek_addCycles : (d.addCycles k).isoWeek = d.isoWeek := by
  have hthursday : d.number + daysPerCycle * k - d.daysFromMonday + 3 =
      d.number - d.daysFromMonday + 3 + daysPerCycle * k := by omega
  simp only [isoWeek, daysFromMonday_addCycles, number_addCycles, hthursday, yearOf_add_cycles,
    yearStart_add_cycles]
  omega

theorem lastOfMonth_addCycles : (d.addCycles k).lastOfMonth = d.lastOfMonth.addCycles k := by
  rw [lastOfMonth, civil_addCycles]
  simp only [daysInMonth_add_cycles, lastOfMonth, addCycles, addDays, mk.injEq]
  omega

theorem addCycles_inj {d e : Date} : d.addCycles k = e.addCycles k ↔ d = e := by
  obtain ⟨m⟩ := d
  obtain ⟨n⟩ := e
  simp only [addCycles, addDays, mk.injEq]
  omega

theorem addMonths_cycles : d.addMonths (12 * (400 * k)) = d.addCycles k := by
  obtain ⟨hm₁, hm₂, hd₁, hd₂⟩ := d.civil_valid
  rw [← toDate_civil (d.addCycles k), civil_addCycles, addMonths]
  have hyear : (12 * d.civil.year + (d.civil.month - 1) + 12 * (400 * k)) / 12 =
      d.civil.year + 400 * k := by omega
  have hmonth : ((12 * d.civil.year + (d.civil.month - 1) + 12 * (400 * k)) % 12).toNat + 1 =
      d.civil.month := by omega
  simp only [hyear, hmonth, daysInMonth_add_cycles, Nat.min_eq_left hd₂]

end Date

section
variable (t k : Int)

theorem dateOf_add_cycles : dateOf (t + secondsPerCycle * k) = (dateOf t).addCycles k := by
  simp only [dateOf, Date.addCycles, Date.addDays, secondsPerCycle, daysPerCycle, secondsPerDay,
    Date.mk.injEq]
  omega

@[simp] theorem hourOf_add_cycles : hourOf (t + secondsPerCycle * k) = hourOf t := by
  simp only [hourOf, secondsPerCycle, daysPerCycle, secondsPerDay]
  omega

@[simp] theorem minuteOf_add_cycles : minuteOf (t + secondsPerCycle * k) = minuteOf t := by
  simp only [minuteOf, secondsPerCycle, daysPerCycle, secondsPerDay]
  omega

@[simp] theorem secondOf_add_cycles : secondOf (t + secondsPerCycle * k) = secondOf t := by
  simp only [secondOf, secondsPerCycle, daysPerCycle, secondsPerDay]
  omega

theorem exists_add_cycles_between (a : Int) :
    ∃ k, a < t + secondsPerCycle * k ∧ t + secondsPerCycle * k ≤ a + secondsPerCycle := by
  refine ⟨-((t - a - 1) / secondsPerCycle), ?_⟩
  simp only [secondsPerCycle, daysPerCycle, secondsPerDay]
  omega

end

end Timetable.Calendar
