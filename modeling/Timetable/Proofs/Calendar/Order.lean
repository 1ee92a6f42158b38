import Timetable.Calendar.Reading

namespace Timetable.Calendar

theorem Civil.valid_first (y : Int) {m : Nat} (h₁ : 1 ≤ m) (h₂ : m ≤ 12) : Civil.Valid ⟨y, m, 1⟩ := by
  refine ⟨h₁, h₂, Nat.le_refl _, ?_⟩
  simp only [daysInMonth]
  split
  · split <;> omega
  · split
    · omega
    · split <;> omega

theorem Civil.valid_lastDay (y : Int) : Civil.Valid ⟨y, 12, 31⟩ := by
  refine ⟨?_, ?_, ?_, ?_⟩ <;> simp [daysInMonth]

theorem Civil.toDate_le_lastOfMonth {c : Civil} (h : c.Valid) :
    c.toDate.number ≤ c.toDate.lastOfMonth.number := by
  have := h.2.2
  rw [lastOfMonth_toDate h]
  simp only [toDate]
  omega

theorem Civil.number_first (y : Int) : (Civil.toDate ⟨y, 1, 1⟩).number = yearStart y := by
  simp [toDate, monthStart]

namespace Date
variable {d e : Date}

theorem year_lt_iff {y : Int} : d.civil.year < y ↔ d.number < yearStart y := by
  have h₁ := d.yearStart_le_number
  have h₂ := d.number_lt_yearStart_succ
  constructor
  · intro h
    have := yearStart_le_of_le (y := d.civil.year + 1) (z := y) (by omega)
    omega
  · intro h
    by_cases hy : d.civil.year < y
    · exact hy
    · have := yearStart_le_of_le (y := y) (z := d.civil.year) (by omega)
      omega

theorem year_le_of_le (h : d.number ≤ e.number) : d.civil.year ≤ e.civil.year := by
  have he : e.civil.year < e.civil.year + 1 := by omega
  have hd := year_lt_iff (d := d).2 (Int.lt_of_le_of_lt h (year_lt_iff.1 he))
  omega

theorem number_lt_monthStart_succ (d : Date) :
    d.number < yearStart d.civil.year + monthStart (isLeapYear d.civil.year) (d.civil.month + 1) := by
  obtain ⟨h₁, h₂, h₃, h₄⟩ := d.civil_valid
  have hs := monthStart_succ d.civil.year h₁ h₂
  rw [number_eq]
  omega

theorem monthStart_le_number (d : Date) :
    yearStart d.civil.year + monthStart (isLeapYear d.civil.year) d.civil.month ≤ d.number := by
  have h := d.civil_valid.2.2.1
  rw [d.number_eq]
  omega

theorem month_lt_of_number_lt {m : Nat}
    (h : d.number < (Civil.toDate ⟨d.civil.year, m, 1⟩).number) : d.civil.month < m := by
  by_cases hlt : d.civil.month < m
  · exact hlt
  · have h₁ := monthStart_le_of_le (isLeapYear d.civil.year) (show m ≤ d.civil.month by omega)
      (by have := d.civil_valid.2.1; omega)
    have h₂ := d.monthStart_le_number
    simp only [Civil.toDate] at h
    omega

theorem month_le_of_le (h : d.number ≤ e.number) (hy : e.civil.year = d.civil.year) :
    d.civil.month ≤ e.civil.month := by
  by_cases hle : d.civil.month ≤ e.civil.month
  · exact hle
  · have hs := monthStart_le_of_le (isLeapYear d.civil.year)
      (show e.civil.month + 1 ≤ d.civil.month by omega) (by have := d.civil_valid.2.1; omega)
    have h₁ := d.monthStart_le_number
    have h₂ := e.number_lt_monthStart_succ
    rw [hy] at h₂
    omega

theorem lt_month_of_lastOfMonth_lt {m : Nat} (hv : Civil.Valid ⟨d.civil.year, m, 1⟩)
    (h : (Civil.toDate ⟨d.civil.year, m, 1⟩).lastOfMonth.number < d.number) : m < d.civil.month := by
  by_cases hlt : m < d.civil.month
  · exact hlt
  · have hs := monthStart_le_of_le (isLeapYear d.civil.year)
      (show d.civil.month + 1 ≤ m + 1 by omega) (by have := hv.2.1; simp only at this; omega)
    have hd := d.number_lt_monthStart_succ
    have hm := monthStart_succ d.civil.year hv.1 hv.2.1
    have hp := hv.2.2.2
    rw [Civil.lastOfMonth_toDate hv] at h
    simp only [Civil.toDate] at h hm hp
    omega

theorem monthStart_thirteen (y : Int) :
    yearStart y + monthStart (isLeapYear y) 13 = yearStart (y + 1) := by
  rw [yearStart_succ]
  cases isLeapYear y <;> rfl

theorem number_lastOfMonth_december (y : Int) (hv : Civil.Valid ⟨y, 12, 1⟩) :
    (Civil.toDate ⟨y, 12, 1⟩).lastOfMonth.number = yearStart (y + 1) - 1 := by
  have hm : monthStart (isLeapYear y) 13 = monthStart (isLeapYear y) 12 + daysInMonth y 12 :=
    monthStart_succ y (by decide) (by decide)
  have hd := hv.2.2.2
  rw [Civil.lastOfMonth_toDate hv, ← monthStart_thirteen]
  simp only [Civil.toDate] at *
  omega

theorem number_lastDay (y : Int) : (Civil.toDate ⟨y, 12, 31⟩).number = yearStart (y + 1) - 1 := by
  rw [← monthStart_thirteen]
  simp only [Civil.toDate]
  cases isLeapYear y <;> simp [monthStart] <;> omega

end Date

section
variable {t v : Int} {d : Date}

theorem dateOf_le_of_le (h : t ≤ v) : (dateOf t).number ≤ (dateOf v).number := by
  simp only [dateOf, secondsPerDay]
  omega

theorem dateOf_lt_of_lt_secondAt (h : v < secondAt d 0 0 0) : (dateOf v).number < d.number := by
  simp only [secondAt, dateOf, dayStart, secondsPerDay] at *
  omega

theorem lt_dateOf_of_secondAt_lt (h : secondAt d 23 59 59 < v) : d.number < (dateOf v).number := by
  simp only [secondAt, dateOf, dayStart, secondsPerDay] at *
  omega

theorem dateOf_eq_iff : dateOf v = dateOf t ↔ v / 86400 = t / 86400 := by
  simp only [dateOf, Date.mk.injEq, secondsPerDay]

theorem dateOf_secondAt {h m s : Nat} (hh : h < 24) (hm : m < 60) (hs : s < 60) :
    dateOf (secondAt d h m s) = d := by
  obtain ⟨n⟩ := d
  simp only [dateOf, secondAt, dayStart, secondsPerDay, Date.mk.injEq]
  omega

theorem hourOf_secondAt {h m s : Nat} (hh : h < 24) (hm : m < 60) (hs : s < 60) :
    hourOf (secondAt d h m s) = h := by
  simp only [hourOf, secondAt, dayStart, secondsPerDay]
  omega

theorem minuteOf_secondAt {h m s : Nat} (hm : m < 60) (hs : s < 60) :
    minuteOf (secondAt d h m s) = m := by
  simp only [minuteOf, secondAt, dayStart, secondsPerDay]
  omega

theorem secondOf_secondAt {h m s : Nat} (hs : s < 60) : secondOf (secondAt d h m s) = s := by
  simp only [secondOf, secondAt, dayStart, secondsPerDay]
  omega

theorem number_le_of_le_latestSecond (h : v ≤ latestSecond) :
    (dateOf v).number ≤ Date.latest.number := by
  simp only [latestSecond, dateOf, dayStart, secondsPerDay] at *
  omega

theorem le_number_of_earliestSecond_le (h : earliestSecond ≤ v) :
    Date.earliest.number ≤ (dateOf v).number := by
  simp only [earliestSecond, dateOf, dayStart, secondsPerDay] at *
  omega

theorem inRange_dateOf (h₁ : earliestSecond ≤ t) (h₂ : t ≤ latestSecond) : (dateOf t).InRange :=
  ⟨le_number_of_earliestSecond_le h₁, number_le_of_le_latestSecond h₂⟩

theorem hourOf_of_lt_secondAt {h : Nat} (hh : h ≤ 24) (ht : t ≤ v)
    (hv : v < secondAt (dateOf t) h 0 0) :
    dateOf v = dateOf t ∧ hourOf t ≤ hourOf v ∧ hourOf v < h := by
  rw [dateOf_eq_iff]
  simp only [secondAt, dateOf, hourOf, dayStart, secondsPerDay] at *
  omega

theorem minuteOf_of_lt_secondAt {m : Nat} (hm : m ≤ 60) (ht : t ≤ v)
    (hv : v < secondAt (dateOf t) (hourOf t) m 0) :
    dateOf v = dateOf t ∧ hourOf v = hourOf t ∧ minuteOf t ≤ minuteOf v ∧ minuteOf v < m := by
  rw [dateOf_eq_iff]
  simp only [secondAt, dateOf, hourOf, minuteOf, dayStart, secondsPerDay] at *
  omega

theorem secondOf_of_lt_secondAt {s : Nat} (hs : s ≤ 60) (ht : t ≤ v)
    (hv : v < secondAt (dateOf t) (hourOf t) (minuteOf t) s) :
    dateOf v = dateOf t ∧ hourOf v = hourOf t ∧ minuteOf v = minuteOf t ∧ secondOf t ≤ secondOf v ∧
      secondOf v < s := by
  rw [dateOf_eq_iff]
  simp only [secondAt, dateOf, hourOf, minuteOf, secondOf, dayStart, secondsPerDay] at *
  omega

theorem hourOf_of_secondAt_lt {h : Nat} (ht : v ≤ t) (hv : secondAt (dateOf t) h 59 59 < v) :
    dateOf v = dateOf t ∧ h < hourOf v ∧ hourOf v ≤ hourOf t := by
  rw [dateOf_eq_iff]
  simp only [secondAt, dateOf, hourOf, dayStart, secondsPerDay] at *
  omega

theorem minuteOf_of_secondAt_lt {m : Nat} (ht : v ≤ t)
    (hv : secondAt (dateOf t) (hourOf t) m 59 < v) :
    dateOf v = dateOf t ∧ hourOf v = hourOf t ∧ m < minuteOf v ∧ minuteOf v ≤ minuteOf t := by
  rw [dateOf_eq_iff]
  simp only [secondAt, dateOf, hourOf, minuteOf, dayStart, secondsPerDay] at *
  omega

theorem secondOf_of_secondAt_lt {s : Nat} (ht : v ≤ t)
    (hv : secondAt (dateOf t) (hourOf t) (minuteOf t) s < v) :
    dateOf v = dateOf t ∧ hourOf v = hourOf t ∧ minuteOf v = minuteOf t ∧ s < secondOf v ∧
      secondOf v ≤ secondOf t := by
  rw [dateOf_eq_iff]
  simp only [secondAt, dateOf, hourOf, minuteOf, secondOf, dayStart, secondsPerDay] at *
  omega

end

end Timetable.Calendar
