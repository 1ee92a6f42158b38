import Timetable.Calendar.Year

/-! Dates as day numbers. An operation that can leave the range of the calendar answers `none` when it does.
-/

namespace Timetable.Calendar

structure Date where
  number : Int
deriving DecidableEq, Repr

structure Civil where
  year : Int
  month : Nat
  day : Nat
deriving DecidableEq, Repr

def Civil.Valid (c : Civil) : Prop :=
  1 ≤ c.month ∧ c.month ≤ 12 ∧ 1 ≤ c.day ∧ c.day ≤ daysInMonth c.year c.month

instance (c : Civil) : Decidable c.Valid := inferInstanceAs (Decidable (_ ∧ _))

def Civil.toDate (c : Civil) : Date :=
  ⟨yearStart c.year + monthStart (isLeapYear c.year) c.month + (c.day - 1)⟩

namespace Date

def civil (d : Date) : Civil :=
  let y := yearOf d.number
  let k := (d.number - yearStart y).toNat
  let m := monthOf (isLeapYear y) k
  ⟨y, m, k - monthStart (isLeapYear y) m + 1⟩

def year (d : Date) : Int := d.civil.year
def month (d : Date) : Nat := d.civil.month

def day (d : Date) : Nat := d.civil.day

/-- 1 January -262143. -/
def earliest : Date := ⟨-96465292⟩

/-- 31 December 262142. -/
def latest : Date := ⟨95026236⟩

def InRange (d : Date) : Prop := earliest.number ≤ d.number ∧ d.number ≤ latest.number

instance (d : Date) : Decidable d.InRange := inferInstanceAs (Decidable (_ ∧ _))

def inRange? (d : Date) : Option Date := if d.InRange then some d else none

def ofCivil? (c : Civil) : Option Date := if c.Valid then c.toDate.inRange? else none

def addDays (d : Date) (n : Int) : Date := ⟨d.number + n⟩

def addDays? (d : Date) (n : Int) : Option Date := (d.addDays n).inRange?

/-- The same day of the month that lies `n` months later, or its last day if it is shorter. -/
def addMonths (d : Date) (n : Int) : Date :=
  let c := d.civil
  let i := 12 * c.year + (c.month - 1) + n
  let y := i / 12
  let m := (i % 12).toNat + 1
  Civil.toDate ⟨y, m, min c.day (daysInMonth y m)⟩

def addMonths? (d : Date) (n : Int) : Option Date := (d.addMonths n).inRange?

def daysFromMonday (d : Date) : Nat := ((d.number + 3) % 7).toNat

def daysFromSunday (d : Date) : Nat := ((d.number + 4) % 7).toNat

def isoWeek (d : Date) : Nat :=
  let thursday := d.number - d.daysFromMonday + 3
  ((thursday - yearStart (yearOf thursday)) / 7).toNat + 1

def lastOfMonth (d : Date) : Date :=
  let c := d.civil
  d.addDays (daysInMonth c.year c.month - c.day)

theorem civil_valid (d : Date) : d.civil.Valid := by
  have h₁ := yearStart_yearOf_le d.number
  have h₂ := lt_yearStart_yearOf_succ d.number
  rw [yearStart_succ] at h₂
  obtain ⟨hm₁, hm₂, hs, hl⟩ := monthOf_bounds (isLeapYear (yearOf d.number))
    (k := (d.number - yearStart (yearOf d.number)).toNat) (by split at h₂ <;> simp_all <;> omega)
  rw [monthStart_succ _ hm₁ hm₂] at hl
  refine ⟨hm₁, hm₂, ?_, ?_⟩ <;> simp only [civil] <;> omega

theorem toDate_civil (d : Date) : d.civil.toDate = d := by
  have h₁ := yearStart_yearOf_le d.number
  have h₂ := lt_yearStart_yearOf_succ d.number
  rw [yearStart_succ] at h₂
  obtain ⟨hm₁, hm₂, hs, hl⟩ := monthOf_bounds (isLeapYear (yearOf d.number))
    (k := (d.number - yearStart (yearOf d.number)).toNat) (by split at h₂ <;> simp_all <;> omega)
  obtain ⟨n⟩ := d
  simp only [Civil.toDate, civil, mk.injEq] at *
  omega

theorem eq_toDate_of_ofCivil?_eq_some {c : Civil} {d : Date} (h : ofCivil? c = some d) :
    d = c.toDate ∧ c.Valid ∧ d.InRange := by
  simp only [ofCivil?, inRange?] at h
  split at h
  · split at h <;> simp_all
  · simp at h

theorem eq_addDays_of_addDays?_eq_some {d e : Date} {n : Int} (h : d.addDays? n = some e) :
    e = d.addDays n ∧ e.InRange := by
  simp only [addDays?, inRange?] at h
  split at h <;> simp_all

theorem number_eq (d : Date) :
    d.number = yearStart d.civil.year + monthStart (isLeapYear d.civil.year) d.civil.month +
      (d.civil.day - 1) := by
  conv => lhs; rw [← toDate_civil d]
  rfl

theorem number_lt_yearStart_succ (d : Date) : d.number < yearStart (d.civil.year + 1) :=
  lt_yearStart_yearOf_succ d.number

theorem yearStart_le_number (d : Date) : yearStart d.civil.year ≤ d.number :=
  yearStart_yearOf_le d.number

end Date

theorem monthStart_add_daysInMonth_le (y : Int) {m : Nat} (h₁ : 1 ≤ m) (h₂ : m ≤ 12) :
    monthStart (isLeapYear y) m + daysInMonth y m ≤ if isLeapYear y then 366 else 365 := by
  rw [← monthStart_succ y h₁ h₂]
  generalize isLeapYear y = leap
  have : ∀ m : Fin 13, monthStart leap (m + 1) ≤ if leap then 366 else 365 := by
    cases leap <;> decide
  exact this ⟨m, by omega⟩

theorem monthStart_le_of_le (leap : Bool) {m m' : Nat} (h : m ≤ m') (h' : m' ≤ 13) :
    monthStart leap m ≤ monthStart leap m' := by
  have : ∀ m' : Fin 14, ∀ m : Fin 14, m ≤ m' → monthStart leap m ≤ monthStart leap m' := by
    cases leap <;> decide +kernel
  exact this ⟨m', by omega⟩ ⟨m, by omega⟩ h

theorem Civil.civil_toDate {c : Civil} (h : c.Valid) : c.toDate.civil = c := by
  obtain ⟨hm₁, hm₂, hd₁, hd₂⟩ := h
  have hle := monthStart_add_daysInMonth_le c.year hm₁ hm₂
  have hy : yearOf c.toDate.number = c.year := by
    apply yearOf_eq_of_bounds
    · simp only [toDate]; omega
    · rw [yearStart_succ]; simp only [toDate]; split at hle <;> simp_all <;> omega
  have hk : (c.toDate.number - yearStart c.year).toNat =
      monthStart (isLeapYear c.year) c.month + (c.day - 1) := by
    simp only [toDate]; omega
  obtain ⟨g₁, g₂, g₃, g₄⟩ := monthOf_bounds (isLeapYear c.year)
    (k := monthStart (isLeapYear c.year) c.month + (c.day - 1)) (by omega)
  have hm : monthOf (isLeapYear c.year) (monthStart (isLeapYear c.year) c.month + (c.day - 1)) =
      c.month := by
    have hs := monthStart_succ c.year hm₁ hm₂
    rcases Nat.lt_trichotomy (monthOf (isLeapYear c.year)
      (monthStart (isLeapYear c.year) c.month + (c.day - 1))) c.month with hlt | heq | hgt
    · have := monthStart_le_of_le (isLeapYear c.year) (show _ + 1 ≤ c.month from hlt) (by omega)
      omega
    · exact heq
    · have := monthStart_le_of_le (isLeapYear c.year) (show c.month + 1 ≤ _ from hgt) (by omega)
      omega
  obtain ⟨y, m, k⟩ := c
  simp only [Date.civil, hy, hk, hm, mk.injEq, true_and] at *
  omega

namespace Civil

theorem yearStart_le_toDate {c : Civil} (h : c.Valid) : yearStart c.year ≤ c.toDate.number := by
  have := h.2.2.1
  simp only [toDate]; omega

theorem toDate_lt_yearStart_succ {c : Civil} (h : c.Valid) :
    c.toDate.number < yearStart (c.year + 1) := by
  have h₁ := monthStart_add_daysInMonth_le c.year h.1 h.2.1
  have h₂ := h.2.2
  rw [yearStart_succ]
  simp only [toDate]
  split at h₁ <;> simp_all <;> omega

theorem lastOfMonth_toDate {c : Civil} (h : c.Valid) :
    c.toDate.lastOfMonth = toDate { c with day := daysInMonth c.year c.month } := by
  have := h.2.2
  rw [Date.lastOfMonth, civil_toDate h]
  simp only [Date.addDays, toDate, Date.mk.injEq]
  omega

theorem lastOfMonth_lt_yearStart_succ {c : Civil} (h : c.Valid) :
    c.toDate.lastOfMonth.number < yearStart (c.year + 1) := by
  rw [lastOfMonth_toDate h]
  have := h.2.2
  exact toDate_lt_yearStart_succ (c := { c with day := daysInMonth c.year c.month })
    ⟨h.1, h.2.1, by simp only; omega, Nat.le_refl _⟩

end Civil

namespace Date

theorem number_lt_of_month_lt (d : Date) {m : Nat} (h : d.civil.month + 1 ≤ m) (hm : m ≤ 12) :
    d.number < (Civil.toDate ⟨d.civil.year, m, 1⟩).number := by
  obtain ⟨h₁, h₂, h₃, h₄⟩ := d.civil_valid
  have hs := monthStart_succ d.civil.year h₁ h₂
  have hl := monthStart_le_of_le (isLeapYear d.civil.year) h (by omega)
  rw [number_eq]
  simp only [Civil.toDate]
  omega

theorem lastOfMonth_lt_of_month_lt (d : Date) {m : Nat} (hv : Civil.Valid ⟨d.civil.year, m, 1⟩)
    (h : m < d.civil.month) :
    (Civil.toDate ⟨d.civil.year, m, 1⟩).lastOfMonth.number < d.number := by
  obtain ⟨h₁, h₂, h₃, h₄⟩ := d.civil_valid
  have hs := monthStart_succ d.civil.year hv.1 hv.2.1
  have hl := monthStart_le_of_le (isLeapYear d.civil.year) (m := m + 1) h (by omega)
  have hd := hv.2.2
  rw [Civil.lastOfMonth_toDate hv, number_eq d]
  simp only [Civil.toDate] at *
  omega

end Date

end Timetable.Calendar
