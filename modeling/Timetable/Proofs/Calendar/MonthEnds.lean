import Timetable.Proofs.Calendar.Weekdays

namespace Timetable.Calendar

def datesOf (y : Int) (m : Nat) : Set Date := {d | d.year = y ∧ d.month = m}

theorem daysInMonth_eq_zero {y : Int} {m : Nat} (h : ¬ (1 ≤ m ∧ m ≤ 12)) : daysInMonth y m = 0 := by
  rw [daysInMonth, if_neg (by omega), if_neg (by omega), if_neg h]

section
variable {y : Int} {m : Nat} (h₁ : 1 ≤ m) (h₂ : m ≤ 12)
include h₁ h₂

theorem monthFirst_next :
    monthFirst (12 * y + (m - 1) + 1) = monthFirst (12 * y + (m - 1)) + daysInMonth y m := by
  have hy : (12 * y + ((m : Int) - 1)) / 12 = y := by omega
  have hm : ((12 * y + ((m : Int) - 1)) % 12).toNat + 1 = m := by omega
  rw [monthFirst_succ, monthLength, hy, hm]

theorem mem_datesOf_iff {d : Date} : d ∈ datesOf y m ↔ d.monthIndex = 12 * y + (m - 1) := by
  obtain ⟨hy, hm⟩ := d.monthIndex_bounds
  simp only [datesOf, Set.mem_ofPred_eq, Date.year, Date.month]
  omega

theorem datesOf_eq : datesOf y m = (fun k : Nat => Date.mk (monthFirst (12 * y + (m - 1)) + k)) ''
    (Finset.range (daysInMonth y m) : Set Nat) := by
  have hnext := monthFirst_next (y := y) h₁ h₂
  ext ⟨n⟩
  simp only [mem_datesOf_iff h₁ h₂, Set.mem_image, Finset.coe_range, Set.mem_Iio, Date.mk.injEq]
  constructor
  · intro h
    have hlo := Period.begins_index_le .month ⟨n⟩
    have hhi := Period.lt_begins_index_succ .month ⟨n⟩
    simp only [Period.begins, Period.index, h] at hlo hhi
    exact ⟨(n - monthFirst (12 * y + (m - 1))).toNat, by omega, by omega⟩
  · rintro ⟨k, hk, rfl⟩
    apply Period.index_eq_of_bounds (p := .month)
    · simp only [Period.begins]
      omega
    · simp only [Period.begins]
      omega

end

theorem encard_datesOf (y : Int) (m : Nat) : (datesOf y m).encard = daysInMonth y m := by
  by_cases h : 1 ≤ m ∧ m ≤ 12
  · have hinj : Function.Injective fun k : Nat => Date.mk (monthFirst (12 * y + (m - 1)) + k) := by
      intro i j hij
      rw [Date.mk.injEq] at hij
      omega
    rw [datesOf_eq h.1 h.2, hinj.encard_image, Set.encard_coe_eq_coe_finsetCard, Finset.card_range]
  · have hempty : datesOf y m = ∅ := by
      rw [Set.eq_empty_iff_forall_notMem]
      rintro d ⟨-, rfl⟩
      exact h ⟨d.civil_valid.1, d.civil_valid.2.1⟩
    rw [hempty, Set.encard_empty, daysInMonth_eq_zero h]
    rfl

namespace Date

variable {d e : Date}

def withDay? (d : Date) (k : Nat) : Option Date := ofCivil? { d.civil with day := k }

def nextMonth (d : Date) : Civil :=
  if d.month = 12 then ⟨d.year + 1, 1, 1⟩ else ⟨d.year, d.month + 1, 1⟩

structure EndsMonth (d e : Date) : Prop where
  sameMonth : d.SameMonth e
  le : d.number ≤ e.number
  next : ∃ f, e.addDays? 1 = some f ∧ f.civil = d.nextMonth

theorem withDay?_eq_some_iff {k : Nat} :
    d.withDay? k = some e ↔ e.InRange ∧ d.SameMonth e ∧ e.day = k := by
  constructor
  · intro h
    obtain ⟨rfl, hvalid, hin⟩ := eq_toDate_of_ofCivil?_eq_some h
    rw [SameMonth, year, month, day, Civil.civil_toDate hvalid]
    exact ⟨hin, ⟨rfl, rfl⟩, rfl⟩
  · rintro ⟨hin, ⟨hy, hm⟩, rfl⟩
    have hcivil : { d.civil with day := e.day } = e.civil := by
      rw [Civil.mk.injEq]
      exact ⟨hy.symm, hm.symm, rfl⟩
    rw [withDay?, hcivil, ofCivil?, if_pos e.civil_valid, e.toDate_civil]
    exact inRange?_of_inRange hin

theorem sameMonth_lastOfMonth (d : Date) : d.SameMonth d.lastOfMonth := by
  rw [SameMonth, year, month, civil_lastOfMonth]
  exact ⟨rfl, rfl⟩

theorem withDay?_daysInMonth (hd : d.InRange) :
    d.withDay? (daysInMonth d.year d.month) = some d.lastOfMonth := by
  rw [withDay?_eq_some_iff]
  refine ⟨Period.inRange_last .month hd, d.sameMonth_lastOfMonth, ?_⟩
  rw [day, civil_lastOfMonth]
  rfl

theorem lastOfMonth_eq_of_sameMonth (h : d.SameMonth e) : e.lastOfMonth = d.lastOfMonth := by
  have hnumber : e.lastOfMonth.number = d.lastOfMonth.number := by
    rw [number_lastOfMonth, number_lastOfMonth, sameMonth_iff_monthIndex.1 h]
  exact congrArg Date.mk hnumber

theorem nextMonth_valid (d : Date) : d.nextMonth.Valid := by
  have hm : d.month ≤ 12 := d.civil_valid.2.1
  rw [nextMonth]
  split
  · exact Civil.valid_first _ (by decide) (by decide)
  · exact Civil.valid_first _ (by omega) (by omega)

theorem number_nextMonth (d : Date) : d.nextMonth.toDate.number = monthFirst (d.monthIndex + 1) := by
  have hm : d.month ≤ 12 := d.civil_valid.2.1
  have hindex : d.monthIndex = 12 * d.year + (d.month - 1) := rfl
  rw [nextMonth]
  split
  · rw [number_firstOfMonth (by decide) (by decide)]
    congr 1
    omega
  · rw [number_firstOfMonth (by omega) (by omega)]
    congr 1
    omega

theorem addDays_lastOfMonth (d : Date) : d.lastOfMonth.addDays 1 = d.nextMonth.toDate := by
  have hnumber : (d.lastOfMonth.addDays 1).number = d.nextMonth.toDate.number := by
    rw [number_nextMonth]
    simp only [addDays, number_lastOfMonth]
    omega
  exact congrArg Date.mk hnumber

theorem endsMonth_lastOfMonth (hd : d.InRange) (h : d.monthIndex < latest.monthIndex) :
    d.EndsMonth d.lastOfMonth := by
  have hle : d.number ≤ d.lastOfMonth.number := Period.le_last .month d
  have hnext : d.nextMonth.toDate.number ≤ latest.number := by
    have hmonth := monthFirst_le_of_le (show d.monthIndex + 1 ≤ latest.monthIndex from h)
    have hlatest := latest.number_eq_monthFirst
    have hday := latest.day_bounds.1
    rw [number_nextMonth]
    omega
  have hin : (d.lastOfMonth.addDays 1).InRange := by
    rw [← addDays_lastOfMonth] at hnext
    refine ⟨?_, hnext⟩
    have hearliest := hd.1
    simp only [addDays]
    omega
  refine ⟨d.sameMonth_lastOfMonth, hle, _, inRange?_of_inRange hin, ?_⟩
  rw [addDays_lastOfMonth, Civil.civil_toDate d.nextMonth_valid]

theorem number_le_latest_iff : d.number ≤ latest.number ↔ d.monthIndex ≤ latest.monthIndex := by
  have hlast : latest.civil.day = monthLength latest.monthIndex := by decide
  have hday := d.day_bounds.2
  rw [number_le_iff, hlast]
  constructor
  · rintro (hlt | ⟨heq, -⟩)
    · exact Int.le_of_lt hlt
    · exact Int.le_of_eq heq
  · intro hle
    rcases Int.lt_or_eq_of_le hle with hlt | heq
    · exact .inl hlt
    · rw [heq] at hday
      exact .inr ⟨heq, hday⟩

theorem exists_addMonths?_iff (hd : d.InRange) (n : Nat) :
    (∃ e, d.addMonths? n = some e) ↔ d.monthIndex + n ≤ latest.monthIndex := by
  have hle : d.number ≤ (d.addMonths n).number := le_addMonths (by omega)
  rw [← monthIndex_addMonths, ← number_le_latest_iff]
  constructor
  · rintro ⟨e, he⟩
    obtain ⟨rfl, hin⟩ := eq_addMonths_of_addMonths?_eq_some he
    exact hin.2
  · intro hlatest
    exact ⟨_, inRange?_of_inRange ⟨Int.le_trans hd.1 hle, hlatest⟩⟩

end Date

namespace Reading

variable {c : Clock} {r r' : Reading c} {n : Nat}

/-- `r'` shows the same time of day `n` months after `r`, on the same day or the last one that there is. -/
structure MonthsLater (r : Reading c) (n : Nat) (r' : Reading c) : Prop where
  monthIndex : r'.date.monthIndex = r.date.monthIndex + n
  secondOfDay : r'.secondOfDay = r.secondOfDay
  nano : r'.nano = r.nano
  day : r'.date.day = min r.date.day (daysInMonth r'.date.year r'.date.month)

theorem secondOfDay_onDate (r : Reading c) (d : Date) : (r.onDate d).secondOfDay = r.secondOfDay := by
  simp only [onDate, secondOfDay, dayStart, secondsPerDay]
  omega

theorem monthsLater_of_addMonths? (h : r.addMonths? n = some r') : r.MonthsLater n r' := by
  obtain ⟨e, he, rfl⟩ := Option.map_eq_some_iff.1 h
  obtain ⟨rfl, -⟩ := Date.eq_addMonths_of_addMonths?_eq_some he
  refine ⟨?_, r.secondOfDay_onDate _, rfl, ?_⟩
  · rw [date_onDate, Date.monthIndex_addMonths]
  · rw [date_onDate, Date.day, Date.year, Date.month, Date.civil_addMonths]
    rfl

theorem exists_addMonths?_iff (hr : r.InRange) (n : Nat) :
    (∃ r', r.addMonths? n = some r') ↔ r.date.monthIndex + n ≤ Date.latest.monthIndex := by
  rw [← Date.exists_addMonths?_iff hr n]
  constructor
  · rintro ⟨r', h⟩
    obtain ⟨e, he, -⟩ := Option.map_eq_some_iff.1 h
    exact ⟨e, he⟩
  · rintro ⟨e, he⟩
    exact ⟨r.onDate e, by rw [addMonths?, he, Option.map_some]⟩

end Reading

/-- The table of months agrees with the calendar, and so do the last day of a month and the adding of
months, which go by the table. -/
theorem months_agree :
    (∀ y m, (datesOf y m).encard = daysInMonth y m) ∧
      (∀ d : Date, d.InRange → d.monthIndex < Date.latest.monthIndex →
        d.withDay? (daysInMonth d.year d.month) = some d.lastOfMonth ∧
          d.EndsMonth d.lastOfMonth ∧ ∀ e, d.SameMonth e → e.lastOfMonth = d.lastOfMonth) ∧
      ∀ (w : WallTime) (n : Nat), w.InRange →
        ((∃ w', w.addMonths? n = some w') ↔ w.date.monthIndex + n ≤ Date.latest.monthIndex) ∧
          ∀ w', w.addMonths? n = some w' → w.MonthsLater n w' := by
  refine ⟨encard_datesOf, fun d hd h => ?_, fun w n hw => ?_⟩
  · exact ⟨Date.withDay?_daysInMonth hd, Date.endsMonth_lastOfMonth hd h,
      fun e he => Date.lastOfMonth_eq_of_sameMonth he⟩
  · exact ⟨Reading.exists_addMonths?_iff hw n, fun w' hw' => Reading.monthsLater_of_addMonths? hw'⟩

def februaryOfCentury : Date := Civil.toDate ⟨-100, 2, 10⟩

def februaryOfFourth : Date := Civil.toDate ⟨-400, 2, 10⟩

def lastOf2016 : WallTime :=
  ⟨secondAt (Civil.toDate ⟨2016, 12, 31⟩) 23 59 59, 1600000000, by decide⟩

theorem months_agree_februaries :
    februaryOfCentury.InRange ∧ februaryOfCentury.monthIndex < Date.latest.monthIndex ∧
      februaryOfCentury.EndsMonth (Civil.toDate ⟨-100, 2, 28⟩) ∧
      februaryOfFourth.InRange ∧ februaryOfFourth.monthIndex < Date.latest.monthIndex ∧
      februaryOfFourth.EndsMonth (Civil.toDate ⟨-400, 2, 29⟩) ∧
      lastOf2016.InRange ∧ ∃ w, lastOf2016.addMonths? 2 = some w ∧ lastOf2016.MonthsLater 2 w := by
  obtain ⟨-, hends, hlater⟩ := months_agree
  have hcentury : februaryOfCentury.InRange := by decide +kernel
  have hfourth : februaryOfFourth.InRange := by decide +kernel
  have hlast : lastOf2016.InRange := by decide +kernel
  have hcentury' : februaryOfCentury.monthIndex < Date.latest.monthIndex := by decide +kernel
  have hfourth' : februaryOfFourth.monthIndex < Date.latest.monthIndex := by decide +kernel
  have hend : februaryOfCentury.lastOfMonth = Civil.toDate ⟨-100, 2, 28⟩ := by decide +kernel
  have hend' : februaryOfFourth.lastOfMonth = Civil.toDate ⟨-400, 2, 29⟩ := by decide +kernel
  have hadd := hlater lastOf2016 2 hlast
  obtain ⟨w, hw⟩ := hadd.1.2 (by decide +kernel)
  refine ⟨hcentury, hcentury', ?_, hfourth, hfourth', ?_, hlast, w, hw, hadd.2 w hw⟩
  · rw [← hend]
    exact (hends _ hcentury hcentury').2.1
  · rw [← hend']
    exact (hends _ hfourth hfourth').2.1

end Timetable.Calendar
