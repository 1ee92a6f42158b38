import Timetable.Proofs.Calendar.Stamp
import Timetable.Proofs.Duration.Evaluate
import Timetable.Proofs.Duration.WellFormed
import Timetable.Proofs.Zone.Meaning

/-! From an instant that is read, no duration that is read leads out of the calendar's range. -/

namespace Timetable

open Calendar

namespace Calendar

theorem monthFirst_add_le (i : Int) (n : Nat) : monthFirst (i + n) ≤ monthFirst i + 31 * n := by
  induction n with
  | zero => simp
  | succ n ih =>
    have hlength : monthLength (i + n) ≤ 31 := daysInMonth_le _ _
    rw [Int.natCast_succ, ← Int.add_assoc, monthFirst_succ]
    omega

namespace Date

variable {d e : Date} {n : Nat}

theorem number_addMonths_le (d : Date) (n : Nat) : (d.addMonths n).number ≤ d.number + 31 * n := by
  have hday : (d.addMonths n).civil.day ≤ d.civil.day := by
    rw [day_addMonths]
    exact Nat.min_le_left _ _
  have hfirst := monthFirst_add_le d.monthIndex n
  rw [number_eq_monthFirst, monthIndex_addMonths, number_eq_monthFirst d]
  omega

theorem number_le_of_addMonths? (h : d.addMonths? n = some e) : e.number ≤ d.number + 31 * n := by
  rw [(eq_addMonths_of_addMonths?_eq_some h).1]
  exact d.number_addMonths_le n

theorem number_of_addDays? (h : d.addDays? n = some e) : e.number = d.number + n := by
  rw [(eq_addDays_of_addDays?_eq_some h).1]
  rfl

end Date

namespace Period

variable {p : Period} {d e : Date} {n : Nat}

theorem begins_succ_le (p : Period) (i : Int) : p.begins (i + 1) ≤ p.begins i + 372 := by
  cases p with
  | day => simp only [begins]; omega
  | week => simp only [begins]; omega
  | month =>
    have hle : monthFirst (i + 1) ≤ monthFirst i + 31 := monthFirst_add_le i 1
    simp only [begins]
    omega
  | quarter =>
    have hle : monthFirst (3 * i + 3) ≤ monthFirst (3 * i) + 93 := monthFirst_add_le (3 * i) 3
    rw [begins, begins, Int.mul_add, Int.mul_one]
    omega
  | year =>
    have hle : monthFirst (12 * i + 12) ≤ monthFirst (12 * i) + 372 := monthFirst_add_le (12 * i) 12
    rw [begins, begins, Int.mul_add, Int.mul_one]
    omega

theorem le_first_add (p : Period) (hd : d.InRange) : d.number ≤ (p.first d).number + 372 := by
  by_cases h : p.BeginsInRange d
  · have hnext := p.lt_begins_index_succ d
    have hlength := p.begins_succ_le (p.index d)
    rw [number_first hd h]
    omega
  · rw [first_of_not_beginsInRange hd h]
    omega

theorem last_le_add (p : Period) (hd : d.InRange) : (p.last d).number ≤ d.number + 372 := by
  by_cases h : p.EndsInRange d
  · have hbegins := p.begins_index_le d
    have hlength := p.begins_succ_le (p.index d)
    rw [number_last hd h]
    omega
  · rw [last_of_not_endsInRange hd h]
    omega

theorem number_le_of_advance? (h : p.advance? d n = some e) : e.number ≤ d.number + 372 * n := by
  cases p with
  | day =>
    rw [Date.number_of_addDays? h]
    omega
  | week =>
    have hnumber := Date.number_of_addDays? (n := 7 * n) h
    omega
  | month =>
    have hle := Date.number_le_of_addMonths? h
    omega
  | quarter =>
    have hle := Date.number_le_of_addMonths? (n := 3 * n) h
    omega
  | year =>
    have hle := Date.number_le_of_addMonths? (n := 12 * n) h
    omega

end Period

namespace Reading

variable {c : Clock} {r r' : Reading c} {n : Nat}

theorem second_onDate (r : Reading c) (d : Date) :
    (r.onDate d).second = r.second + 86400 * (d.number - r.date.number) := by
  simp only [onDate, date, dateOf, secondOfDay, dayStart, secondsPerDay]
  omega

theorem second_le_of_addMonths? (h : r.addMonths? n = some r') :
    r.second ≤ r'.second ∧ r'.second ≤ r.second + 86400 * (31 * n) := by
  obtain ⟨d, hd, rfl⟩ := Option.map_eq_some_iff.1 h
  have hlo := Date.le_of_addMonths? (by omega) hd
  have hhi := Date.number_le_of_addMonths? hd
  rw [second_onDate]
  omega

theorem second_le_getD_addSeconds? (r : Reading c) (n : Nat) :
    r.second ≤ ((r.addSeconds? n).getD r).second ∧
      ((r.addSeconds? n).getD r).second ≤ r.second + n := by
  cases h : r.addSeconds? n with
  | none =>
    rw [Option.getD_none]
    omega
  | some r' =>
    obtain ⟨-, rfl⟩ := addSeconds?_eq_some_iff.1 h
    rw [Option.getD_some, second_addSeconds, if_neg (by omega)]
    omega

end Reading

end Calendar

theorem CalendarShift.second_le_of_addTo? {s : CalendarShift} {w w' : WallTime}
    (h : s.addTo? w = some w') : w.second ≤ w'.second ∧
      w'.second ≤ w.second + 86400 * (31 * (12 * s.years + s.months) + s.days) := by
  obtain ⟨w₁, h₁, h⟩ := Option.bind_eq_some_iff.1 h
  obtain ⟨w₂, h₂, h⟩ := Option.bind_eq_some_iff.1 h
  have hyears := Reading.second_le_of_addMonths? (n := 12 * s.years) h₁
  have hmonths := Reading.second_le_of_addMonths? h₂
  have hdays := Reading.second_of_addDays? h
  omega

namespace Duration

variable {d : Duration} {z : Zone} {t : Instant} {w : WallTime}

theorem Sound.amountBesideAnchor_le (hd : d.Sound) (u : TimeUnit) :
    d.amountBesideAnchor u ≤ maxAmount :=
  Nat.le_trans (d.amountBesideAnchor_le_amount u) (hd.amount_le u)

theorem Sound.anchorOffset_le (hd : d.Sound) : d.anchorOffset.toNat ≤ maxAmount := by
  rw [anchorOffset]
  cases d.reference.unit? with
  | none => exact Nat.zero_le _
  | some u => exact hd.amount_le u

theorem Sound.timeSeconds_le (hd : d.Sound) : d.timeSeconds ≤ 366100000 := by
  have hhours := hd.amount_le .hours
  have hminutes := hd.amount_le .minutes
  have hseconds := hd.amount_le .seconds
  simp only [timeSeconds, amount, maxAmount] at *
  omega

/-- Up to 100000 years of 372 days, 100000 months of 31, 100000 weeks and 100000 days. -/
theorem Sound.second_shift_le (hd : d.Sound) (w : WallTime) :
    w.second ≤ (d.shift w).second ∧ (d.shift w).second ≤ w.second + 86400 * 41100000 := by
  rw [shift]
  cases h : d.calendarShift.addTo? w with
  | none =>
    rw [Option.getD_none]
    omega
  | some w' =>
    have hle := CalendarShift.second_le_of_addTo? h
    have hyears := hd.amountBesideAnchor_le .years
    have hmonths := hd.amountBesideAnchor_le .months
    have hweeks := hd.amountBesideAnchor_le .weeks
    have hdays := hd.amountBesideAnchor_le .days
    simp only [calendarShift, maxAmount] at *
    rw [Option.getD_some]
    omega

theorem Sound.second_reached_le (hd : d.Sound) (w : WallTime) :
    w.second ≤ (d.reached w).second ∧ (d.reached w).second ≤ w.second + 86400 * 41110000 := by
  have hshift := hd.second_shift_le w
  have hadded := Reading.second_le_getD_addSeconds? (d.shift w) d.timeSeconds
  have htime := hd.timeSeconds_le
  rw [reached]
  omega

theorem Sound.number_anchoredDate_le (hd : d.Sound) (p : Period) (w : WallTime) :
    w.date.number ≤ (d.anchoredDate p w).number ∧
      (d.anchoredDate p w).number ≤ w.date.number + 78400000 := by
  obtain ⟨hlo, hhi⟩ := hd.second_reached_le w
  have hoffset := hd.anchorOffset_le
  have hreached : w.date.number ≤ (d.reached w).date.number ∧
      (d.reached w).date.number ≤ w.date.number + 41110000 := by
    simp only [Reading.date, dateOf, secondsPerDay]
    omega
  simp only [anchoredDate]
  cases h : d.advance? p (d.reached w).date with
  | none =>
    rw [Option.getD_none]
    omega
  | some e =>
    have hle := Period.le_of_advance? h
    have hadvance := Period.number_le_of_advance? h
    rw [maxAmount] at hoffset
    rw [Option.getD_some]
    omega

theorem Sound.wellInside_wallEnd (hd : d.Sound) (hw : w.InRange)
    (hlo : -800000 ≤ w.date.number) (hhi : w.date.number ≤ 3000000) : (d.wallEnd w).WellInside := by
  simp only [Reading.WellInside, earliestSecond, latestSecond, dayStart, Date.earliest, Date.latest,
    secondsPerDay]
  rw [wallEnd]
  cases d.reference.period? with
  | none =>
    have hshift := hd.second_shift_le w
    simp only [Reading.date, dateOf, secondsPerDay] at *
    omega
  | some p =>
    have hdate := hd.number_anchoredDate_le p w
    have hin := d.inRange_anchoredDate p hw
    have hfirst := p.le_first_add hin
    have hfirst' := p.first_le hin
    have hlast := p.last_le_add hin
    have hlast' := p.le_last (d.anchoredDate p w)
    simp only [boundary]
    split
    · simp only [Reading.ofDate, Reading.ofSecond, dayStart, secondsPerDay]
      omega
    · simp only [Reading.endOfDate, dayStart, secondsPerDay]
      omega

end Duration

namespace Calendar.Reading.InWrittenYears

variable {z : Zone} {t : Instant} {d : Duration}

theorem number_wallAt (ht : t.InWrittenYears) (hz : z.InOrder) :
    -800000 ≤ (z.wallAt t).date.number ∧ (z.wallAt t).date.number ≤ 3000000 := by
  obtain ⟨hlo, hhi⟩ := ht
  have hsize := hz.natAbs_offsetAt_lt t.second
  simp only [Reading.date, dateOf, Zone.wallAt, secondsPerDay]
  omega

theorem inRange_wallAt (ht : t.InWrittenYears) (hz : z.InOrder) : (z.wallAt t).InRange := by
  have hnumber := ht.number_wallAt hz
  simp only [Reading.InRange, Date.InRange, Date.earliest, Date.latest]
  omega

theorem staysInRange (ht : t.InWrittenYears) (hz : z.InOrder) (hd : d.Sound) : d.StaysInRange z t := by
  have hw := ht.inRange_wallAt hz
  obtain ⟨hlo, hhi⟩ := ht.number_wallAt hz
  exact ⟨hw, fun _ => hz.inRange_resolve (hd.wellInside_wallEnd hw hlo hhi)⟩

end Calendar.Reading.InWrittenYears

end Timetable
