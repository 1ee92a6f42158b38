import Timetable.Calendar.Period
import Timetable.Proofs.Calendar.Months

namespace Timetable.Calendar

namespace Date

variable {d e : Date} {n : Int}

theorem le_of_addDays? (hn : 0 ≤ n) (h : d.addDays? n = some e) : d.number ≤ e.number := by
  rw [(eq_addDays_of_addDays?_eq_some h).1]
  simp only [addDays]
  omega

theorem eq_addMonths_of_addMonths?_eq_some (h : d.addMonths? n = some e) :
    e = d.addMonths n ∧ e.InRange := by
  rw [addMonths?, inRange?] at h
  split at h
  · next hr =>
    cases h
    exact ⟨rfl, hr⟩
  · cases h

theorem le_of_addMonths? (hn : 0 ≤ n) (h : d.addMonths? n = some e) : d.number ≤ e.number := by
  rw [(eq_addMonths_of_addMonths?_eq_some h).1]
  exact le_addMonths hn

end Date

namespace Period

variable {p : Period} {d e : Date}

theorem le_of_advance? {n : Nat} (h : p.advance? d n = some e) : d.number ≤ e.number := by
  cases p with
  | day => exact Date.le_of_addDays? (by omega) h
  | week => exact Date.le_of_addDays? (by omega) h
  | month => exact Date.le_of_addMonths? (by omega) h
  | quarter => exact Date.le_of_addMonths? (by omega) h
  | year => exact Date.le_of_addMonths? (by omega) h

theorem le_last (p : Period) (d : Date) : d.number ≤ (p.last d).number := by
  obtain ⟨hm₁, hm₂, hd₁, hd₂⟩ := d.civil_valid
  cases p with
  | day => exact Int.le_refl _
  | week =>
    simp only [last]
    cases h : d.addDays? (6 - d.daysFromMonday) with
    | none => exact Int.le_refl _
    | some e =>
      refine Date.le_of_addDays? ?_ h
      simp only [Date.daysFromMonday]
      omega
  | month =>
    simp only [last, Date.lastOfMonth, Date.addDays]
    omega
  | quarter =>
    have hq : d.civil.month ≤ quarterMonth d.civil.month + 2 ∧
        quarterMonth d.civil.month + 2 ≤ 12 := by
      simp only [quarterMonth]
      omega
    have hv := Civil.valid_first d.civil.year (m := quarterMonth d.civil.month + 2) (by omega) hq.2
    rw [← Int.not_lt]
    intro hlt
    have := Date.lt_month_of_lastOfMonth_lt hv hlt
    omega
  | year =>
    have hlast := Date.number_lastDay d.civil.year
    have hlt := d.number_lt_yearStart_succ
    simp only [last]
    omega

end Period

namespace Reading

variable {c : Clock} {r r' r'' : Reading c} {n : Int}

structure Onward (r r' : Reading c) : Prop where
  second_le : r.second ≤ r'.second
  nano_eq : r'.nano = r.nano

theorem Onward.refl (r : Reading c) : r.Onward r := ⟨Int.le_refl _, rfl⟩

theorem Onward.trans (h : r.Onward r') (h' : r'.Onward r'') : r.Onward r'' :=
  ⟨Int.le_trans h.second_le h'.second_le, h'.nano_eq.trans h.nano_eq⟩

theorem Onward.le (h : r.Onward r') : r ≤ r' := by
  have := h.second_le
  have := h.nano_eq
  rw [le_def]
  omega

theorem Onward.isLeap_eq (h : r.Onward r') : r'.isLeap = r.isLeap := by
  rw [isLeap, isLeap, h.nano_eq]

theorem Onward.date_le (h : r.Onward r') : r.date.number ≤ r'.date.number :=
  dateOf_le_of_le h.second_le

theorem onward_onDate {d : Date} (h : r.date.number ≤ d.number) : r.Onward (r.onDate d) := by
  refine ⟨?_, rfl⟩
  simp only [onDate, date, dateOf, secondOfDay, dayStart, secondsPerDay] at *
  omega

theorem second_of_addDays? (h : r.addDays? n = some r') : r'.second = r.second + 86400 * n := by
  obtain ⟨d, hd, rfl⟩ := Option.map_eq_some_iff.1 h
  rw [(Date.eq_addDays_of_addDays?_eq_some hd).1]
  simp only [onDate, Date.addDays, date, dateOf, secondOfDay, dayStart, secondsPerDay]
  omega

theorem onward_of_addDays? (hn : 0 ≤ n) (h : r.addDays? n = some r') : r.Onward r' := by
  obtain ⟨d, hd, rfl⟩ := Option.map_eq_some_iff.1 h
  exact onward_onDate (Date.le_of_addDays? hn hd)

theorem onward_of_addMonths? (hn : 0 ≤ n) (h : r.addMonths? n = some r') : r.Onward r' := by
  obtain ⟨d, hd, rfl⟩ := Option.map_eq_some_iff.1 h
  exact onward_onDate (Date.le_of_addMonths? hn hd)

theorem addSeconds_of_not_isLeap (hr : r.isLeap = false) (n : Int) :
    r.addSeconds n = ⟨r.second + n, r.nano, r.nano_lt⟩ := by
  rw [isLeap, decide_eq_false_iff_not, Nat.not_le] at hr
  rw [addSeconds, if_pos (.inr hr)]

@[simp] theorem addSeconds_zero (r : Reading c) : r.addSeconds 0 = r := by
  rw [addSeconds, if_pos (.inl rfl), Int.add_zero]

theorem second_addSeconds (r : Reading c) (n : Int) :
    (r.addSeconds n).second =
      if r.isLeap = true ∧ n < 0 then r.second + 1 + n else r.second + n := by
  simp only [addSeconds, isLeap, decide_eq_true_eq]
  split
  · rw [if_neg (by omega)]
  · split
    · rw [if_neg (by omega)]
    · rw [if_pos (by omega)]

theorem nano_addSeconds_le (r : Reading c) (n : Int) : (r.addSeconds n).nano ≤ r.nano := by
  simp only [addSeconds]
  split
  · exact Nat.le_refl _
  · split <;> exact Nat.sub_le _ _

theorem nano_addSeconds_eq_iff (r : Reading c) (n : Int) :
    (r.addSeconds n).nano = r.nano ↔ ¬ (r.isLeap = true ∧ n ≠ 0) := by
  have hN : nanosPerSecond = 1000000000 := rfl
  simp only [addSeconds, isLeap, decide_eq_true_eq]
  split
  · simp only [true_iff]
    omega
  · split
    · simp only
      omega
    · simp only
      omega

theorem addSeconds?_eq_some_iff {r r' : Reading c} {n : Int} :
    r.addSeconds? n = some r' ↔ (r.addSeconds n).InRange ∧ r.addSeconds n = r' :=
  inRange?_eq_some_iff

theorem addSeconds?_of_isSome {r : Reading c} {n : Int} (h : (r.addSeconds? n).isSome) :
    r.addSeconds? n = some (r.addSeconds n) ∧ (r.addSeconds n).InRange := by
  obtain ⟨r', hr⟩ := Option.isSome_iff_exists.1 h
  obtain ⟨hin, rfl⟩ := addSeconds?_eq_some_iff.1 hr
  exact ⟨hr, hin⟩

theorem onward_of_addSeconds? (hn : 0 ≤ n) (hr : r.isLeap = false) (h : r.addSeconds? n = some r') :
    r.Onward r' := by
  obtain ⟨-, rfl⟩ := inRange?_eq_some_iff.1 h
  rw [addSeconds_of_not_isLeap hr]
  exact ⟨Int.le_add_of_nonneg_right hn, rfl⟩

theorem le_endOfDate {d : Date} (hr : r.isLeap = false) (h : r.date.number ≤ d.number) :
    r ≤ endOfDate d := by
  rw [isLeap, decide_eq_false_iff_not, Nat.not_le, nanosPerSecond] at hr
  simp only [le_def, endOfDate, date, dateOf, dayStart, secondsPerDay, lastNano] at *
  omega

end Reading

end Timetable.Calendar
