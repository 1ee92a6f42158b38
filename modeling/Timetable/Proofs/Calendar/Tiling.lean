import Timetable.Proofs.Calendar.Advance

/-! How periods tile the calendar. Only weeks can be cut off by the end of its range. -/

namespace Timetable.Calendar

namespace Date

variable {d : Date} {m n : Int}

theorem monthIndex_toDate {c : Civil} (h : c.Valid) :
    c.toDate.monthIndex = 12 * c.year + (c.month - 1) := by
  rw [monthIndex, Civil.civil_toDate h]

theorem number_firstOfMonth {y : Int} {m : Nat} (h₁ : 1 ≤ m) (h₂ : m ≤ 12) :
    (Civil.toDate ⟨y, m, 1⟩).number = monthFirst (12 * y + (m - 1)) := by
  have hv := Civil.valid_first y h₁ h₂
  rw [number_eq_monthFirst, monthIndex_toDate hv, Civil.civil_toDate hv]
  simp

theorem number_lastOfMonth (d : Date) : d.lastOfMonth.number = monthFirst (d.monthIndex + 1) - 1 := by
  obtain ⟨hy, hm⟩ := d.monthIndex_bounds
  have hd := d.number_eq_monthFirst
  rw [monthFirst_succ, monthLength, hy, hm]
  simp only [lastOfMonth, addDays]
  omega

theorem civil_lastOfMonth (d : Date) :
    d.lastOfMonth.civil = ⟨d.civil.year, d.civil.month, daysInMonth d.civil.year d.civil.month⟩ := by
  obtain ⟨hm₁, hm₂, hd₁, hd₂⟩ := d.civil_valid
  have hlast := Civil.lastOfMonth_toDate d.civil_valid
  rw [d.toDate_civil] at hlast
  rw [hlast]
  exact Civil.civil_toDate ⟨hm₁, hm₂, Nat.le_trans hd₁ hd₂, Nat.le_refl _⟩

theorem lastOfMonth_lastOfMonth (d : Date) : d.lastOfMonth.lastOfMonth = d.lastOfMonth := by
  rw [lastOfMonth, civil_lastOfMonth]
  simp [addDays]

theorem inRange?_of_inRange (h : d.InRange) : d.inRange? = some d := if_pos h

theorem getD_addDays?_zero (d : Date) : (d.addDays? 0).getD d = d := by
  cases h : d.addDays? 0 with
  | none => rfl
  | some e =>
    rw [Option.getD_some, (eq_addDays_of_addDays?_eq_some h).1, addDays, Int.add_zero]

theorem isSome_addDays?_of_le (hd : d.InRange) (hm : 0 ≤ m) (hmn : m ≤ n)
    (h : (d.addDays? n).isSome = true) : (d.addDays? m).isSome = true := by
  obtain ⟨e, he⟩ := Option.isSome_iff_exists.1 h
  obtain ⟨rfl, hin⟩ := eq_addDays_of_addDays?_eq_some he
  have hr : (d.addDays m).InRange := by
    simp only [InRange, addDays] at *
    omega
  rw [addDays?, inRange?_of_inRange hr]
  rfl

theorem addMonths_le_of_le (d : Date) (h : m ≤ n) : (d.addMonths m).number ≤ (d.addMonths n).number := by
  rcases Int.le_iff_lt_or_eq.1 h with hlt | rfl
  · exact Int.le_of_lt (d.addMonths_lt_addMonths hlt)
  · exact Int.le_refl _

theorem isSome_addMonths?_of_le (hd : d.InRange) (hm : 0 ≤ m) (hmn : m ≤ n)
    (h : (d.addMonths? n).isSome = true) : (d.addMonths? m).isSome = true := by
  obtain ⟨e, he⟩ := Option.isSome_iff_exists.1 h
  obtain ⟨rfl, hin⟩ := eq_addMonths_of_addMonths?_eq_some he
  have hlo := le_addMonths (d := d) hm
  have hhi := d.addMonths_le_of_le hmn
  have hr : (d.addMonths m).InRange := by
    simp only [InRange] at *
    omega
  rw [addMonths?, inRange?_of_inRange hr]
  rfl

theorem addMonths_zero (d : Date) : d.addMonths 0 = d := by
  obtain ⟨-, -, -, hday⟩ := d.civil_valid
  obtain ⟨hy, hm⟩ := d.monthIndex_bounds
  rw [monthIndex] at hy hm
  rw [addMonths]
  simp only [Int.add_zero, hy, hm, Nat.min_eq_left hday]
  exact d.toDate_civil

end Date

namespace Period

variable {p : Period} {d e : Date} {i j : Int} {n : Nat}

def index (p : Period) (d : Date) : Int :=
  match p with
  | day => d.number
  | week => (d.number + 3) / 7
  | month => d.monthIndex
  | quarter => d.monthIndex / 3
  | year => d.monthIndex / 12

def begins (p : Period) (i : Int) : Int :=
  match p with
  | day => i
  | week => 7 * i - 3
  | month => monthFirst i
  | quarter => monthFirst (3 * i)
  | year => monthFirst (12 * i)

/-- The period of a date is not cut off at its beginning. -/
def BeginsInRange (p : Period) (d : Date) : Prop := Date.earliest.number ≤ p.begins (p.index d)

def EndsInRange (p : Period) (d : Date) : Prop := p.begins (p.index d + 1) - 1 ≤ Date.latest.number

instance : Decidable (p.BeginsInRange d) := inferInstanceAs (Decidable (_ ≤ _))

instance : Decidable (p.EndsInRange d) := inferInstanceAs (Decidable (_ ≤ _))

theorem begins_lt_succ (p : Period) (i : Int) : p.begins i < p.begins (i + 1) := by
  cases p with
  | day => simp only [begins]; omega
  | week => simp only [begins]; omega
  | month => exact monthFirst_lt_of_lt (by omega)
  | quarter => exact monthFirst_lt_of_lt (by omega)
  | year => exact monthFirst_lt_of_lt (by omega)

theorem begins_add_le (p : Period) (i : Int) (n : Nat) : p.begins i + n ≤ p.begins (i + n) := by
  induction n with
  | zero => simp
  | succ n ih =>
    have hs := p.begins_lt_succ (i + n)
    rw [Int.natCast_succ, ← Int.add_assoc, ← Int.add_assoc]
    omega

theorem begins_le_of_le (h : i ≤ j) : p.begins i ≤ p.begins j := by
  obtain ⟨n, rfl⟩ : ∃ n : Nat, j = i + n := ⟨(j - i).toNat, by omega⟩
  have hle := p.begins_add_le i n
  omega

theorem begins_index_le (p : Period) (d : Date) : p.begins (p.index d) ≤ d.number := by
  have hd := d.number_eq_monthFirst
  have hday := d.day_bounds.1
  cases p with
  | day => exact Int.le_refl _
  | week => simp only [begins, index]; omega
  | month => simp only [begins, index]; omega
  | quarter =>
    have hle := monthFirst_le_of_le (show 3 * (d.monthIndex / 3) ≤ d.monthIndex by omega)
    simp only [begins, index]; omega
  | year =>
    have hle := monthFirst_le_of_le (show 12 * (d.monthIndex / 12) ≤ d.monthIndex by omega)
    simp only [begins, index]; omega

theorem lt_begins_index_succ (p : Period) (d : Date) : d.number < p.begins (p.index d + 1) := by
  have hd := d.number_eq_monthFirst
  have hday := d.day_bounds.2
  have hs := monthFirst_succ d.monthIndex
  cases p with
  | day => simp only [begins, index]; omega
  | week => simp only [begins, index]; omega
  | month => simp only [begins, index]; omega
  | quarter =>
    have hle := monthFirst_le_of_le
      (show d.monthIndex + 1 ≤ 3 * (d.monthIndex / 3 + 1) by omega)
    simp only [begins, index]; omega
  | year =>
    have hle := monthFirst_le_of_le
      (show d.monthIndex + 1 ≤ 12 * (d.monthIndex / 12 + 1) by omega)
    simp only [begins, index]; omega

theorem index_eq_of_bounds (h : p.begins i ≤ d.number) (h' : d.number < p.begins (i + 1)) :
    p.index d = i := by
  have h₁ := p.begins_index_le d
  have h₂ := p.lt_begins_index_succ d
  rcases Int.lt_trichotomy (p.index d) i with hlt | heq | hgt
  · have := begins_le_of_le (p := p) (show p.index d + 1 ≤ i from hlt)
    omega
  · exact heq
  · have := begins_le_of_le (p := p) (show i + 1 ≤ p.index d from hgt)
    omega

theorem index_le_of_le (h : d.number ≤ e.number) : p.index d ≤ p.index e := by
  have h₁ := p.begins_index_le d
  have h₂ := p.lt_begins_index_succ e
  rw [← Int.not_lt]
  intro hlt
  have := begins_le_of_le (p := p) (show p.index e + 1 ≤ p.index d from hlt)
  omega

theorem index_advance (h : p.advance? d n = some e) : p.index e = p.index d + n := by
  cases p with
  | day =>
    rw [(Date.eq_addDays_of_addDays?_eq_some h).1]
    rfl
  | week =>
    rw [(Date.eq_addDays_of_addDays?_eq_some h).1]
    simp only [index, Date.addDays]
    omega
  | month =>
    rw [(Date.eq_addMonths_of_addMonths?_eq_some h).1]
    simp only [index, Date.monthIndex_addMonths]
  | quarter =>
    rw [(Date.eq_addMonths_of_addMonths?_eq_some h).1]
    simp only [index, Date.monthIndex_addMonths]
    omega
  | year =>
    rw [(Date.eq_addMonths_of_addMonths?_eq_some h).1]
    simp only [index, Date.monthIndex_addMonths]
    omega

theorem inRange_of_advance? (h : p.advance? d n = some e) : e.InRange := by
  cases p with
  | day => exact (Date.eq_addDays_of_addDays?_eq_some h).2
  | week => exact (Date.eq_addDays_of_addDays?_eq_some h).2
  | month => exact (Date.eq_addMonths_of_addMonths?_eq_some h).2
  | quarter => exact (Date.eq_addMonths_of_addMonths?_eq_some h).2
  | year => exact (Date.eq_addMonths_of_addMonths?_eq_some h).2

theorem isSome_advance?_of_le {m : Nat} (hd : d.InRange) (hmn : m ≤ n)
    (h : (p.advance? d n).isSome = true) : (p.advance? d m).isSome = true := by
  cases p with
  | day => exact Date.isSome_addDays?_of_le hd (by omega) (by omega) h
  | week => exact Date.isSome_addDays?_of_le hd (by omega) (by omega) h
  | month => exact Date.isSome_addMonths?_of_le hd (by omega) (by omega) h
  | quarter => exact Date.isSome_addMonths?_of_le hd (by omega) (by omega) h
  | year => exact Date.isSome_addMonths?_of_le hd (by omega) (by omega) h

theorem number_add_le_of_advance? (h : p.advance? d n = some e) : d.number + n ≤ e.number := by
  cases n with
  | zero =>
    have hle := le_of_advance? h
    omega
  | succ n =>
    have hlt := p.lt_begins_index_succ d
    have hadd := p.begins_add_le (p.index d + 1) n
    have he := p.begins_index_le e
    have hindex : p.index e = p.index d + 1 + n := by
      rw [index_advance h]
      omega
    rw [hindex] at he
    omega

theorem eq_of_advance?_zero (h : p.advance? d 0 = some e) : e = d := by
  have hdays (n : Int) (hn : n = 0) (he : d.addDays? n = some e) : e = d := by
    subst hn
    rw [(Date.eq_addDays_of_addDays?_eq_some he).1, Date.addDays, Int.add_zero]
  have hmonths (n : Int) (hn : n = 0) (he : d.addMonths? n = some e) : e = d := by
    subst hn
    rw [(Date.eq_addMonths_of_addMonths?_eq_some he).1, Date.addMonths_zero]
  cases p with
  | day => exact hdays _ rfl h
  | week => exact hdays _ rfl h
  | month => exact hmonths _ rfl h
  | quarter => exact hmonths _ rfl h
  | year => exact hmonths _ rfl h

theorem beginsInRange_of_ne_week (hp : p ≠ week) (hd : d.InRange) : p.BeginsInRange d := by
  have hle := begins_le_of_le (p := p) (index_le_of_le (p := p) hd.1)
  have hearliest : Date.earliest.number ≤ p.begins (p.index Date.earliest) := by
    cases p with
    | week => exact absurd rfl hp
    | _ => decide +kernel
  exact Int.le_trans hearliest hle

theorem endsInRange_of_ne_week (hp : p ≠ week) (hd : d.InRange) : p.EndsInRange d := by
  have hle := begins_le_of_le (p := p)
    (Int.add_le_add_right (index_le_of_le (p := p) hd.2) 1)
  have hlatest : p.begins (p.index Date.latest + 1) - 1 ≤ Date.latest.number := by
    cases p with
    | week => exact absurd rfl hp
    | _ => decide +kernel
  rw [EndsInRange]
  omega

theorem number_first (hd : d.InRange) (h : p.BeginsInRange d) :
    (p.first d).number = p.begins (p.index d) := by
  obtain ⟨hm₁, hm₂, -, -⟩ := d.civil_valid
  have hle := p.begins_index_le d
  have hindex : d.monthIndex = 12 * d.civil.year + (d.civil.month - 1) := rfl
  cases p with
  | day => rfl
  | week =>
    simp only [BeginsInRange, begins, index] at h hle
    have hr : (d.addDays (-d.daysFromMonday)).InRange := by
      simp only [Date.InRange, Date.addDays, Date.daysFromMonday] at *
      omega
    rw [first, Date.addDays?, Date.inRange?_of_inRange hr, Option.getD_some]
    simp only [begins, index, Date.addDays, Date.daysFromMonday]
    omega
  | month =>
    simp only [first, begins, index]
    rw [Date.number_firstOfMonth hm₁ hm₂, hindex]
  | quarter =>
    have hq : 12 * d.civil.year + ((quarterMonth d.civil.month : Int) - 1) = 3 * (d.monthIndex / 3) := by
      simp only [quarterMonth]
      omega
    simp only [first, begins, index]
    rw [Date.number_firstOfMonth (by simp only [quarterMonth]; omega)
      (by simp only [quarterMonth]; omega), hq]
  | year =>
    have hy : 12 * d.civil.year + (((1 : Nat) : Int) - 1) = 12 * (d.monthIndex / 12) := by omega
    simp only [first, begins, index]
    rw [Date.number_firstOfMonth (by omega) (by omega), hy]

theorem number_last (hd : d.InRange) (h : p.EndsInRange d) :
    (p.last d).number = p.begins (p.index d + 1) - 1 := by
  obtain ⟨hm₁, hm₂, -, -⟩ := d.civil_valid
  have hlt := p.lt_begins_index_succ d
  have hindex : d.monthIndex = 12 * d.civil.year + (d.civil.month - 1) := rfl
  cases p with
  | day =>
    simp only [last, begins, index]
    omega
  | week =>
    simp only [EndsInRange, begins, index] at h hlt
    have hr : (d.addDays (6 - d.daysFromMonday)).InRange := by
      simp only [Date.InRange, Date.addDays, Date.daysFromMonday] at *
      omega
    rw [last, Date.addDays?, Date.inRange?_of_inRange hr, Option.getD_some]
    simp only [begins, index, Date.addDays, Date.daysFromMonday]
    omega
  | month => exact d.number_lastOfMonth
  | quarter =>
    have hv := Civil.valid_first d.civil.year (m := quarterMonth d.civil.month + 2)
      (by omega) (by simp only [quarterMonth]; omega)
    have hq : 12 * d.civil.year + (((quarterMonth d.civil.month + 2 : Nat) : Int) - 1) + 1 =
        3 * (d.monthIndex / 3 + 1) := by
      simp only [quarterMonth]
      omega
    simp only [last, begins, index]
    rw [Date.number_lastOfMonth, Date.monthIndex_toDate hv, hq]
  | year =>
    have hy : d.monthIndex / 12 + 1 = d.civil.year + 1 := by omega
    simp only [last, begins, index]
    rw [Date.number_lastDay, hy, monthFirst_january]

theorem first_of_not_beginsInRange (hd : d.InRange) (h : ¬ p.BeginsInRange d) : p.first d = d := by
  obtain rfl : p = week := Classical.not_not.1 fun hp => h (beginsInRange_of_ne_week hp hd)
  have hr : ¬ (d.addDays (-d.daysFromMonday)).InRange := by
    simp only [BeginsInRange, begins, index, Date.InRange, Date.addDays, Date.daysFromMonday] at *
    omega
  rw [first, Date.addDays?, Date.inRange?, if_neg hr, Option.getD_none]

theorem last_of_not_endsInRange (hd : d.InRange) (h : ¬ p.EndsInRange d) : p.last d = d := by
  obtain rfl : p = week := Classical.not_not.1 fun hp => h (endsInRange_of_ne_week hp hd)
  have hr : ¬ (d.addDays (6 - d.daysFromMonday)).InRange := by
    simp only [EndsInRange, begins, index, Date.InRange, Date.addDays, Date.daysFromMonday] at *
    omega
  rw [last, Date.addDays?, Date.inRange?, if_neg hr, Option.getD_none]

theorem first_le (p : Period) (hd : d.InRange) : (p.first d).number ≤ d.number := by
  by_cases h : p.BeginsInRange d
  · rw [number_first hd h]
    exact p.begins_index_le d
  · exact Int.le_of_eq (congrArg Date.number (first_of_not_beginsInRange hd h))

theorem inRange_first (p : Period) (hd : d.InRange) : (p.first d).InRange := by
  refine ⟨?_, Int.le_trans (p.first_le hd) hd.2⟩
  by_cases h : p.BeginsInRange d
  · rw [number_first hd h]
    exact h
  · rw [first_of_not_beginsInRange hd h]
    exact hd.1

theorem inRange_last (p : Period) (hd : d.InRange) : (p.last d).InRange := by
  refine ⟨Int.le_trans hd.1 (p.le_last d), ?_⟩
  by_cases h : p.EndsInRange d
  · rw [number_last hd h]
    exact h
  · rw [last_of_not_endsInRange hd h]
    exact hd.2

theorem first_eq_of_index_eq (hd : d.InRange) (he : e.InRange) (hb : p.BeginsInRange d)
    (h : p.index e = p.index d) : p.first e = p.first d := by
  have hb' : p.BeginsInRange e := by rwa [Period.BeginsInRange, h]
  have hnumber : (p.first e).number = (p.first d).number := by
    rw [Period.number_first he hb', Period.number_first hd hb, h]
  exact congrArg Date.mk hnumber

theorem last_eq_of_index_eq (hd : d.InRange) (he : e.InRange) (hb : p.EndsInRange d)
    (h : p.index e = p.index d) : p.last e = p.last d := by
  have hb' : p.EndsInRange e := by rwa [Period.EndsInRange, h]
  have hnumber : (p.last e).number = (p.last d).number := by
    rw [Period.number_last he hb', Period.number_last hd hb, h]
  exact congrArg Date.mk hnumber

theorem first_first (p : Period) (d : Date) : p.first (p.first d) = p.first d := by
  obtain ⟨hm₁, hm₂, -, -⟩ := d.civil_valid
  cases p with
  | day => rfl
  | week =>
    cases h : d.addDays? (-d.daysFromMonday) with
    | none => simp only [first, h, Option.getD_none]
    | some e =>
      have he := (Date.eq_addDays_of_addDays?_eq_some h).1
      have hmonday : e.daysFromMonday = 0 := by
        rw [he]
        simp only [Date.addDays, Date.daysFromMonday]
        omega
      simp only [first, h, Option.getD_some, hmonday]
      exact Date.getD_addDays?_zero e
  | month =>
    have hv := Civil.valid_first d.civil.year hm₁ hm₂
    simp only [first, Civil.civil_toDate hv]
  | quarter =>
    have hv := Civil.valid_first d.civil.year (m := quarterMonth d.civil.month)
      (by simp only [quarterMonth]; omega) (by simp only [quarterMonth]; omega)
    have hquarter : quarterMonth (quarterMonth d.civil.month) = quarterMonth d.civil.month := by
      simp only [quarterMonth]
      omega
    simp only [first, Civil.civil_toDate hv, hquarter]
  | year =>
    have hv := Civil.valid_first d.civil.year (m := 1) (by omega) (by omega)
    simp only [first, Civil.civil_toDate hv]

theorem last_last (p : Period) (d : Date) : p.last (p.last d) = p.last d := by
  obtain ⟨hm₁, hm₂, -, -⟩ := d.civil_valid
  cases p with
  | day => rfl
  | week =>
    cases h : d.addDays? (6 - d.daysFromMonday) with
    | none => simp only [last, h, Option.getD_none]
    | some e =>
      have he := (Date.eq_addDays_of_addDays?_eq_some h).1
      have hsunday : e.daysFromMonday = 6 := by
        rw [he]
        simp only [Date.addDays, Date.daysFromMonday]
        omega
      simp only [last, h, Option.getD_some, hsunday]
      exact Date.getD_addDays?_zero e
  | month => exact d.lastOfMonth_lastOfMonth
  | quarter =>
    have hv := Civil.valid_first d.civil.year (m := quarterMonth d.civil.month + 2)
      (by omega) (by simp only [quarterMonth]; omega)
    have hquarter : quarterMonth (quarterMonth d.civil.month + 2) = quarterMonth d.civil.month := by
      simp only [quarterMonth]
      omega
    simp only [last, Date.civil_lastOfMonth, Civil.civil_toDate hv, hquarter]
  | year =>
    simp only [last, Civil.civil_toDate (Civil.valid_lastDay d.civil.year)]

end Period

namespace Reading

variable {c : Clock} {r r' : Reading c} {d e : Date}

theorem date_onDate (r : Reading c) (d : Date) : (r.onDate d).date = d := by
  obtain ⟨n⟩ := d
  have hlt := r.secondOfDay_lt
  simp only [onDate, date, dateOf, dayStart, secondsPerDay, Date.mk.injEq]
  omega

theorem ofDate_le_iff : ofDate d 0 ≤ r ↔ d.number ≤ r.date.number := by
  simp only [le_def, ofDate, ofSecond, date, dateOf, dayStart, secondsPerDay]
  omega

theorem date_le_of_le_endOfDate (h : r ≤ endOfDate d) : r.date.number ≤ d.number := by
  simp only [le_def, endOfDate, date, dateOf, dayStart, secondsPerDay] at *
  omega

theorem ofDate_le_ofDate (h : d.number ≤ e.number) : (ofDate d 0 : Reading c) ≤ ofDate e 0 := by
  simp only [le_def, ofDate, ofSecond, dayStart, secondsPerDay]
  omega

theorem endOfDate_le_endOfDate (h : d.number ≤ e.number) : (endOfDate d : Reading c) ≤ endOfDate e := by
  simp only [le_def, endOfDate, dayStart, secondsPerDay]
  omega

@[simp] theorem date_ofDate (d : Date) : (ofDate d 0 : Reading c).date = d := by
  obtain ⟨n⟩ := d
  simp only [date, ofDate, ofSecond, dateOf, dayStart, secondsPerDay, Date.mk.injEq]
  omega

@[simp] theorem date_endOfDate (d : Date) : (endOfDate d : Reading c).date = d := by
  obtain ⟨n⟩ := d
  simp only [date, endOfDate, dateOf, dayStart, secondsPerDay, Date.mk.injEq]
  omega

theorem inRange_ofDate (h : d.InRange) : (ofDate d 0 : Reading c).InRange := by
  rwa [InRange, date_ofDate]

theorem inRange_endOfDate (h : d.InRange) : (endOfDate d : Reading c).InRange := by
  rwa [InRange, date_endOfDate]

theorem addNanos?_endOfDate (h : e.InRange) (hde : d.number + 1 = e.number) :
    (endOfDate d : Reading c).addNanos? 1 = some (ofDate e 0) := by
  have hnext : (endOfDate d : Reading c).addNanos 1 = ofDate e 0 := by
    have hnano : (endOfDate d : Reading c).nano < nanosPerSecond := (by decide : lastNano < nanosPerSecond)
    rw [addNanos, if_pos hnano, eq_iff]
    simp only [carry, endOfDate, ofDate, ofSecond, lastNano, dayStart, secondsPerDay]
    omega
  rw [addNanos?, hnext]
  exact inRange?_eq_some_iff.2 ⟨inRange_ofDate h, rfl⟩

end Reading

namespace Period

variable {p : Period} {c : Clock} {r r' : Reading c}

theorem index_eq_of_between (hr : r.InRange) (hb : p.BeginsInRange r.date) (he : p.EndsInRange r.date)
    (hlo : .ofDate (p.first r.date) 0 ≤ r') (hhi : r' ≤ .endOfDate (p.last r.date)) :
    r'.InRange ∧ p.index r'.date = p.index r.date := by
  have hfirst := Reading.ofDate_le_iff.1 hlo
  have hlast := Reading.date_le_of_le_endOfDate hhi
  refine ⟨⟨?_, ?_⟩, ?_⟩
  · exact Int.le_trans (p.inRange_first hr).1 hfirst
  · exact Int.le_trans hlast (p.inRange_last hr).2
  · rw [number_first hr hb] at hfirst
    rw [number_last hr he] at hlast
    exact index_eq_of_bounds hfirst (by omega)

end Period

end Timetable.Calendar
