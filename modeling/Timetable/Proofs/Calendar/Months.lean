import Timetable.Proofs.Calendar.Order

/-! Adding months keeps the order of dates, and going back never leads past the date where it began. -/

namespace Timetable.Calendar

def monthFirst (i : Int) : Int := yearStart (i / 12) + monthStart (isLeapYear (i / 12)) ((i % 12).toNat + 1)

def monthLength (i : Int) : Nat := daysInMonth (i / 12) ((i % 12).toNat + 1)

theorem monthFirst_succ (i : Int) : monthFirst (i + 1) = monthFirst i + monthLength i := by
  simp only [monthFirst, monthLength]
  by_cases h : (i + 1) % 12 = 0
  · -- the next month is a January
    have hy : (i + 1) / 12 = i / 12 + 1 := by omega
    have hm : (i % 12).toNat + 1 = 12 := by omega
    have hs : monthStart (isLeapYear (i / 12)) 13 = _ := monthStart_succ (i / 12) (by decide) (by decide)
    have hjanuary : monthStart (isLeapYear (i / 12 + 1)) ((0 : Int).toNat + 1) = 0 := by
      simp [monthStart]
    rw [hy, h, hm, hjanuary, ← Date.monthStart_thirteen]
    omega
  · have hy : (i + 1) / 12 = i / 12 := by omega
    have hm : ((i + 1) % 12).toNat + 1 = (i % 12).toNat + 1 + 1 := by omega
    rw [hy, hm, monthStart_succ (i / 12) (by omega) (by omega)]
    omega

theorem monthFirst_le_of_le {i j : Int} (h : i ≤ j) : monthFirst i ≤ monthFirst j := by
  obtain ⟨n, rfl⟩ : ∃ n : Nat, j = i + n := ⟨(j - i).toNat, by omega⟩
  clear h
  induction n with
  | zero => simp
  | succ n ih =>
    have hs := monthFirst_succ (i + n)
    rw [Int.natCast_succ, ← Int.add_assoc]
    omega

theorem monthLength_pos (i : Int) : 0 < monthLength i :=
  (Civil.valid_first (i / 12) (m := (i % 12).toNat + 1) (by omega) (by omega)).2.2.2

theorem monthFirst_lt_of_lt {i j : Int} (h : i < j) : monthFirst i < monthFirst j := by
  have hs := monthFirst_succ i
  have hpos := monthLength_pos i
  have hle := monthFirst_le_of_le (show i + 1 ≤ j from h)
  omega

theorem monthFirst_january (y : Int) : monthFirst (12 * y) = yearStart y := by
  have hy : 12 * y / 12 = y := by omega
  have hm : (12 * y % 12).toNat = 0 := by omega
  rw [monthFirst, hy, hm]
  simp [monthStart]

namespace Date

variable {d e : Date}

def monthIndex (d : Date) : Int := 12 * d.civil.year + (d.civil.month - 1)

theorem monthIndex_bounds (d : Date) : d.monthIndex / 12 = d.civil.year ∧
    (d.monthIndex % 12).toNat + 1 = d.civil.month := by
  obtain ⟨h₁, h₂, -, -⟩ := d.civil_valid
  simp only [monthIndex]
  omega

theorem number_eq_monthFirst (d : Date) :
    d.number = monthFirst d.monthIndex + (d.civil.day - 1) := by
  obtain ⟨hy, hm⟩ := d.monthIndex_bounds
  rw [monthFirst, hy, hm]
  exact d.number_eq

theorem day_bounds (d : Date) : 1 ≤ d.civil.day ∧ d.civil.day ≤ monthLength d.monthIndex := by
  obtain ⟨hy, hm⟩ := d.monthIndex_bounds
  rw [monthLength, hy, hm]
  exact d.civil_valid.2.2

theorem number_lt_iff : d.number < e.number ↔
    d.monthIndex < e.monthIndex ∨ (d.monthIndex = e.monthIndex ∧ d.civil.day < e.civil.day) := by
  have hd := d.number_eq_monthFirst
  have he := e.number_eq_monthFirst
  have hdd := d.day_bounds
  have hed := e.day_bounds
  rcases Int.lt_trichotomy d.monthIndex e.monthIndex with hlt | heq | hgt
  · have hs := monthFirst_succ d.monthIndex
    have hle := monthFirst_le_of_le (show d.monthIndex + 1 ≤ e.monthIndex from hlt)
    omega
  · rw [heq] at hd
    omega
  · have hs := monthFirst_succ e.monthIndex
    have hle := monthFirst_le_of_le (show e.monthIndex + 1 ≤ d.monthIndex from hgt)
    omega

theorem number_le_iff : d.number ≤ e.number ↔
    d.monthIndex < e.monthIndex ∨ (d.monthIndex = e.monthIndex ∧ d.civil.day ≤ e.civil.day) := by
  have h := number_lt_iff (d := e) (e := d)
  omega

theorem civil_addMonths (d : Date) (n : Int) :
    (d.addMonths n).civil = ⟨(d.monthIndex + n) / 12, ((d.monthIndex + n) % 12).toNat + 1,
      min d.civil.day (monthLength (d.monthIndex + n))⟩ := by
  have hday := d.civil_valid.2.2.1
  have hlength := (Civil.valid_first ((d.monthIndex + n) / 12)
    (m := ((d.monthIndex + n) % 12).toNat + 1) (by omega) (by omega)).2.2.2
  refine Civil.civil_toDate ⟨?_, ?_, ?_, ?_⟩
  · simp only; omega
  · simp only; omega
  · simp only [monthIndex] at hlength ⊢
    omega
  · exact Nat.min_le_right _ _

@[simp] theorem monthIndex_addMonths (d : Date) (n : Int) :
    (d.addMonths n).monthIndex = d.monthIndex + n := by
  rw [monthIndex, civil_addMonths]
  simp only
  omega

theorem day_addMonths (d : Date) (n : Int) :
    (d.addMonths n).civil.day = min d.civil.day (monthLength (d.monthIndex + n)) := by
  rw [civil_addMonths]

theorem addMonths_le_addMonths (h : d.number ≤ e.number) (n : Int) :
    (d.addMonths n).number ≤ (e.addMonths n).number := by
  rw [number_le_iff] at h ⊢
  rw [monthIndex_addMonths, monthIndex_addMonths, day_addMonths, day_addMonths]
  rcases h with hlt | ⟨heq, hle⟩
  · left
    omega
  · right
    rw [heq]
    omega

theorem addMonths_lt_addMonths (d : Date) {m n : Int} (h : m < n) :
    (d.addMonths m).number < (d.addMonths n).number := by
  rw [number_lt_iff, monthIndex_addMonths, monthIndex_addMonths]
  left
  omega

theorem le_addMonths {n : Int} (h : 0 ≤ n) : d.number ≤ (d.addMonths n).number := by
  rw [number_le_iff, monthIndex_addMonths, day_addMonths]
  rcases Int.le_iff_lt_or_eq.1 h with hlt | rfl
  · left
    omega
  · have hday := d.day_bounds
    rw [Int.add_zero]
    omega

theorem addMonths_addMonths_neg_le (d : Date) (n : Int) :
    ((d.addMonths n).addMonths (-n)).number ≤ d.number := by
  rw [number_le_iff, monthIndex_addMonths, monthIndex_addMonths, day_addMonths, day_addMonths]
  omega

theorem addMonths_lt_of_lt_addMonths {n : Int} (h : d.number < (e.addMonths n).number) :
    (d.addMonths (-n)).number < e.number := by
  rcases Int.lt_or_le (d.addMonths (-n)).number e.number with hlt | hle
  · exact hlt
  · have hmono := addMonths_le_addMonths hle n
    have hback := d.addMonths_addMonths_neg_le (-n)
    rw [Int.neg_neg] at hback
    omega

end Date

end Timetable.Calendar
