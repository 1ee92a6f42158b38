import Mathlib.Data.Set.Card
import Timetable.Proofs.Calendar.Tiling

namespace Timetable.Calendar.Date

variable {d e : Date}

def SameMonth (d e : Date) : Prop := e.year = d.year ∧ e.month = d.month

instance (d e : Date) : Decidable (d.SameMonth e) := inferInstanceAs (Decidable (_ ∧ _))

/-- The dates of the month before a date that fall on its weekday. -/
def earlierOnWeekday (d : Date) : Set Date :=
  {e | d.SameMonth e ∧ e.number < d.number ∧ e.daysFromSunday = d.daysFromSunday}

theorem sameMonth_iff_monthIndex : d.SameMonth e ↔ e.monthIndex = d.monthIndex := by
  obtain ⟨hd₁, hd₂⟩ := d.monthIndex_bounds
  obtain ⟨he₁, he₂⟩ := e.monthIndex_bounds
  simp only [SameMonth, year, month]
  omega

theorem number_lastOfMonth_add (d : Date) :
    d.lastOfMonth.number + d.day = d.number + d.lastOfMonth.day := by
  have hlast : d.lastOfMonth.day = daysInMonth d.civil.year d.civil.month := by
    rw [day, civil_lastOfMonth]
  rw [hlast]
  simp only [lastOfMonth, addDays, day]
  omega

theorem sameMonth_iff :
    d.SameMonth e ↔ d.number < e.number + d.day ∧ e.number ≤ d.lastOfMonth.number := by
  have hd := d.number_eq_monthFirst
  have hlast := d.number_lastOfMonth
  rw [sameMonth_iff_monthIndex]
  simp only [day]
  constructor
  · intro h
    have he := e.number_eq_monthFirst
    have hbounds := e.day_bounds
    have hsucc := monthFirst_succ d.monthIndex
    rw [h] at he hbounds
    omega
  · rintro ⟨hlo, hhi⟩
    exact Period.index_eq_of_bounds (p := .month) (show monthFirst d.monthIndex ≤ e.number by omega)
      (show e.number < monthFirst (d.monthIndex + 1) by omega)

theorem eq_lastOfMonth_iff : d = d.lastOfMonth ↔ ¬ d.SameMonth (d.addDays 1) := by
  have hle : d.number ≤ d.lastOfMonth.number := Period.le_last .month d
  have hday : 1 ≤ d.day := d.civil_valid.2.2.1
  have hiff : d = d.lastOfMonth ↔ d.number = d.lastOfMonth.number :=
    ⟨congrArg number, fun h => congrArg Date.mk h⟩
  rw [hiff, sameMonth_iff]
  simp only [addDays]
  omega

theorem daysFromSunday_eq_iff :
    e.daysFromSunday = d.daysFromSunday ↔ (7 : Int) ∣ e.number - d.number := by
  simp only [daysFromSunday]
  omega

theorem lastOfMonth_lt_iff : d.lastOfMonth.day < d.day + 7 ↔
    ∀ e, d.SameMonth e → d.number < e.number → e.daysFromSunday ≠ d.daysFromSunday := by
  have hlast := d.number_lastOfMonth_add
  constructor
  · intro hlt e he hlater
    rw [sameMonth_iff] at he
    rw [ne_eq, daysFromSunday_eq_iff]
    omega
  · intro hnone
    rw [← Nat.not_le]
    intro hle
    have hsame : d.SameMonth (d.addDays 7) := by
      rw [sameMonth_iff]
      simp only [addDays]
      omega
    refine hnone (d.addDays 7) hsame ?_ ?_
    · simp only [addDays]
      omega
    · rw [daysFromSunday_eq_iff]
      simp only [addDays]
      omega

theorem earlierOnWeekday_eq (d : Date) : d.earlierOnWeekday =
    (fun j : Nat => d.addDays (-(7 * (j + 1)))) '' (Finset.range ((d.day - 1) / 7) : Set Nat) := by
  have hle : d.number ≤ d.lastOfMonth.number := Period.le_last .month d
  ext ⟨m⟩
  simp only [earlierOnWeekday, Set.mem_ofPred_eq, sameMonth_iff, daysFromSunday_eq_iff, Set.mem_image,
    Finset.coe_range, Set.mem_Iio]
  constructor
  · rintro ⟨⟨hlo, -⟩, hlt, i, hi⟩
    refine ⟨(-i - 1).toNat, by omega, ?_⟩
    rw [addDays, mk.injEq]
    omega
  · rintro ⟨j, hj, h⟩
    rw [addDays, mk.injEq] at h
    omega

theorem encard_earlierOnWeekday (d : Date) : d.earlierOnWeekday.encard = ((d.day - 1) / 7 : Nat) := by
  have hinj : Function.Injective fun j : Nat => d.addDays (-(7 * (j + 1))) := by
    intro i j h
    simp only [addDays, mk.injEq] at h
    omega
  rw [earlierOnWeekday_eq, hinj.encard_image, Set.encard_coe_eq_coe_finsetCard, Finset.card_range]

end Timetable.Calendar.Date
