import Timetable.Proofs.Calendar.Order
import Timetable.Proofs.Field.Values
import Timetable.Search.Progress

namespace Timetable.Plan

open Calendar

variable {p : Plan} {t v : Int}

theorem admits_eq_false_of_year (h : p.admitsYear (dateOf v).civil.year = false) :
    p.admits v = false := by
  simp [admits, admitsDate, Date.year, h]

theorem admits_eq_false_of_month (h : p.month.admits (dateOf v).civil.month = false) :
    p.admits v = false := by
  simp [admits, admitsDate, Date.month, h]

theorem admits_eq_false_of_day (h : p.admitsDay (dateOf v) = false) : p.admits v = false := by
  simp [admits, admitsDate, h]

theorem admits_eq_false_of_hour (h : p.hour.admits (hourOf v) = false) : p.admits v = false := by
  simp [admits, h]

theorem admits_eq_false_of_minute (h : p.minute.admits (minuteOf v) = false) :
    p.admits v = false := by
  simp [admits, h]

theorem admits_eq_false_of_second (h : p.second.admits (secondOf v) = false) :
    p.admits v = false := by
  simp [admits, h]

theorem bounds_of_admitsYear {y : Int} {f : Field .year} (hf : p.year = some f)
    (h : p.admitsYear y = true) : 1970 ≤ y ∧ y ≤ 9999 := by
  simp only [admitsYear, hf, Bool.and_eq_true, decide_eq_true_eq] at h
  have hb := Field.bounds_of_admits h.2
  simp only [FieldKind.min, FieldKind.max] at hb
  omega

theorem exists_admits_of_hour (hd : p.admitsDate (dateOf t) = true)
    (hh : p.hour.admits (hourOf t) = true) :
    ∃ v, dateOf v = dateOf t ∧ hourOf v = hourOf t ∧ p.admits v = true := by
  obtain ⟨m, hm⟩ := p.minute.exists_admits (by decide) (by decide)
  obtain ⟨s, hs⟩ := p.second.exists_admits (by decide) (by decide)
  have hm' := (Field.bounds_of_admits hm).2
  have hs' := (Field.bounds_of_admits hs).2
  simp only [FieldKind.max] at hm' hs'
  have h₁ := dateOf_secondAt (d := dateOf t) (m := m) (s := s) (hourOf_lt t) (by omega) (by omega)
  have h₂ := hourOf_secondAt (d := dateOf t) (m := m) (s := s) (hourOf_lt t) (by omega) (by omega)
  refine ⟨secondAt (dateOf t) (hourOf t) m s, h₁, h₂, ?_⟩
  rw [admits, h₁, h₂, minuteOf_secondAt (by omega) (by omega), secondOf_secondAt (by omega)]
  simp [hd, hh, hm, hs]

theorem toDate_ne_outOfRange (o : Option Date) (h m s : Nat) :
    Move.toDate o h m s ≠ .outOfRange := by
  cases o <;> simp [Move.toDate]

end Timetable.Plan
