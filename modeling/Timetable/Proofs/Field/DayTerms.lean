import Timetable.Proofs.Calendar.Weekdays
import Timetable.Proofs.Field.Denotation

namespace Timetable

open Text Calendar

/-- A part of the text of a field of days admits a date. In days of the week 7 is a Sunday, and an end that
is not written is Saturday, so that `7/2` is 7 alone. -/
inductive AdmitsDate (d : Date) : FieldKind → List Char → Prop where
  | dayOfMonth {w : List Char} : Denotes .dayOfMonth w d.day → AdmitsDate d .dayOfMonth w
  | lastDay : ¬ d.SameMonth (d.addDays 1) → AdmitsDate d .dayOfMonth ['L']
  | weekday {w : List Char} {v : Nat} : Denotes .dayOfWeek w v → v % 7 = d.daysFromSunday →
      AdmitsDate d .dayOfWeek w
  | lastWeekday {w : List Char} {v : Nat} : readWord? w = some v → v % 7 = d.daysFromSunday →
      (∀ e, d.SameMonth e → d.number < e.number → e.daysFromSunday ≠ d.daysFromSunday) →
      AdmitsDate d .dayOfWeek (w ++ ['L'])
  | nthWeekday {w ds : List Char} {v i : Nat} : readWord? w = some v → readWord? ds = some i →
      v % 7 = d.daysFromSunday → d.earlierOnWeekday.encard + 1 = i →
      AdmitsDate d .dayOfWeek (w ++ '#' :: ds)

variable {k : FieldKind} {w : List Char} {d : Date}

theorem encard_earlierOnWeekday_add_one_eq_iff {i : Nat} :
    d.earlierOnWeekday.encard + 1 = i ↔ 7 * i < d.day + 7 ∧ d.day ≤ 7 * i := by
  have hday : 1 ≤ d.day := d.civil_valid.2.2.1
  have hcast : d.earlierOnWeekday.encard + 1 = i ↔ (d.day - 1) / 7 + 1 = i := by
    rw [Date.encard_earlierOnWeekday]
    norm_cast
  rw [hcast]
  omega

theorem admitsDate_iff_denotesDay : AdmitsDate d k w ↔ DenotesDay d k w := by
  constructor
  · intro h
    cases h with
    | dayOfMonth h => exact .dayOfMonth h
    | lastDay h => exact .lastDay (Date.eq_lastOfMonth_iff.2 h)
    | weekday h hv => exact .weekday h hv
    | lastWeekday hw hv h => exact .lastWeekday hw hv (Date.lastOfMonth_lt_iff.2 h)
    | nthWeekday hw hds hv h =>
      obtain ⟨hlo, hhi⟩ := encard_earlierOnWeekday_add_one_eq_iff.1 h
      exact .nthWeekday hw hds hv hlo hhi
  · intro h
    cases h with
    | dayOfMonth h => exact .dayOfMonth h
    | lastDay h => exact .lastDay (Date.eq_lastOfMonth_iff.1 h)
    | weekday h hv => exact .weekday h hv
    | lastWeekday hw hv h => exact .lastWeekday hw hv (Date.lastOfMonth_lt_iff.1 h)
    | nthWeekday hw hds hv hlo hhi =>
      exact .nthWeekday hw hds hv (encard_earlierOnWeekday_add_one_eq_iff.2 ⟨hlo, hhi⟩)

namespace Field

theorem admitsDay_iff_admitsDate (hk : k = .dayOfMonth ∨ k = .dayOfWeek) {text : String} {f : Field k}
    (h : Field.parse k text = .ok f) (d : Date) :
    f.admitsDay d = true ↔ ∃ w ∈ (normalise k text.toList).splitOn ',', AdmitsDate d k w := by
  simp only [admitsDate_iff_denotesDay, ← toList_text_of_parse h]
  rcases hk with rfl | rfl
  · exact f.admitsDay_iff_of_dayOfMonth d
  · exact f.admitsDay_iff_of_dayOfWeek d

def someWeekdays : String := "FRI#2,6L,*/2"

def secondFriday : Date := ⟨19762⟩ -- 2024-02-09

theorem admitsDay_iff_admitsDate_secondFriday : ∃ f : Field .dayOfWeek,
    Field.parse .dayOfWeek someWeekdays = .ok f ∧ AdmitsDate secondFriday .dayOfWeek "5#2".toList ∧
      f.admitsDay secondFriday = true := by
  have hweekday : readWord? ['5'] = some 5 := by decide
  have hnth : readWord? ['2'] = some 2 := by decide
  have hadmits : AdmitsDate secondFriday .dayOfWeek "5#2".toList :=
    .nthWeekday hweekday hnth (by decide)
      (encard_earlierOnWeekday_add_one_eq_iff.2 (by decide +kernel))
  obtain ⟨f, hf⟩ : ∃ f, Field.parse .dayOfWeek someWeekdays = .ok f := ⟨_, rfl⟩
  exact ⟨f, hf, hadmits,
    (admitsDay_iff_admitsDate (.inr rfl) hf secondFriday).2 ⟨_, by decide +kernel, hadmits⟩⟩

end Field

end Timetable
