import Timetable.Proofs.Calendar.Advance
import Timetable.Proofs.Zone.Face
import Timetable.Search.Occurrence

/-! The second look at a repeated hour. From a leap second it can begin one second after the hour does. -/

namespace Timetable

open Calendar

namespace Calendar.Reading

variable {c : Clock}

theorem secondsSince_bounds (a b : Reading c) :
    b.second - a.second - 1 ≤ b.secondsSince a ∧ b.secondsSince a ≤ b.second - a.second + 1 := by
  simp only [secondsSince]
  repeat' split
  all_goals omega

theorem secondsSince_lt_iff {a b : Reading c} (h : b.nano = a.nano) :
    b.secondsSince a < b.second - a.second ↔
      a.isLeap = true ∧ b.second % 86400 < a.second % 86400 := by
  have hleap : b.isLeap = a.isLeap := by simp only [isLeap, h]
  have hday : ∀ r : Reading c, (r.secondOfDay : Int) = r.second % 86400 := by
    intro r
    simp only [secondOfDay, secondsPerDay]
    omega
  have ha := hday a
  have hb := hday b
  simp only [secondsSince, hleap]
  cases a.isLeap with
  | false => simp
  | true =>
    simp only [Bool.true_and, decide_eq_true_eq, true_and]
    repeat' split
    all_goals omega

end Calendar.Reading

section
variable {w : WallTime} {t t' : Instant}

theorem second_addSeconds_neg_le (ht : t.nano = w.nano) (ht' : t'.nano = w.nano)
    (hlt : t.second < t'.second) :
    (w.addSeconds (-(t'.secondsSince t))).second ≤ w.second + 1 - (t'.second - t.second) ∨
      (t.isLeap = true ∧ 2 ≤ t'.second - t.second ∧ t'.second % 86400 < t.second % 86400) := by
  have hb := t.secondsSince_bounds t'
  have hs := Reading.secondsSince_lt_iff (ht'.trans ht.symm)
  have hleap : w.isLeap = t.isLeap := by simp only [Reading.isLeap, ht]
  rw [Reading.second_addSeconds, hleap]
  by_cases hshort : t'.secondsSince t < t'.second - t.second
  · obtain ⟨hl, hday⟩ := hs.1 hshort
    by_cases hd : 2 ≤ t'.second - t.second
    · exact .inr ⟨hl, hd, hday⟩
    · left
      split <;> omega
  · left
    split <;> omega

theorem second_addSeconds_neg_of_short (ht : t.nano = w.nano) (ht' : t'.nano = w.nano)
    (hleap : t.isLeap = true) (hd : 2 ≤ t'.second - t.second)
    (hs : t'.second % 86400 < t.second % 86400) :
    (w.addSeconds (-(t'.secondsSince t))).second = w.second + 2 - (t'.second - t.second) := by
  have hb := t.secondsSince_bounds t'
  have hlt := (Reading.secondsSince_lt_iff (ht'.trans ht.symm)).2 ⟨hleap, hs⟩
  have hleap' : w.isLeap = true := by simpa only [Reading.isLeap, ht] using hleap
  rw [Reading.second_addSeconds, if_pos ⟨hleap', by omega⟩]
  omega

theorem le_second_addSeconds_neg (w : WallTime) (t t' : Instant) :
    w.second - (t'.second - t.second) - 1 ≤ (w.addSeconds (-(t'.secondsSince t))).second := by
  have hb := t.secondsSince_bounds t'
  rw [Reading.second_addSeconds]
  split <;> omega

theorem second_addSeconds_bounds (hlt : t.second < t'.second) :
    w.second + (t'.second - t.second) - 1 ≤ (w.addSeconds (t'.secondsSince t)).second ∧
      (w.addSeconds (t'.secondsSince t)).second ≤ w.second + (t'.second - t.second) + 1 := by
  have hb := t.secondsSince_bounds t'
  rw [Reading.second_addSeconds]
  split <;> omega

theorem secondFrom_addSeconds_neg_le {n : Int} (hn : 0 ≤ n) :
    Plan.secondFrom (w.addSeconds (-n)) ≤ Plan.secondFrom w := by
  have hs := w.second_addSeconds (-n)
  have hnano := w.nano_addSeconds_le (-n)
  simp only [Plan.secondFrom]
  repeat' split at *
  all_goals omega

end

end Timetable
