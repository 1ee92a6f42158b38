import Timetable.Engine
import Timetable.Proofs.Zone.Face
import Timetable.Zone.Table

namespace Timetable

open Calendar

namespace Engine

variable {e : Engine} {s : Schedule} {t : Instant}

theorem zone_plan (e : Engine) (s : Schedule) :
    (s.plan e.timezone.zone).zone = (e.timezoneOf s).zone := by
  rw [timezoneOf]
  cases h : s.timezone <;> simp [Schedule.plan, h]

theorem plan_eq_ok (hs : s.special = none) : e.plan s = .ok (s.plan e.timezone.zone) := by
  rw [plan, hs]

theorem ofFound_ne_outOfRange {r : Found Instant} (h : r ≠ .outOfRange) :
    e.ofFound r ≠ .outOfRange := by
  cases r with
  | found u => simp [ofFound]
  | exhausted => simp [ofFound]
  | outOfRange => exact absurd rfl h

theorem isMatch_eq (hs : s.special = none) (u : Instant) :
    e.isMatch s u = if ((e.timezoneOf s).zone.wallAt u).InRange then
      .ok ((s.plan e.timezone.zone).admits ((e.timezoneOf s).zone.faceAt u.second))
    else .outOfRange := by
  rw [isMatch, plan_eq_ok hs, ← zone_plan]
  simp only [Plan.matchesAt?, Zone.wallAt?, Reading.inRange?]
  split <;> rfl

theorem isMatch_of_inRange (hs : s.special = none) {u : Instant}
    (hu : ((e.timezoneOf s).zone.wallAt u).InRange) : e.isMatch s u =
      .ok ((s.plan e.timezone.zone).admits ((e.timezoneOf s).zone.faceAt u.second)) := by
  rw [isMatch_eq hs, if_pos hu]

theorem isMatch_eq_ok_iff (hs : s.special = none) {u : Instant} {b : Bool} :
    e.isMatch s u = .ok b ↔ ((e.timezoneOf s).zone.wallAt u).InRange ∧
      (s.plan e.timezone.zone).admits ((e.timezoneOf s).zone.faceAt u.second) = b := by
  rw [isMatch_eq hs]
  split
  · next hu => simp only [Outcome.ok.injEq, hu, true_and]
  · next hu => exact iff_of_false (by simp) fun h => hu h.1

theorem isMatch_eq_false_of_ne (hs : s.special = none) {u : Instant}
    (hu : ((e.timezoneOf s).zone.wallAt u).InRange) (h : e.isMatch s u ≠ .ok true) :
    e.isMatch s u = .ok false := by
  rw [isMatch_of_inRange hs hu] at *
  simpa using h

theorem isMatch_eq_outOfRange_iff (hs : s.special = none) {u : Instant} :
    e.isMatch s u = .outOfRange ↔ ¬ ((e.timezoneOf s).zone.wallAt u).InRange := by
  rw [isMatch_eq hs]
  split
  · next hu => exact iff_of_false (by simp) fun h => h hu
  · next hu => exact iff_of_true rfl hu

theorem wallAt_le_iff {z : Zone} {v : Instant} {h : WallTime} (hn : v.nano = 0) :
    z.wallAt v ≤ h ↔ z.faceAt v.second ≤ h.second := by
  simp only [Reading.le_def, Zone.wallAt, Zone.faceAt, hn]
  omega

def inKolkata : Engine := .ofHorizon 10 ⟨"Asia/Kolkata", Zone.kolkata⟩

def lastHour : Instant := .ofSecond 8210266873200 -- +262142-12-31T23:00:00Z

end Engine

end Timetable
