import Timetable.Proofs.Calendar.Months
import Timetable.Proofs.Engine.Next
import Timetable.Proofs.Engine.Prev

namespace Timetable

open Calendar

namespace WallTime

variable {w v h b : WallTime} {n : Int}

theorem nano_of_addMonths? (hw : w.addMonths? n = some h) : h.nano = w.nano := by
  obtain ⟨d, -, rfl⟩ := Option.map_eq_some_iff.1 hw
  rfl

theorem second_le_of_subMonths? (hw : w.addMonths? n = some h) (hv : v.addMonths? (-n) = some b)
    (hle : v.second ≤ h.second) : b.second ≤ w.second := by
  have hh := (second_of_addMonths? hw).1
  have hb := (second_of_addMonths? hv).1
  have hw' := second_eq_date w
  have hv' := second_eq_date v
  have htime := w.secondOfDay_lt
  have htime' := v.secondOfDay_lt
  simp only [dayStart, secondsPerDay] at hh hb hw' hv'
  rcases Int.lt_trichotomy v.date.number (w.date.addMonths n).number with hlt | heq | hgt
  · have := Date.addMonths_lt_of_lt_addMonths hlt
    omega
  · have hdate : v.date = w.date.addMonths n := congrArg Date.mk heq
    have := w.date.addMonths_addMonths_neg_le n
    rw [hdate] at hb
    omega
  · omega

end WallTime

namespace Plan

variable {p : Plan} {t u : Instant} {years : Nat}

/-- The horizon of the search back reaches what the search ahead began from. -/
theorem horizonFaceBehind_le (hr : p.RoomAhead years t) (hr' : p.RoomBehind years u)
    (hu : u.nano = 0) (hle : p.zone.faceAt u.second ≤ p.horizonFace years t) :
    p.horizonFaceBehind years u ≤ p.zone.faceAt t.second := by
  obtain ⟨h, hh⟩ := Option.isSome_iff_exists.1 hr.horizon
  obtain ⟨b, hb⟩ := Option.isSome_iff_exists.1 hr'.horizon
  rw [horizonFace, horizonAfter, hh, Option.getD_some] at hle
  have hback := WallTime.second_le_of_subMonths? hh hb hle
  have hnano : b.nano = 0 := by rw [WallTime.nano_of_addMonths? hb, Zone.nano_wallAt, hu]
  rw [horizonFaceBehind, horizonBefore, hb, Option.getD_some, secondFrom, if_pos hnano]
  exact hback

theorem not_skipsRepeat_of_nano (ht : t.nano = 0) : ¬ p.SkipsRepeat t := by
  intro h
  have hleap := h.1
  simp only [Reading.isLeap, ht, decide_eq_true_eq, nanosPerSecond] at hleap
  omega

theorem prev_eq_found_of_next (hz : p.zone.Regular) (hn : 1 ≤ years) (hn' : years ≤ 400) (ht : t.nano = 0)
    (hm : p.admits (p.zone.faceAt t.second) = true) (hr : p.RoomAhead years t)
    (hr' : p.RoomBehind years u) (h : p.next years t = .found u) : p.prev years u = .found t := by
  have hnext := next_isNext hz hr hn hn' (not_skipsRepeat_of_nano ht)
  have hprev := prev_isPrev hz hr' hn hn'
  rw [h] at hnext
  obtain ⟨s, rfl, hs, hle, hfirst⟩ := hnext
  have hback := horizonFaceBehind_le hr hr' rfl hle
  have hin := (Reading.inRange_iff t).1 hr.instant
  have hmatch : p.MatchBefore (.ofSecond s) t.second := ⟨hs.1, hin.1, hm⟩
  cases hf : p.prev years (.ofSecond s) with
  | found v =>
    rw [hf] at hprev
    obtain ⟨s', rfl, hs', -, hlast⟩ := hprev
    have hge := hlast t.second hmatch
    rcases Int.lt_or_le t.second s' with hlt | hle'
    · -- a match between the two would have been found first
      have hbefore : s' < s := hs'.1
      have hsoon := hfirst s' ⟨hlt, by have := hs.2.1; omega, hs'.2.2⟩
      omega
    · rw [show s' = t.second by omega, Reading.ofSecond_second ht]
  | exhausted =>
    rw [hf] at hprev
    have := hprev t.second hmatch
    omega
  | outOfRange =>
    rw [hf] at hprev
    exact hprev.elim

end Plan

namespace Engine

variable {e : Engine} {s : Schedule} {t u : Instant}

theorem found_of_next_eq_ok (hs : s.special = none) (h : e.next s t = .ok u) :
    (s.plan e.timezone.zone).next e.horizon t = .found u := by
  rw [next_eq hs, ofFound.eq_def] at h
  split at h
  · next v hv => rw [hv, Outcome.ok.inj h]
  · cases h
  · cases h

theorem prev_of_next (hs : s.special = none) (hz : (e.timezoneOf s).zone.Regular)
    (ht : t.nano = 0) (hm : e.isMatch s t = .ok true)
    (hr : (s.plan e.timezone.zone).RoomAhead e.horizon t)
    (hr' : (s.plan e.timezone.zone).RoomBehind e.horizon u) (h : e.next s t = .ok u) :
    e.prev s u = .ok t := by
  rw [← zone_plan] at hz
  have hadmits := ((isMatch_eq_ok_iff hs).1 hm).2
  rw [← zone_plan] at hadmits
  rw [prev_eq hs, Plan.prev_eq_found_of_next hz e.horizon_pos e.horizon_le ht hadmits hr hr'
    (found_of_next_eq_ok hs h), ofFound]

def oneInTheMorning : Instant := .ofSecond (-8071200) -- 1969-09-29T14:00:00Z

def oneInTheMorningAgain : Instant := .ofSecond (-7988400) -- 1969-09-30T13:00:00Z

theorem prev_of_next_kwajalein : lastOfSeptember.special = none ∧
    (default.timezoneOf lastOfSeptember).zone.Regular ∧ oneInTheMorning.nano = 0 ∧
    default.isMatch lastOfSeptember oneInTheMorning = .ok true ∧
    (lastOfSeptember.plan default.timezone.zone).RoomAhead default.horizon oneInTheMorning ∧
    (lastOfSeptember.plan default.timezone.zone).RoomBehind default.horizon oneInTheMorningAgain ∧
    default.next lastOfSeptember oneInTheMorning = .ok oneInTheMorningAgain ∧
    default.prev lastOfSeptember oneInTheMorningAgain = .ok oneInTheMorning := by
  have hz : (default.timezoneOf lastOfSeptember).zone.Regular := by decide
  have hm : default.isMatch lastOfSeptember oneInTheMorning = .ok true := by rfl
  have hr : (lastOfSeptember.plan default.timezone.zone).RoomAhead default.horizon
      oneInTheMorning :=
    Plan.roomAhead_of_far (by decide) (by decide) (by decide) (by decide) (by decide) (by decide)
      (by decide)
  have hr' : (lastOfSeptember.plan default.timezone.zone).RoomBehind default.horizon
      oneInTheMorningAgain :=
    Plan.roomBehind_of_far (by decide) (by decide) (by decide) (by decide) (by decide) (by decide)
      (by decide)
  have hnext : default.next lastOfSeptember oneInTheMorning = .ok oneInTheMorningAgain := by
    decide +kernel
  exact ⟨rfl, hz, rfl, hm, hr, hr', hnext, prev_of_next rfl hz rfl hm hr hr' hnext⟩

end Engine

end Timetable
