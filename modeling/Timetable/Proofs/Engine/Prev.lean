import Timetable.Proofs.Engine.Basic
import Timetable.Proofs.Search.LastMatch

namespace Timetable

open Calendar

namespace Engine

variable {e : Engine} {s : Schedule} {t : Instant}

theorem prev_eq (hs : s.special = none) :
    e.prev s t = e.ofFound ((s.plan e.timezone.zone).prev e.horizon t) := by
  rw [prev, plan_eq_ok hs, Outcome.ok_bind]

structure PrevIsScan (e : Engine) (s : Schedule) (t : Instant) : Prop where
  last : ∀ u, e.prev s t = .ok u → u.nano = 0 ∧ u < t ∧ e.isMatch s u = .ok true ∧
    ∀ v : Instant, v.nano = 0 → u < v → v < t → e.isMatch s v = .ok false
  exhausted : e.prev s t = .error (.exhausted e.horizon) ↔
    ∀ v : Instant, v.InRange → v.nano = 0 → v < t →
      Plan.horizonBefore e.horizon ((e.timezoneOf s).zone.wallAt t) ≤
        (e.timezoneOf s).zone.wallAt v → e.isMatch s v = .ok false

theorem matchBefore_of_isMatch (hs : s.special = none) {v : Instant} (hv : v.InRange)
    (hlt : v < t) (hn : v.nano = 0) (hm : e.isMatch s v = .ok true) :
    (s.plan e.timezone.zone).MatchBefore t v.second := by
  rw [← Reading.ofSecond_second hn, Plan.ofSecond_lt_iff] at hlt
  have hadmits := ((isMatch_eq_ok_iff hs).1 hm).2
  rw [← zone_plan] at hadmits
  exact ⟨hlt, ((Reading.inRange_iff v).1 hv).1, hadmits⟩

theorem inRange_wallAt_behind (hz : (e.timezoneOf s).zone.Regular)
    (hr : (s.plan e.timezone.zone).RoomBehind e.horizon t) {v : Instant} {x : Int}
    (hvt : v.second ≤ t.second) (hxv : x ≤ v.second)
    (hx : (s.plan e.timezone.zone).horizonFaceBehind e.horizon t ≤
      (s.plan e.timezone.zone).zone.faceAt x) :
    ((e.timezoneOf s).zone.wallAt v).InRange := by
  have hearliest := (hr.horizonFaceBehind_bounds e.horizon_pos e.horizon_le).2
  have hwall := hr.wall
  rw [zone_plan] at hx hwall
  exact hz.inOrder.inRange_wallAt hxv hvt (Int.le_trans hearliest hx) ((Reading.inRange_iff _).1 hwall).2

theorem second_le_of_lt {v : Instant} (h : v < t) : v.second ≤ t.second := by
  rw [Reading.lt_def] at h
  omega

theorem isMatch_of_matchBefore (hs : s.special = none) (hz : (e.timezoneOf s).zone.Regular)
    (hr : (s.plan e.timezone.zone).RoomBehind e.horizon t) {v : Int}
    (hv : (s.plan e.timezone.zone).MatchBefore t v)
    (hle : (s.plan e.timezone.zone).horizonFaceBehind e.horizon t ≤
      (s.plan e.timezone.zone).zone.faceAt v) : e.isMatch s (.ofSecond v) = .ok true := by
  have hlt : (.ofSecond v : Instant) < t := Plan.ofSecond_lt_iff.2 hv.1
  have hwall := inRange_wallAt_behind hz hr (second_le_of_lt hlt) (Int.le_refl v) hle
  rw [isMatch_of_inRange hs hwall, ← zone_plan]
  exact congrArg Outcome.ok hv.2.2

theorem le_wallAt_iff {z : Zone} {v : Instant} {h : WallTime} (hn : v.nano = 0) :
    h ≤ z.wallAt v ↔ Plan.secondFrom h ≤ z.faceAt v.second := by
  simp only [Reading.le_def, Zone.wallAt, Zone.faceAt, hn, Plan.secondFrom]
  split <;> omega

theorem prevIsScan_of_found {x : Int} (hs : s.special = none) (hz : (e.timezoneOf s).zone.Regular)
    (hr : (s.plan e.timezone.zone).RoomBehind e.horizon t)
    (hprev : e.prev s t = .ok (.ofSecond x)) (hx : (s.plan e.timezone.zone).MatchBefore t x)
    (hle : (s.plan e.timezone.zone).horizonFaceBehind e.horizon t ≤
      (s.plan e.timezone.zone).zone.faceAt x)
    (hmax : ∀ v, (s.plan e.timezone.zone).MatchBefore t v → v ≤ x) : e.PrevIsScan s t := by
  have hin := Plan.inRange_of_lt_secondFrom hr.instant hx.1 hx.2.1
  have hmatch := isMatch_of_matchBefore hs hz hr hx hle
  constructor
  · intro u hu
    obtain rfl : Reading.ofSecond x = u := by simpa using hprev.symm.trans hu
    refine ⟨rfl, Plan.ofSecond_lt_iff.2 hx.1, hmatch, ?_⟩
    intro v hn hxv hlt
    rw [← Reading.ofSecond_second hn, Reading.lt_ofSecond_iff] at hxv
    simp only [Reading.ofSecond] at hxv
    have hv : v.InRange := by
      rw [← Reading.ofSecond_second hn] at hlt ⊢
      apply Plan.inRange_of_lt_secondFrom hr.instant (Plan.ofSecond_lt_iff.1 hlt)
      exact Int.le_trans hx.2.1 (Int.le_of_lt hxv)
    refine isMatch_eq_false_of_ne hs
      (inRange_wallAt_behind hz hr (second_le_of_lt hlt) (Int.le_of_lt hxv) hle) fun hm => ?_
    have := hmax v.second (matchBefore_of_isMatch hs hv hlt hn hm)
    omega
  · rw [hprev]
    constructor
    · intro he
      cases he
    · intro hnone
      rw [Plan.horizonFaceBehind, zone_plan] at hle
      have hfalse := hnone (.ofSecond x) hin rfl (Plan.ofSecond_lt_iff.2 hx.1)
        ((le_wallAt_iff rfl).2 hle)
      rw [hmatch] at hfalse
      cases hfalse

theorem prevIsScan_of_exhausted (hs : s.special = none) (hz : (e.timezoneOf s).zone.Regular)
    (hr : (s.plan e.timezone.zone).RoomBehind e.horizon t)
    (hprev : e.prev s t = .error (.exhausted e.horizon))
    (hfar : ∀ v, (s.plan e.timezone.zone).MatchBefore t v →
      (s.plan e.timezone.zone).zone.faceAt v <
        (s.plan e.timezone.zone).horizonFaceBehind e.horizon t) : e.PrevIsScan s t := by
  constructor
  · intro u hu
    rw [hprev] at hu
    cases hu
  · apply iff_of_true hprev
    intro v hv hn hlt hle
    rw [le_wallAt_iff hn, ← zone_plan] at hle
    refine isMatch_eq_false_of_ne hs
      (inRange_wallAt_behind hz hr (second_le_of_lt hlt) (Int.le_refl _) hle) fun hm => ?_
    have hbeyond := hfar v.second (matchBefore_of_isMatch hs hv hlt hn hm)
    simp only [Plan.horizonFaceBehind] at hbeyond
    omega

theorem prevIsScan_of_isPrev (hs : s.special = none) (hz : (e.timezoneOf s).zone.Regular)
    (hr : (s.plan e.timezone.zone).RoomBehind e.horizon t)
    (h : (s.plan e.timezone.zone).IsPrev e.horizon t
      ((s.plan e.timezone.zone).prev e.horizon t)) : e.PrevIsScan s t := by
  cases hf : (s.plan e.timezone.zone).prev e.horizon t with
  | outOfRange =>
    rw [hf] at h
    exact h.elim
  | found u =>
    rw [hf] at h
    obtain ⟨x, rfl, hx, hle, hmax⟩ := h
    exact prevIsScan_of_found hs hz hr (by rw [prev_eq hs, hf, ofFound]) hx hle hmax
  | exhausted =>
    rw [hf] at h
    exact prevIsScan_of_exhausted hs hz hr (by rw [prev_eq hs, hf, ofFound]) h

theorem prev_isScan (hs : s.special = none) (hz : (e.timezoneOf s).zone.Regular)
    (hr : (s.plan e.timezone.zone).RoomBehind e.horizon t) :
    e.prev s t ≠ .outOfRange ∧ e.PrevIsScan s t := by
  have hz' := hz
  rw [← zone_plan] at hz'
  have hprev := Plan.prev_isPrev hz' hr e.horizon_pos e.horizon_le
  refine ⟨?_, prevIsScan_of_isPrev hs hz hr hprev⟩
  rw [prev_eq hs]
  apply ofFound_ne_outOfRange
  intro hf
  rw [hf] at hprev
  exact hprev

section

theorem leapNano_lt : 1000000000 < 2000000000 := by decide

def leapAfterSetBack : Instant := ⟨-7905601, 1000000000, leapNano_lt⟩ -- 1969-10-01T11:59:60Z

def everySecondInKwajalein : Schedule where
  timezone := some ⟨"Pacific/Kwajalein", Zone.kwajalein⟩

theorem prev_isScan_kwajalein : everySecondInKwajalein.special = none ∧
    (default.timezoneOf everySecondInKwajalein).zone.Regular ∧
    (everySecondInKwajalein.plan default.timezone.zone).RoomBehind default.horizon
      leapAfterSetBack ∧
    default.PrevIsScan everySecondInKwajalein leapAfterSetBack := by
  have hz : (default.timezoneOf everySecondInKwajalein).zone.Regular := by decide
  have hr : (everySecondInKwajalein.plan default.timezone.zone).RoomBehind default.horizon
      leapAfterSetBack :=
    Plan.roomBehind_of_far (by decide) (by decide) (by decide) (by decide) (by decide) (by decide)
      (by decide)
  exact ⟨rfl, hz, hr, (prev_isScan rfl hz hr).2⟩

end

end Engine

end Timetable
