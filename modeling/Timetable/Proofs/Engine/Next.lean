import Timetable.Proofs.Engine.Basic
import Timetable.Proofs.Search.FirstMatch

namespace Timetable

open Calendar

namespace Engine

variable {e : Engine} {s : Schedule} {t : Instant}

theorem next_eq (hs : s.special = none) :
    e.next s t = e.ofFound ((s.plan e.timezone.zone).next e.horizon t) := by
  rw [next, plan_eq_ok hs, Outcome.ok_bind]

/-- What a scan of all whole seconds after `t` says: an answer is the first of them that matches, and
there is none exactly if no second up to the horizon matches. -/
structure NextIsScan (e : Engine) (s : Schedule) (t : Instant) : Prop where
  first : ∀ u, e.next s t = .ok u → u.nano = 0 ∧ t < u ∧ e.isMatch s u = .ok true ∧
    ∀ v : Instant, v.nano = 0 → t < v → v < u → e.isMatch s v = .ok false
  exhausted : e.next s t = .error (.exhausted e.horizon) ↔
    ∀ v : Instant, v.InRange → v.nano = 0 → t < v → (e.timezoneOf s).zone.wallAt v ≤
      Plan.horizonAfter e.horizon ((e.timezoneOf s).zone.wallAt t) → e.isMatch s v = .ok false

theorem matchAfter_of_isMatch (hs : s.special = none) {v : Instant} (hv : v.InRange) (hlt : t < v)
    (hn : v.nano = 0) (hm : e.isMatch s v = .ok true) :
    (s.plan e.timezone.zone).MatchAfter t v.second := by
  rw [← Reading.ofSecond_second hn, Reading.lt_ofSecond_iff] at hlt
  have hadmits := ((isMatch_eq_ok_iff hs).1 hm).2
  rw [← zone_plan] at hadmits
  exact ⟨hlt, ((Reading.inRange_iff v).1 hv).2, hadmits⟩

theorem inRange_wallAt_ahead (hz : (e.timezoneOf s).zone.Regular)
    (hr : (s.plan e.timezone.zone).RoomAhead e.horizon t) {v : Instant} {x : Int}
    (htv : t.second ≤ v.second) (hvx : v.second ≤ x)
    (hx : (s.plan e.timezone.zone).zone.faceAt x ≤ (s.plan e.timezone.zone).horizonFace e.horizon t) :
    ((e.timezoneOf s).zone.wallAt v).InRange := by
  have hlatest := (hr.horizonFace_bounds e.horizon_pos e.horizon_le).2.2
  have hwall := hr.wall
  rw [zone_plan] at hx hwall
  exact hz.inOrder.inRange_wallAt htv hvx ((Reading.inRange_iff _).1 hwall).1 (Int.le_trans hx hlatest)

theorem isMatch_of_matchAfter (hs : s.special = none) (hz : (e.timezoneOf s).zone.Regular)
    (hr : (s.plan e.timezone.zone).RoomAhead e.horizon t) {v : Int}
    (hv : (s.plan e.timezone.zone).MatchAfter t v)
    (hle : (s.plan e.timezone.zone).zone.faceAt v ≤ (s.plan e.timezone.zone).horizonFace e.horizon t) :
    e.isMatch s (.ofSecond v) = .ok true := by
  have hwall := inRange_wallAt_ahead hz hr (v := .ofSecond v) (Int.le_of_lt hv.1) (Int.le_refl v) hle
  rw [isMatch_of_inRange hs hwall, ← zone_plan]
  exact congrArg Outcome.ok hv.2.2

theorem inRange_of_matchAfter {p : Plan} {v : Int} (ht : t.InRange) (hv : p.MatchAfter t v) :
    (Reading.ofSecond v : Instant).InRange := by
  rw [Reading.inRange_iff] at *
  have h₁ := hv.1
  have h₂ := hv.2.1
  simp only [Reading.ofSecond]
  omega

theorem nextIsScan_of_found {x : Int} (hs : s.special = none) (hz : (e.timezoneOf s).zone.Regular)
    (hr : (s.plan e.timezone.zone).RoomAhead e.horizon t)
    (hnext : e.next s t = .ok (.ofSecond x)) (hx : (s.plan e.timezone.zone).MatchAfter t x)
    (hle : (s.plan e.timezone.zone).zone.faceAt x ≤
      (s.plan e.timezone.zone).horizonFace e.horizon t)
    (hmin : ∀ v, (s.plan e.timezone.zone).MatchAfter t v → x ≤ v) : e.NextIsScan s t := by
  have ht := hr.instant
  have hin := inRange_of_matchAfter ht hx
  have hmatch := isMatch_of_matchAfter hs hz hr hx hle
  constructor
  · intro u hu
    obtain rfl : Reading.ofSecond x = u := by simpa using hnext.symm.trans hu
    refine ⟨rfl, Reading.lt_ofSecond_iff.2 hx.1, hmatch, ?_⟩
    intro v hn hlt hvx
    rw [← Reading.ofSecond_second hn, Reading.lt_ofSecond_iff] at hvx
    have htv : t.second < v.second := by
      rwa [← Reading.ofSecond_second hn, Reading.lt_ofSecond_iff] at hlt
    simp only [Reading.ofSecond] at hvx
    have hv : v.InRange := by
      rw [Reading.inRange_iff] at *
      simp only [Reading.ofSecond] at *
      omega
    refine isMatch_eq_false_of_ne hs
      (inRange_wallAt_ahead hz hr (Int.le_of_lt htv) (Int.le_of_lt hvx) hle) fun hm => ?_
    have := hmin v.second (matchAfter_of_isMatch hs hv hlt hn hm)
    omega
  · rw [hnext]
    constructor
    · intro he
      cases he
    · intro hnone
      rw [Plan.horizonFace, zone_plan] at hle
      have hfalse := hnone (.ofSecond x) hin rfl (Reading.lt_ofSecond_iff.2 hx.1)
        ((wallAt_le_iff rfl).2 hle)
      rw [hmatch] at hfalse
      cases hfalse

theorem nextIsScan_of_exhausted (hs : s.special = none) (hz : (e.timezoneOf s).zone.Regular)
    (hr : (s.plan e.timezone.zone).RoomAhead e.horizon t)
    (hnext : e.next s t = .error (.exhausted e.horizon))
    (hfar : ∀ v, (s.plan e.timezone.zone).MatchAfter t v →
      (s.plan e.timezone.zone).horizonFace e.horizon t <
        (s.plan e.timezone.zone).zone.faceAt v) : e.NextIsScan s t := by
  constructor
  · intro u hu
    rw [hnext] at hu
    cases hu
  · apply iff_of_true hnext
    intro v hv hn hlt hle
    have htv : t.second ≤ v.second := by
      rw [Reading.lt_def] at hlt
      omega
    rw [wallAt_le_iff hn, ← zone_plan] at hle
    refine isMatch_eq_false_of_ne hs (inRange_wallAt_ahead hz hr htv (Int.le_refl _) hle) fun hm => ?_
    have hbeyond := hfar v.second (matchAfter_of_isMatch hs hv hlt hn hm)
    simp only [Plan.horizonFace] at hbeyond
    omega

theorem nextIsScan_of_isNext (hs : s.special = none) (hz : (e.timezoneOf s).zone.Regular)
    (hr : (s.plan e.timezone.zone).RoomAhead e.horizon t)
    (h : (s.plan e.timezone.zone).IsNext e.horizon t
      ((s.plan e.timezone.zone).next e.horizon t)) : e.NextIsScan s t := by
  cases hf : (s.plan e.timezone.zone).next e.horizon t with
  | outOfRange =>
    rw [hf] at h
    exact h.elim
  | found u =>
    rw [hf] at h
    obtain ⟨x, rfl, hx, hle, hmin⟩ := h
    exact nextIsScan_of_found hs hz hr (by rw [next_eq hs, hf, ofFound]) hx hle hmin
  | exhausted =>
    rw [hf] at h
    exact nextIsScan_of_exhausted hs hz hr (by rw [next_eq hs, hf, ofFound]) h

theorem not_nextIsScan_of_skipsRepeat (hs : s.special = none)
    (hz : (e.timezoneOf s).zone.Regular)
    (hr : (s.plan e.timezone.zone).RoomAhead e.horizon t)
    (hk : (s.plan e.timezone.zone).SkipsRepeat t) : ¬ e.NextIsScan s t := by
  have hz' := hz
  rw [← zone_plan] at hz'
  intro h
  obtain ⟨hx, hface⟩ := hk.matchAfter hz' hr e.horizon_pos e.horizon_le
  have hb := (hr.horizonFace_bounds e.horizon_pos e.horizon_le).1
  have hrange := Plan.next_ne_outOfRange hz' hr e.horizon_pos e.horizon_le
  have hmiss := Plan.next_of_skipsRepeat hz' hr e.horizon_pos e.horizon_le hk
  have hin := inRange_of_matchAfter hr.instant hx
  have hm := isMatch_of_matchAfter hs hz hr hx (by omega)
  have hlt : t < .ofSecond (t.second + 1) := Reading.lt_ofSecond_iff.2 hx.1
  cases hf : (s.plan e.timezone.zone).next e.horizon t with
  | outOfRange => exact hrange hf
  | found u =>
    obtain ⟨hn, htu, -, hmin⟩ := h.first u (by rw [next_eq hs, hf, ofFound])
    rw [← Reading.ofSecond_second hn, Reading.lt_ofSecond_iff] at htu
    rcases Int.lt_or_le (t.second + 1) u.second with hlate | hsoon
    · have := hmin (.ofSecond (t.second + 1)) rfl hlt (.inl hlate)
      rw [hm] at this
      cases this
    · have hu : u.second = t.second + 1 := by omega
      rw [hf, ← Reading.ofSecond_second hn, hu] at hmiss
      exact hmiss rfl
  | exhausted =>
    have := h.exhausted.1 (by rw [next_eq hs, hf, ofFound]) _ hin rfl hlt ((wallAt_le_iff rfl).2 (by
      rw [← zone_plan]
      simp only [Plan.horizonFace] at hb
      simp only [Reading.ofSecond]
      omega))
    rw [hm] at this
    cases this

/-- The search ahead gives an answer, and it is that of the scan unless it starts from a leap second
that the first second of a repeated hour follows. -/
theorem nextIsScan_iff_not_skipsRepeat (hs : s.special = none)
    (hz : (e.timezoneOf s).zone.Regular)
    (hr : (s.plan e.timezone.zone).RoomAhead e.horizon t) :
    e.next s t ≠ .outOfRange ∧
      (e.NextIsScan s t ↔ ¬ (s.plan e.timezone.zone).SkipsRepeat t) := by
  have hz' := hz
  rw [← zone_plan] at hz'
  constructor
  · rw [next_eq hs]
    exact ofFound_ne_outOfRange (Plan.next_ne_outOfRange hz' hr e.horizon_pos e.horizon_le)
  · constructor
    · exact fun h hk => not_nextIsScan_of_skipsRepeat hs hz hr hk h
    · intro hk
      exact nextIsScan_of_isNext hs hz hr
        (Plan.next_isNext hz' hr e.horizon_pos e.horizon_le hk)

section
open Term

def lastOfSeptember : Schedule where
  second := some ⟨"0", [progression 0 0 1], by rfl⟩
  minute := some ⟨"0", [progression 0 0 1], by rfl⟩
  hour := some ⟨"1", [progression 1 1 1], by rfl⟩
  dayOfMonth := some ⟨"30", [progression 30 30 1], by rfl⟩
  month := some ⟨"9", [progression 9 9 1], by rfl⟩
  dayOfWeek := some (.any _)
  timezone := some ⟨"Pacific/Kwajalein", Zone.kwajalein⟩

end

def beforeSetBack : Instant := .ofSecond (-7988401) -- 1969-09-30T12:59:59Z

def leapBeforeSetBack : Instant := ⟨-7988401, 1000000000, by decide⟩ -- 1969-09-30T12:59:60Z

theorem roomAhead_lastOfSeptember (h : t = beforeSetBack ∨ t = leapBeforeSetBack) :
    (lastOfSeptember.plan default.timezone.zone).RoomAhead default.horizon t := by
  rcases h with rfl | rfl
  · exact Plan.roomAhead_of_far (by decide) (by decide) (by decide) (by decide) (by decide)
      (by decide) (by decide)
  · exact Plan.roomAhead_of_far (by decide) (by decide) (by decide) (by decide) (by decide)
      (by decide) (by decide)

theorem nextIsScan_lastOfSeptember : lastOfSeptember.special = none ∧
    (default.timezoneOf lastOfSeptember).zone.Regular ∧
    (lastOfSeptember.plan default.timezone.zone).RoomAhead default.horizon beforeSetBack ∧
    default.NextIsScan lastOfSeptember beforeSetBack := by
  have hz : (default.timezoneOf lastOfSeptember).zone.Regular := by decide
  have hr := roomAhead_lastOfSeptember (.inl rfl)
  refine ⟨rfl, hz, hr, ?_⟩
  exact (nextIsScan_iff_not_skipsRepeat rfl hz hr).2.2 (by decide)

theorem not_nextIsScan_lastOfSeptember : lastOfSeptember.special = none ∧
    (default.timezoneOf lastOfSeptember).zone.Regular ∧
    (lastOfSeptember.plan default.timezone.zone).RoomAhead default.horizon leapBeforeSetBack ∧
    ¬ default.NextIsScan lastOfSeptember leapBeforeSetBack := by
  have hz : (default.timezoneOf lastOfSeptember).zone.Regular := by decide
  have hr := roomAhead_lastOfSeptember (.inr rfl)
  exact ⟨rfl, hz, hr, not_nextIsScan_of_skipsRepeat rfl hz hr (by decide)⟩

end Engine

end Timetable
