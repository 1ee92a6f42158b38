import Timetable.Proofs.Engine.Next
import Timetable.Proofs.Engine.Prev
import Timetable.Proofs.Search.Edge
import Timetable.Proofs.Zone.Resolve

/-! Near the ends of the range the step off the reference, the next minute and the next hour are not cut
off. -/

namespace Timetable

open Calendar

namespace Plan

variable {p : Plan} {t : Instant} {years : Nat} {w : Int}

/-- `t` lies in the last second of the range, or the last hour of the range has matches but none after
`t`. -/
def RunsOffEnd (p : Plan) (t : Instant) : Prop :=
  t.second = latestSecond ∨ p.LeavesAhead (t.second + 1)

def RunsOffStart (p : Plan) (t : Instant) : Prop :=
  secondFrom t = earliestSecond ∨ p.LeavesBehind (secondFrom t - 1)

section
variable (hz : p.zone = .utc) (ht : t.InRange)
include hz ht

theorem firstAfter_ne_none_utc (hw : t.second < w) (hw' : w ≤ latestSecond) :
    p.firstAfter t w ≠ none := by
  intro hnone
  have hface : p.zone.faceAt w = w := by rw [hz, Zone.faceAt_utc]
  exact firstAfter_eq_none (by rw [hz]; decide) ht hnone hw hw' hface

theorem lastBefore_ne_none_utc (hw : earliestSecond ≤ w) (hw' : w < secondFrom t) :
    p.lastBefore t w ≠ none := by
  intro hnone
  have hface : p.zone.faceAt w = w := by rw [hz, Zone.faceAt_utc]
  exact lastBefore_eq_none (by rw [hz]; decide) ht hnone hw' hw hface

theorem next_eq_seekAfter_utc : p.next years t = p.seekAfter years t (p.zone.wallAt t) := by
  have hwall : (p.zone.wallAt t).InRange := by rw [hz]; exact Zone.inRange_wallAt_utc ht
  apply next_eq_of_once (by rw [hz]; decide) ht hwall
  intro t'
  rw [hz, Zone.instantsAt_utc_of_inRange (Zone.inRange_wallAt_utc ht)]
  simp

theorem prev_eq_seekBefore_utc : p.prev years t = p.seekBefore years t (p.zone.wallAt t) := by
  have hwall : (p.zone.wallAt t).InRange := by rw [hz]; exact Zone.inRange_wallAt_utc ht
  apply prev_eq_of_once (by rw [hz]; decide) ht hwall
  intro t'
  rw [hz, Zone.instantsAt_utc_of_inRange (Zone.inRange_wallAt_utc ht)]
  simp

theorem next_eq_outOfRange_iff (hn : 1 ≤ years) (hn' : years ≤ 400) :
    p.next years t = .outOfRange ↔ p.RunsOffEnd t := by
  have hin := (Reading.inRange_iff t).1 ht
  have hsecond : (p.zone.wallAt t).second = t.second := by rw [hz]; exact Zone.faceAt_utc _
  have hwall : (p.zone.wallAt t).InRange := by rw [hz]; exact Zone.inRange_wallAt_utc ht
  rw [next_eq_seekAfter_utc hz ht, seekAfter, hsecond, RunsOffEnd]
  rcases Int.lt_or_eq_of_le hin.2 with hlt | heq
  · have haccept : ∀ v, t.second + 1 ≤ v → v ≤ latestSecond → p.firstAfter t v ≠ none :=
      fun v hv => firstAfter_ne_none_utc hz ht (by omega)
    rw [if_pos hlt, or_iff_right (by omega)]
    rcases Int.lt_or_le (latestSecond - 3600) (t.second + 1) with hlate | hearly
    · rw [second_horizonAfter_of_late hn hn' (by omega)]
      exact seekForward_eq_outOfRange_iff_of_lastHour hlate (by omega) haccept
    · -- the last hour lies ahead as a whole
      have hhorizon := horizonAfter_bounds hwall hn hn'
      refine iff_of_false ?_ ?_
      · refine seekForward_ne_outOfRange (by omega) hearly hhorizon.1 ?_ haccept
        simp only [longestSearch]
        omega
      · rintro ⟨⟨v, hv, hv', hadm⟩, hnone⟩
        rw [hnone v (by omega) hv'] at hadm
        cases hadm
  · rw [if_neg (by omega)]
    exact iff_of_true rfl (.inl heq)

theorem prev_eq_outOfRange_iff (hn : 1 ≤ years) (hn' : years ≤ 400) :
    p.prev years t = .outOfRange ↔ p.RunsOffStart t := by
  have hin := (Reading.inRange_iff t).1 ht
  have hfrom := secondFrom_bounds t
  have hsecond : (p.zone.wallAt t).second = t.second := by rw [hz]; exact Zone.faceAt_utc _
  have htop : secondFrom (p.zone.wallAt t) = secondFrom t := by
    rw [secondFrom_wallAt, hz, Zone.faceAt_utc]
    omega
  rw [prev_eq_seekBefore_utc hz ht, seekBefore, htop, RunsOffStart]
  rcases Int.lt_or_eq_of_le (Int.le_trans hin.1 hfrom.1) with hlt | heq
  · have haccept : ∀ v, earliestSecond ≤ v → v ≤ secondFrom t - 1 → p.lastBefore t v ≠ none :=
      fun v hv hv' => lastBefore_ne_none_utc hz ht hv (by omega)
    rw [if_pos hlt, or_iff_right (by omega)]
    rcases Int.lt_or_le (secondFrom t - 1) (earliestSecond + 3600) with hearly | hlate
    · rw [horizonBefore_of_early hn hn' (by omega)]
      exact seekBackward_eq_outOfRange_iff_of_firstHour (by omega) hearly haccept
    · -- the first hour lies behind as a whole
      have hhorizon : earliestSecond ≤ secondFrom (horizonBefore years (p.zone.wallAt t)) :=
        Int.le_trans (earliestSecond_le_horizonBefore hn hn') (secondFrom_bounds _).1
      refine iff_of_false (seekBackward_ne_outOfRange hlate (by omega) hhorizon haccept) ?_
      rintro ⟨⟨v, hv, hv', hadm⟩, hnone⟩
      rw [hnone v hv (by omega)] at hadm
      cases hadm
  · rw [if_neg (by omega)]
    exact iff_of_true rfl (.inl heq.symm)

end

end Plan

namespace Engine

variable {e : Engine} {s : Schedule} {t : Instant}

def Answers (e : Engine) (r : Outcome Instant) : Prop :=
  (∃ u, r = .ok u) ∨ r = .error (.exhausted e.horizon)

theorem answers_ofFound_iff {r : Found Instant} : e.Answers (e.ofFound r) ↔ r ≠ .outOfRange := by
  cases r <;> simp [Answers, ofFound]

/-- On the clocks of UTC a search answers, unless it runs off the range. -/
theorem answers_iff (hs : s.special = none) (hz : (e.timezoneOf s).zone = .utc) (ht : t.InRange) :
    (e.Answers (e.next s t) ↔ ¬ (s.plan e.timezone.zone).RunsOffEnd t) ∧
      (e.Answers (e.prev s t) ↔ ¬ (s.plan e.timezone.zone).RunsOffStart t) := by
  have hplan : (s.plan e.timezone.zone).zone = .utc := by rw [zone_plan, hz]
  constructor
  · rw [next_eq hs, answers_ofFound_iff, Ne,
      Plan.next_eq_outOfRange_iff hplan ht e.horizon_pos e.horizon_le]
  · rw [prev_eq hs, answers_ofFound_iff, Ne,
      Plan.prev_eq_outOfRange_iff hplan ht e.horizon_pos e.horizon_le]

def halfPast : Schedule where
  second := (Field.parse _ "0").toOption
  minute := (Field.parse _ "30").toOption

def firstHalfPast : Instant := .ofSecond (earliestSecond + 1800)

def lastHalfPast : Instant := .ofSecond (latestSecond - 1799)

def beforeLastHalfPast : Instant := .ofSecond (latestSecond - 1800)

theorem answers_halfPast : halfPast.special = none ∧
    (default.timezoneOf halfPast).zone = .utc ∧ beforeLastHalfPast.InRange ∧
    default.Answers (default.next halfPast beforeLastHalfPast) ∧
    default.Answers (default.prev halfPast beforeLastHalfPast) := by
  have hin : beforeLastHalfPast.InRange := by decide
  have hends := answers_iff (e := default) (s := halfPast) rfl rfl hin
  have hfirst : (halfPast.plan .utc).admits firstHalfPast.second = true := by decide +kernel
  have hlast : (halfPast.plan .utc).admits lastHalfPast.second = true := by decide +kernel
  refine ⟨rfl, rfl, hin, hends.1.2 ?_, hends.2.2 ?_⟩
  · rintro (hend | ⟨-, hnone⟩)
    · exact absurd hend (by decide)
    · exact absurd (hlast.symm.trans (hnone _ (by decide) (by decide))) (by decide)
  · rintro (hstart | ⟨-, hnone⟩)
    · exact absurd hstart (by decide)
    · exact absurd (hfirst.symm.trans (hnone _ (by decide) (by decide))) (by decide)

theorem not_answers_halfPast : lastHalfPast.InRange ∧ firstHalfPast.InRange ∧
    ¬ default.Answers (default.next halfPast lastHalfPast) ∧
    ¬ default.Answers (default.prev halfPast firstHalfPast) := by
  have hnext : default.next halfPast lastHalfPast = .outOfRange := by decide +kernel
  have hprev : default.prev halfPast firstHalfPast = .outOfRange := by decide +kernel
  refine ⟨by decide, by decide, ?_, ?_⟩
  · rw [hnext]
    rintro (⟨u, hu⟩ | hexhausted)
    · cases hu
    · cases hexhausted
  · rw [hprev]
    rintro (⟨u, hu⟩ | hexhausted)
    · cases hu
    · cases hexhausted

end Engine

end Timetable
