import Timetable.Engine
import Timetable.Proofs.Duration.Evaluate
import Timetable.Zone.Table

namespace Timetable

open Calendar

namespace CalendarShift

theorem onward_addTo? {s : CalendarShift} {w w' : WallTime} (h : s.addTo? w = some w') :
    w.Onward w' := by
  obtain ⟨w₁, h₁, h⟩ := Option.bind_eq_some_iff.1 h
  obtain ⟨w₂, h₂, h₃⟩ := Option.bind_eq_some_iff.1 h
  have hyears := Reading.onward_of_addMonths? (by omega) h₁
  have hmonths := Reading.onward_of_addMonths? (by omega) h₂
  have hdays := Reading.onward_of_addDays? (by omega) h₃
  exact (hyears.trans hmonths).trans hdays

end CalendarShift

namespace Duration

variable {d : Duration} {p : Period} {z : Zone} {t : Instant} {w : WallTime}

def secondsAfter (d : Duration) : Nat := if d.reference.isAnchored then 0 else d.timeSeconds

structure EndsInRange (d : Duration) (z : Zone) (t : Instant) : Prop where
  wall : (z.wallAt t).InRange
  maps : d.MapsBack (z.wallAt t) → z.Maps (d.wallEnd (z.wallAt t))
  added : d.reference.isAnchored = false →
    ((d.additiveBase z t).addSeconds? d.timeSeconds).isSome = true

theorem EndsInRange.staysInRange (hr : d.EndsInRange z t) (hz : z.Regular) : d.StaysInRange z t :=
  ⟨hr.wall, fun h => (hr.maps h).inRange_resolve hz⟩

/-- `t` lies in the second pass through a stretch of `k` seconds, and the wall time that is mapped back is
one of the same stretch; with the seconds that are added, it lies less than `k` ahead. -/
def EndsSooner (d : Duration) (z : Zone) (t : Instant) : Prop :=
  d.MapsBack (z.wallAt t) ∧ ∃ k, z.InSecondPass t (d.wallEnd (z.wallAt t)) k ∧
    (d.wallEnd (z.wallAt t)).second + d.secondsAfter < z.faceAt t.second + k

theorem onward_shift (d : Duration) (w : WallTime) : w.Onward (d.shift w) := by
  rw [shift]
  cases h : d.calendarShift.addTo? w with
  | none => exact .refl w
  | some w' => exact CalendarShift.onward_addTo? h

theorem onward_reached (d : Duration) (hw : w.isLeap = false) : w.Onward (d.reached w) := by
  have hshift := d.onward_shift w
  simp only [reached]
  cases h : (d.shift w).addSeconds? d.timeSeconds with
  | none => exact hshift
  | some w' =>
    have hplain : (d.shift w).isLeap = false := by rw [hshift.isLeap_eq, hw]
    exact hshift.trans (Reading.onward_of_addSeconds? (by omega) hplain h)

theorem date_le_anchoredDate (d : Duration) (p : Period) (hw : w.isLeap = false) :
    w.date.number ≤ (d.anchoredDate p w).number := by
  have hreached := (d.onward_reached hw).date_le
  simp only [anchoredDate]
  cases h : d.advance? p (d.reached w).date with
  | none => exact hreached
  | some e => exact Int.le_trans hreached (Period.le_of_advance? h)

theorem le_wallEnd (hd : d.fromStart = false) (hw : w.isLeap = false) :
    w.second ≤ (d.wallEnd w).second ∧ w.nano ≤ (d.wallEnd w).nano ∧
      (d.wallEnd w).isLeap = false := by
  rw [wallEnd]
  cases d.reference.period? with
  | none =>
    have hshift := d.onward_shift w
    exact ⟨hshift.second_le, Nat.le_of_eq hshift.nano_eq.symm, hshift.isLeap_eq.trans hw⟩
  | some p =>
    have hdate := Int.le_trans (d.date_le_anchoredDate p hw) (p.le_last _)
    have hle := Reading.le_endOfDate hw hdate
    have hnano : w.nano < nanosPerSecond := by simpa [Reading.isLeap] using hw
    simp only [boundary, hd, Bool.false_eq_true, if_false]
    refine ⟨?_, ?_, rfl⟩
    · rw [Reading.le_def] at hle
      omega
    · exact Nat.le_of_lt_succ hnano

theorem evaluate_of_mapsBack (h : d.MapsBack (z.wallAt t)) (hr : d.EndsInRange z t) :
    d.evaluate z t = (z.resolve (d.wallEnd (z.wallAt t))).addSeconds d.secondsAfter := by
  cases ha : d.reference.isAnchored with
  | false =>
    have hp : d.reference.period? = none := by simpa [Reference.isAnchored] using ha
    have hmoved : d.shift (z.wallAt t) ≠ z.wallAt t := h.resolve_left (by simp [ha])
    have hbase : d.additiveBase z t = z.resolve (d.wallEnd (z.wallAt t)) := by
      rw [additiveBase, if_neg hmoved, wallEnd, hp]
    obtain ⟨hadd, -⟩ := Reading.addSeconds?_of_isSome (hr.added ha)
    rw [evaluate_of_additive hp, evaluateAdditive, hadd, Option.getD_some, hbase, secondsAfter, ha]
    rfl
  | true =>
    rw [evaluate, if_pos ha, secondsAfter, if_pos ha, Int.natCast_zero, Reading.addSeconds_zero]

theorem le_evaluate_of_not_mapsBack (h : ¬ d.MapsBack (z.wallAt t)) (ht : t.isLeap = false) :
    t ≤ d.evaluate z t := by
  rw [MapsBack, Reference.isAnchored, not_or] at h
  have hp : d.reference.period? = none := by simpa using h.1
  have hbase : d.additiveBase z t = t := if_pos (Classical.not_not.1 h.2)
  rw [evaluate_of_additive hp, evaluateAdditive, hbase]
  cases ha : t.addSeconds? d.timeSeconds with
  | none => exact (Reading.Onward.refl t).le
  | some u => exact (Reading.onward_of_addSeconds? (by omega) ht ha).le

theorem le_evaluate_iff (hz : z.Regular) (ht : t.isLeap = false) (hd : d.fromStart = false)
    (hr : d.EndsInRange z t) : t ≤ d.evaluate z t ↔ ¬ d.EndsSooner z t := by
  by_cases h : d.MapsBack (z.wallAt t)
  · have hplain : (z.wallAt t).isLeap = false := ht
    obtain ⟨hsecond, hnano, hleap⟩ := le_wallEnd hd hplain
    rw [evaluate_of_mapsBack h hr,
      Zone.le_addSeconds_resolve_iff hz (hr.maps h) hsecond hnano hleap, EndsSooner]
    simp only [h, true_and]
  · exact iff_of_true (le_evaluate_of_not_mapsBack h ht) fun hs => h hs.1

end Duration

namespace Engine

variable {d : Duration} {z : Zone} {t : Instant}

/-- A session does not end before it begins, unless it begins in the second pass through a repeated
stretch and its end is told by a time of the same stretch. -/
theorem le_endOf_iff_not_endsSooner (hz : z.Regular) (ht : t.isLeap = false)
    (hd : d.fromStart = false) (hr : d.EndsInRange z t) :
    ∃ u, d.evaluate? z t = some u ∧ (t ≤ u ↔ ¬ d.EndsSooner z t) ∧
      ∀ (e : Engine) (s : Schedule), (e.timezoneOf s).zone = z → s.endOfDuration = some d →
        e.endOf s t = .ok (some u) := by
  have heval := Duration.evaluate?_of_staysInRange (hr.staysInRange hz)
  refine ⟨d.evaluate z t, heval, Duration.le_evaluate_iff hz ht hd hr, ?_⟩
  intro e s hzone hs
  simp only [endOf, hs, hzone, heval]
  rfl

section
open Term

def lateEvenings : Schedule where
  second := some ⟨"00", [progression 0 0 1], by rfl⟩
  minute := some ⟨"30", [progression 30 30 1], by rfl⟩
  hour := some ⟨"23", [progression 23 23 1], by rfl⟩
  timezone := some ⟨"America/Sao_Paulo", Zone.saoPaulo⟩
  endOfDuration := some (.ending .day)

end

def lateEvening : Instant := .ofSecond 1550367000 -- 2019-02-17T01:30:00Z

def lateEveningAgain : Instant := .ofSecond 1550370600 -- 2019-02-17T02:30:00Z

def endOfFirstPass : Instant := ⟨1550368799, 999999999, by decide⟩ -- 2019-02-17T01:59:59.999999999Z

theorem endsInRange_lateEvening :
    (Duration.ending .day).EndsInRange Zone.saoPaulo lateEvening ∧
      (Duration.ending .day).EndsInRange Zone.saoPaulo lateEveningAgain :=
  ⟨⟨by decide +kernel, by decide +kernel, by decide +kernel⟩,
    ⟨by decide +kernel, by decide +kernel, by decide +kernel⟩⟩

theorem le_endOf_lateEvening : Zone.saoPaulo.Regular ∧ lateEvening.isLeap = false ∧
    (Duration.ending .day).fromStart = false ∧
    (Duration.ending .day).EndsInRange Zone.saoPaulo lateEvening ∧
    ¬ (Duration.ending .day).EndsSooner Zone.saoPaulo lateEvening ∧
    ∃ u, default.endOf lateEvenings lateEvening = .ok (some u) ∧ lateEvening ≤ u := by
  have hz : Zone.saoPaulo.Regular := by decide
  have hr := endsInRange_lateEvening.1
  obtain ⟨u, -, hiff, hendOf⟩ := le_endOf_iff_not_endsSooner hz (by decide) rfl hr
  have hu := hendOf default lateEvenings rfl rfl
  have hend : default.endOf lateEvenings lateEvening = .ok (some endOfFirstPass) := by decide +kernel
  have hle : lateEvening ≤ u := by
    cases hend.symm.trans hu
    decide
  exact ⟨hz, by decide, rfl, hr, hiff.1 hle, u, hu, hle⟩

theorem endOf_lateEveningAgain_lt : Zone.saoPaulo.Regular ∧ lateEveningAgain.isLeap = false ∧
    (Duration.ending .day).fromStart = false ∧
    (Duration.ending .day).EndsInRange Zone.saoPaulo lateEveningAgain ∧
    default.isMatch lateEvenings lateEveningAgain = .ok true ∧
    (Duration.ending .day).evaluate? Zone.saoPaulo lateEveningAgain = some endOfFirstPass ∧
    default.endOf lateEvenings lateEveningAgain = .ok (some endOfFirstPass) ∧
    endOfFirstPass < lateEveningAgain :=
  ⟨by decide, by decide, rfl, endsInRange_lateEvening.2, by decide +kernel, by decide +kernel,
    by decide +kernel, by decide⟩

end Engine

end Timetable
