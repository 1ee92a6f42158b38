import Timetable.Proofs.Duration.Anchored
import Timetable.Proofs.Engine.Ending

namespace Timetable

open Calendar

namespace Duration

variable {d : Duration} {p : Period} {t : Instant} {w : WallTime}

/-- Every number on the way from `t` to the instant that is named fits into its 64 bits, every date and
every time lies in the calendar's range, and the last wall time is one that wall clocks show. -/
structure Representable (d : Duration) (z : Zone) (t : Instant) : Prop where
  days : d.calendarShift.days < UInt64.size
  weeks : 7 * d.anchorOffset.toNat < UInt64.size
  seconds : d.timeSeconds ≤ maxLengthSeconds
  shifted : (d.shift (z.wallAt t)).InRange
  reached : (d.reached (z.wallAt t)).InRange
  dated : ∀ p, d.reference.period? = some p → (d.anchoredDate p (z.wallAt t)).InRange
  ended : (d.wallEnd (z.wallAt t)).InRange
  shown : z.instantsAt (d.wallEnd (z.wallAt t)) ≠ []
  result : ∃ u, d.evaluate? z t = some u ∧ u.InRange

theorem amountBesideAnchor_lt (d : Duration) (x : TimeUnit) : d.amountBesideAnchor x < UInt32.size :=
  Nat.lt_of_le_of_lt (d.amountBesideAnchor_le_amount x) (d.amount x).toNat_lt

theorem days_calendarShift_lt (d : Duration) : d.calendarShift.days < UInt64.size := by
  have hweeks := d.amountBesideAnchor_lt .weeks
  have hdays := d.amountBesideAnchor_lt .days
  simp only [calendarShift, UInt32.size, UInt64.size] at *
  omega

theorem timeSeconds_le (d : Duration) : d.timeSeconds ≤ maxLengthSeconds := by
  have hmax : maxLengthSeconds = 9223372036854775 := by decide
  have hhours := d.hours.toNat_lt
  have hminutes := d.minutes.toNat_lt
  have hseconds := d.seconds.toNat_lt
  rw [timeSeconds, hmax]
  omega

theorem additiveBase_utc (d : Duration) (t : Instant) :
    d.additiveBase .utc t = Zone.utc.resolve (d.shift (Zone.utc.wallAt t)) := by
  simp only [additiveBase]
  split
  · next h =>
    rw [h, Zone.resolve_utc]
    exact (Zone.instantUnder_wallAt .utc t).symm
  · rfl

theorem onward_additiveBase_utc (d : Duration) (t : Instant) : t.Onward (d.additiveBase .utc t) := by
  have hshift := d.onward_shift (Zone.utc.wallAt t)
  have hsecond := hshift.second_le
  rw [Zone.second_wallAt, Zone.faceAt_utc] at hsecond
  rw [additiveBase_utc, Zone.resolve_utc]
  refine ⟨?_, hshift.nano_eq⟩
  rw [Zone.instantUnder, Int.sub_zero]
  exact hsecond

theorem le_evaluate_utc_of_additive (hp : d.reference.period? = none) (ht : t.isLeap = false) :
    t ≤ d.evaluate .utc t := by
  have hbase := d.onward_additiveBase_utc t
  rw [evaluate_of_additive hp, evaluateAdditive]
  cases h : (d.additiveBase .utc t).addSeconds? d.timeSeconds with
  | none => exact hbase.le
  | some u =>
    have hplain : (d.additiveBase .utc t).isLeap = false := by rw [hbase.isLeap_eq, ht]
    exact (hbase.trans (Reading.onward_of_addSeconds? (by omega) hplain h)).le

theorem le_evaluate_utc_of_not_fromStart (hp : d.reference.period? = some p) (hs : d.fromStart = false)
    (ht : t.isLeap = false) : t ≤ d.evaluate .utc t := by
  have hplain : (Zone.utc.wallAt t).isLeap = false := ht
  have hdate := d.date_le_anchoredDate p hplain
  rw [Zone.date_wallAt_utc] at hdate
  rw [evaluate_utc_of_not_fromStart hp hs]
  exact Reading.le_endOfDate ht (Int.le_trans hdate (p.le_last _))

/-- Whatever the amounts, an instant of the range comes out, and the end of a session is no earlier than
its beginning. -/
theorem evaluate_degrades (d : Duration) (ht : t.InRange) (hplain : t.isLeap = false) :
    d.Representable .utc t ∧ ∃ u, d.evaluate? .utc t = some u ∧ u.InRange ∧
      (d.reference.isAnchored = false ∨ d.fromStart = false → t ≤ u) := by
  have hw := Zone.inRange_wallAt_utc ht
  have hended := d.inRange_wallEnd hw
  have hshown : Zone.utc.instantsAt (d.wallEnd (Zone.utc.wallAt t)) ≠ [] := by
    rw [Zone.instantsAt_utc_of_inRange hended]
    exact List.cons_ne_nil _ _
  have hweeks : 7 * d.anchorOffset.toNat < UInt64.size := by
    have hoffset := d.anchorOffset.toNat_lt
    simp only [UInt64.size]
    omega
  have heval := d.evaluate?_utc ht
  have hin := (d.staysInRange_utc ht).inRange_evaluate ht
  refine ⟨⟨d.days_calendarShift_lt, hweeks, d.timeSeconds_le, d.inRange_shift hw, d.inRange_reached hw,
    fun p _ => d.inRange_anchoredDate p hw, hended, hshown, _, heval, hin⟩, _, heval, hin, ?_⟩
  intro h
  cases hp : d.reference.period? with
  | none => exact le_evaluate_utc_of_additive hp hplain
  | some p =>
    have hs : d.fromStart = false := by simpa [Reference.isAnchored, hp] using h
    exact le_evaluate_utc_of_not_fromStart hp hs hplain

def beyondTheCalendar : Duration :=
  { ending .month with years := 4294967295, months := 4294967295, hours := 4294967295 }

def lastNanosecond : Instant := .latest

theorem evaluate_degrades_lastNanosecond : lastNanosecond.InRange ∧ lastNanosecond.isLeap = false ∧
    beyondTheCalendar.calendarShift.addTo? (Zone.utc.wallAt lastNanosecond) = none ∧
    (Zone.utc.wallAt lastNanosecond).addSeconds? beyondTheCalendar.timeSeconds = none ∧
    beyondTheCalendar.advance? .month (Zone.utc.wallAt lastNanosecond).date = none ∧
    beyondTheCalendar.Representable .utc lastNanosecond ∧
    beyondTheCalendar.evaluate? .utc lastNanosecond = some lastNanosecond ∧
    ∃ u, beyondTheCalendar.evaluate? .utc lastNanosecond = some u ∧ lastNanosecond ≤ u := by
  have ht : lastNanosecond.InRange := by decide
  obtain ⟨hr, u, hu, -, hle⟩ := evaluate_degrades beyondTheCalendar ht (by decide)
  exact ⟨ht, by decide, by decide +kernel, by decide +kernel, by decide +kernel, hr, by decide +kernel,
    u, hu, hle (.inr rfl)⟩

end Duration

end Timetable
