import Timetable.Proofs.Calendar.Cycle
import Timetable.Proofs.Engine.Next
import Timetable.Proofs.Engine.Prev

namespace Timetable

open Calendar

@[simp] theorem Term.containsDay_addCycles (x : Term) (d : Date) (k : Int) :
    x.containsDay (d.addCycles k) = x.containsDay d := by
  cases x with
  | progression => rfl
  | lastDay =>
    rw [Bool.eq_iff_iff]
    simp only [containsDay, beq_iff_eq, Date.lastOfMonth_addCycles, Date.addCycles_inj]
  | lastWeekday n =>
    simp only [containsDay, Date.lastOfMonth_addCycles, Date.day_addCycles,
      Date.daysFromSunday_addCycles]
  | nthWeekday n i => simp only [containsDay, Date.day_addCycles, Date.daysFromSunday_addCycles]

@[simp] theorem Field.admitsDay_addCycles {k : FieldKind} (f : Field k) (d : Date) (n : Int) :
    f.admitsDay (d.addCycles n) = f.admitsDay d := by
  cases k <;> simp [admitsDay]

namespace Calendar.Reading

variable {c : Clock} {r : Reading c} {m n : Nat}

def YearsInside (n : Nat) (r : Reading c) : Prop :=
  (r.addMonths? (12 * n)).isSome ∧ (r.addMonths? (-(12 * n))).isSome

instance (n : Nat) (r : Reading c) : Decidable (r.YearsInside n) :=
  inferInstanceAs (Decidable (_ ∧ _))

theorem yearsInside_iff : r.YearsInside n ↔
    (r.date.addMonths (12 * n)).InRange ∧ (r.date.addMonths (-(12 * n))).InRange := by
  simp only [YearsInside, addMonths?, Date.addMonths?, Date.inRange?, Option.isSome_map]
  split <;> split <;> simp [*]

theorem YearsInside.cycle_left (h : r.YearsInside 401) :
    Date.earliest.number < r.date.number - daysPerCycle ∧
      r.date.number + daysPerCycle < Date.latest.number := by
  obtain ⟨hlater, hsooner⟩ := yearsInside_iff.1 h
  have h₁ : _ < (r.date.addMonths (12 * (401 : Nat))).number :=
    r.date.addMonths_lt_addMonths (show 12 * (400 * 1) < 12 * 401 by decide)
  have h₂ : (r.date.addMonths (-(12 * (401 : Nat)))).number < _ :=
    r.date.addMonths_lt_addMonths (show -(12 * 401) < 12 * (400 * -1) by decide)
  rw [Date.addMonths_cycles, Date.number_addCycles] at h₁ h₂
  have := hlater.2
  have := hsooner.1
  omega

theorem YearsInside.inRange (h : r.YearsInside 401) : r.InRange := by
  have hleft := h.cycle_left
  simp only [daysPerCycle] at hleft
  exact ⟨by omega, by omega⟩

theorem YearsInside.second_bounds (h : r.YearsInside 401) :
    earliestSecond + 86400 ≤ r.second - secondsPerCycle ∧
      r.second + secondsPerCycle + 86400 ≤ latestSecond := by
  have hleft := h.cycle_left
  simp only [date, dateOf, daysPerCycle, secondsPerCycle, earliestSecond, latestSecond, dayStart,
    secondsPerDay] at *
  omega

theorem yearsInside_of_between {s : Int} (h₁ : 0 < s) (h₂ : s ≤ secondsPerCycle) :
    (ofSecond s : Reading c).YearsInside 401 := by
  have hd : 0 ≤ (ofSecond s : Reading c).date.number ∧
      (ofSecond s : Reading c).date.number ≤ daysPerCycle := by
    simp only [date, dateOf, ofSecond, secondsPerCycle, secondsPerDay, daysPerCycle] at *
    omega
  rw [yearsInside_iff]
  generalize (ofSecond s : Reading c).date = d at *
  have hlater := d.number_addMonths_years (401 : Nat)
  have hsooner := d.number_addMonths_years (-(401 : Nat))
  have hy₁ := yearStart_add_bounds d.civil.year (k := (401 : Nat)) (by decide)
  have hy₂ := yearStart_add_bounds (d.civil.year + -(401 : Nat)) (k := (401 : Nat)) (by decide)
  rw [Int.neg_add_cancel_right] at hy₂
  rw [Int.mul_neg] at hsooner
  simp only [daysPerCycle] at hd
  refine ⟨⟨?_, ?_⟩, ⟨?_, ?_⟩⟩ <;> simp only [Date.earliest, Date.latest] <;> omega

end Calendar.Reading

namespace WallTime

theorem addMonths?_cycles {w : WallTime} {n k : Int} (hn : n = 12 * (400 * k))
    (h : (w.date.addCycles k).InRange) :
    w.addMonths? n = some ⟨w.second + secondsPerCycle * k, w.nano, w.nano_lt⟩ := by
  rw [hn, Reading.addMonths?, Date.addMonths?, Date.addMonths_cycles, Date.inRange?, if_pos h,
    Option.map_some, Option.some.injEq, Reading.eq_iff]
  refine ⟨?_, rfl⟩
  have := second_eq_date w
  simp only [Reading.onDate, Date.number_addCycles, dayStart, secondsPerCycle, daysPerCycle,
    secondsPerDay] at *
  omega

end WallTime

namespace Plan

variable {p : Plan} {t : Instant}

theorem admits_add_cycles (hy : p.year = none) (t k : Int) :
    p.admits (t + secondsPerCycle * k) = p.admits t := by
  simp only [admits, dateOf_add_cycles, hourOf_add_cycles, minuteOf_add_cycles, secondOf_add_cycles,
    admitsDate, admitsYear, hy, Date.month_addCycles, admitsDay, admitsDayOf,
    Field.admitsDay_addCycles, Date.isoWeek_addCycles]

theorem exists_admits_between (hy : p.year = none) {v : Int} (hv : p.admits v = true) (a : Int) :
    ∃ u, a < u ∧ u ≤ a + secondsPerCycle ∧ p.admits u = true := by
  obtain ⟨k, h₁, h₂⟩ := exists_add_cycles_between v a
  exact ⟨_, h₁, h₂, (admits_add_cycles hy v k).trans hv⟩

theorem not_skipsRepeat_utc (hz : p.zone = .utc) : ¬ p.SkipsRepeat t := by
  rintro ⟨-, hback, -⟩
  rw [hz, Zone.utc, Zone.offsetAt_fixed, Zone.offsetAt_fixed] at hback
  omega

section
variable {years : Nat} (hz : p.zone = .utc) (hn : 1 ≤ years) (hn' : years ≤ 400)
include hz hn hn'

theorem next_of_window (hr : p.RoomAhead years t) (h : ∀ v, p.admits v = true →
    ∃ u, t.second < u ∧ u ≤ p.horizonFace years t ∧ p.admits u = true) :
    p.next years t ≠ .outOfRange ∧ (p.next years t = .exhausted ↔ ∀ v, p.admits v = false) := by
  have hnext := next_isNext (by rw [hz]; decide) hr hn hn' (not_skipsRepeat_utc hz)
  cases hf : p.next years t with
  | outOfRange =>
    rw [hf] at hnext
    exact hnext.elim
  | found u =>
    rw [hf] at hnext
    obtain ⟨s, -, hs, -⟩ := hnext
    refine ⟨nofun, nofun, fun hnone => ?_⟩
    have hs := hs.2.2
    rw [hnone] at hs
    cases hs
  | exhausted =>
    rw [hf] at hnext
    refine ⟨nofun, iff_of_true rfl fun v => ?_⟩
    rw [← Bool.not_eq_true]
    intro hv
    obtain ⟨s, h₁, h₂, hs⟩ := h v hv
    have hlast := (hr.horizonFace_bounds hn hn').2.2
    have hface : p.zone.faceAt s = s := by rw [hz, Zone.faceAt_utc]
    have := hnext s ⟨h₁, by omega, by rw [hface, hs]⟩
    omega

theorem prev_of_window (hr : p.RoomBehind years t) (h : ∀ v, p.admits v = true →
    ∃ u, u < secondFrom t ∧ p.horizonFaceBehind years t ≤ u ∧ p.admits u = true) :
    p.prev years t ≠ .outOfRange ∧ (p.prev years t = .exhausted ↔ ∀ v, p.admits v = false) := by
  have hprev := prev_isPrev (by rw [hz]; decide) hr hn hn'
  cases hf : p.prev years t with
  | outOfRange =>
    rw [hf] at hprev
    exact hprev.elim
  | found u =>
    rw [hf] at hprev
    obtain ⟨s, -, hs, -⟩ := hprev
    refine ⟨nofun, nofun, fun hnone => ?_⟩
    have hs := hs.2.2
    rw [hnone] at hs
    cases hs
  | exhausted =>
    rw [hf] at hprev
    refine ⟨nofun, iff_of_true rfl fun v => ?_⟩
    rw [← Bool.not_eq_true]
    intro hv
    obtain ⟨s, h₁, h₂, hs⟩ := h v hv
    have hfirst := (hr.horizonFaceBehind_bounds hn hn').2
    have hface : p.zone.faceAt s = s := by rw [hz, Zone.faceAt_utc]
    have := hprev s ⟨h₁, by omega, by rw [hface, hs]⟩
    omega

end

section
variable (hz : p.zone = .utc) (ht : t.YearsInside 401)
include hz ht

theorem addMonths?_wallAt {n k : Int} (hn : n = 12 * (400 * k)) (hk : k = 1 ∨ k = -1) :
    (p.zone.wallAt t).addMonths? n =
      some ⟨t.second + secondsPerCycle * k, t.nano, t.nano_lt⟩ := by
  have hleft := ht.cycle_left
  have hface : p.zone.faceAt t.second = t.second := by rw [hz, Zone.faceAt_utc]
  have hdate : (p.zone.wallAt t).date = t.date := congrArg dateOf hface
  have hin : ((p.zone.wallAt t).date.addCycles k).InRange := by
    rw [hdate]
    simp only [daysPerCycle] at hleft
    constructor
    · rw [Date.number_addCycles, daysPerCycle]
      omega
    · rw [Date.number_addCycles, daysPerCycle]
      omega
  rw [WallTime.addMonths?_cycles hn hin, Option.some.injEq, Reading.eq_iff]
  exact ⟨congrArg (· + secondsPerCycle * k) hface, rfl⟩

theorem horizonFace_cycle : p.horizonFace 400 t = t.second + secondsPerCycle := by
  rw [horizonFace, horizonAfter, addMonths?_wallAt hz ht (k := 1) (by decide) (.inl rfl),
    Option.getD_some, Int.mul_one]

theorem horizonFaceBehind_cycle :
    p.horizonFaceBehind 400 t = secondFrom t - secondsPerCycle := by
  rw [horizonFaceBehind, horizonBefore,
    addMonths?_wallAt hz ht (k := -1) (by decide) (.inr rfl), Option.getD_some]
  simp only [secondFrom]
  split <;> omega

theorem roomAhead_cycle : p.RoomAhead 400 t := by
  have hregular : p.zone.Regular := by rw [hz]; decide
  have hbounds := ht.second_bounds
  refine roomAhead_of_far hregular ht.inRange (by decide) (by decide) ?_ ?_ ?_
  · rw [hz, Zone.faceAt_utc]
    simp only [secondsPerCycle, daysPerCycle, secondsPerDay] at hbounds
    omega
  · rw [addMonths?_wallAt hz ht (k := 1) (by decide) (.inl rfl)]
    rfl
  · rw [horizonFace_cycle hz ht]
    omega

theorem roomBehind_cycle : p.RoomBehind 400 t := by
  have hregular : p.zone.Regular := by rw [hz]; decide
  have hbounds := ht.second_bounds
  have hfrom := secondFrom_bounds t
  refine roomBehind_of_far hregular ht.inRange (by decide) (by decide) ?_ ?_ ?_
  · rw [hz, Zone.faceAt_utc]
    simp only [secondsPerCycle, daysPerCycle, secondsPerDay] at hbounds
    omega
  · rw [addMonths?_wallAt hz ht (k := -1) (by decide) (.inr rfl)]
    rfl
  · rw [horizonFaceBehind_cycle hz ht]
    omega

theorem next_cycle (hy : p.year = none) :
    p.next 400 t ≠ .outOfRange ∧ (p.next 400 t = .exhausted ↔ ∀ v, p.admits v = false) := by
  refine next_of_window hz (by decide) (by decide) (roomAhead_cycle hz ht) fun v hv => ?_
  rw [horizonFace_cycle hz ht]
  exact exists_admits_between hy hv t.second

theorem prev_cycle (hy : p.year = none) :
    p.prev 400 t ≠ .outOfRange ∧ (p.prev 400 t = .exhausted ↔ ∀ v, p.admits v = false) := by
  refine prev_of_window hz (by decide) (by decide) (roomBehind_cycle hz ht) fun v hv => ?_
  obtain ⟨u, h₁, h₂, hu⟩ := exists_admits_between hy hv (secondFrom t - secondsPerCycle - 1)
  rw [horizonFaceBehind_cycle hz ht]
  exact ⟨u, by omega, by omega, hu⟩

end

end Plan

namespace Engine

variable {e : Engine} {s : Schedule} {t : Instant}

/-- A search from `t` gives up only on a schedule that no instant matches; nor is there one then that
matches only near the ends of the range. -/
structure Complete (e : Engine) (s : Schedule) (t : Instant) : Prop where
  next_ne : e.next s t ≠ .outOfRange
  next : e.next s t = .error (.exhausted e.horizon) ↔
    ∀ v : Instant, v.InRange → e.isMatch s v = .ok false
  prev_ne : e.prev s t ≠ .outOfRange
  prev : e.prev s t = .error (.exhausted e.horizon) ↔
    ∀ v : Instant, v.InRange → e.isMatch s v = .ok false
  inside : (∀ v : Instant, v.YearsInside 401 → e.isMatch s v = .ok false) →
    ∀ v : Instant, v.InRange → e.isMatch s v = .ok false

theorem ofFound_eq_exhausted_iff {r : Found Instant} :
    e.ofFound r = .error (.exhausted e.horizon) ↔ r = .exhausted := by
  cases r <;> simp [ofFound]

section
variable (hs : s.special = none) (hz : (e.timezoneOf s).zone = .utc)
include hs hz

theorem isMatch_eq_admits {v : Instant} (hv : v.InRange) :
    e.isMatch s v = .ok ((s.plan e.timezone.zone).admits v.second) := by
  have hwall := Zone.inRange_wallAt_utc hv
  rw [← hz] at hwall
  rw [isMatch_of_inRange hs hwall, hz, Zone.faceAt_utc]

theorem exists_isMatch_inside (hy : s.year = none) {v : Int}
    (hv : (s.plan e.timezone.zone).admits v = true) :
    ∃ u : Instant, u.YearsInside 401 ∧ e.isMatch s u = .ok true := by
  obtain ⟨u, h₁, h₂, hu⟩ := Plan.exists_admits_between hy hv 0
  have hinside : (Reading.ofSecond u : Instant).YearsInside 401 :=
    Reading.yearsInside_of_between h₁ (by omega)
  exact ⟨_, hinside, (isMatch_eq_admits hs hz hinside.inRange).trans (congrArg Outcome.ok hu)⟩

theorem forall_inRange_iff (hy : s.year = none) :
    (∀ v : Instant, v.InRange → e.isMatch s v = .ok false) ↔
      ∀ v, (s.plan e.timezone.zone).admits v = false := by
  constructor
  · intro hnone v
    rw [← Bool.not_eq_true]
    intro hv
    obtain ⟨u, hin, hu⟩ := exists_isMatch_inside hs hz hy hv
    rw [hnone u hin.inRange] at hu
    cases hu
  · intro hnone v hin
    rw [isMatch_eq_admits hs hz hin, hnone]

end

theorem complete_of_maxHorizon (he : e.horizon = maxHorizon) (hs : s.special = none)
    (hy : s.year = none) (hz : (e.timezoneOf s).zone = .utc) (ht : t.YearsInside 401) :
    e.Complete s t := by
  have hplan : (s.plan e.timezone.zone).zone = .utc := by rw [zone_plan, hz]
  have hnext := Plan.next_cycle hplan ht hy
  have hprev := Plan.prev_cycle hplan ht hy
  rw [show 400 = e.horizon from he.symm] at hnext hprev
  have hall := forall_inRange_iff hs hz hy
  constructor
  · rw [next_eq hs]
    exact ofFound_ne_outOfRange hnext.1
  · rw [next_eq hs, ofFound_eq_exhausted_iff, hnext.2, hall]
  · rw [prev_eq hs]
    exact ofFound_ne_outOfRange hprev.1
  · rw [prev_eq hs, ofFound_eq_exhausted_iff, hprev.2, hall]
  · intro hinside v hv
    rw [isMatch_eq_admits hs hz hv, Outcome.ok.injEq, ← Bool.not_eq_true]
    intro hadmits
    obtain ⟨u, hin, hu⟩ := exists_isMatch_inside hs hz hy hadmits
    rw [hinside u hin] at hu
    cases hu

section
open Term

def farSighted : Engine where
  horizon := maxHorizon

def thirtyFirstOfFebruary : Schedule where
  dayOfMonth := some ⟨"31", [progression 31 31 1], by rfl⟩
  month := some ⟨"2", [progression 2 2 1], by rfl⟩

def leapSecondOfLeapDay : Instant := ⟨951868799, 1000000000, leapNano_lt⟩ -- 2000-02-29T23:59:60Z

theorem isMatch_thirtyFirstOfFebruary {v : Instant} (hv : v.InRange) :
    farSighted.isMatch thirtyFirstOfFebruary v = .ok false := by
  rw [isMatch_eq_admits rfl rfl hv, Outcome.ok.injEq]
  by_cases hm : (dateOf v.second).civil.month = 2
  · apply Plan.admits_eq_false_of_day
    have hvalid := (dateOf v.second).civil_valid.2.2.2
    have hday : (dateOf v.second).day ≠ 31 := by
      rw [hm, daysInMonth, if_pos rfl] at hvalid
      rw [Date.day]
      split at hvalid <;> omega
    simp [Plan.admitsDay, Plan.admitsDayOf, Schedule.plan, thirtyFirstOfFebruary, Field.isWildcard,
      Field.any, Field.admitsDay, Field.admits, contains, containsDay, Nat.mod_one]
    omega
  · apply Plan.admits_eq_false_of_month
    simp [Schedule.plan, thirtyFirstOfFebruary, Field.admits, contains, Nat.mod_one]
    omega

theorem complete_thirtyFirstOfFebruary : farSighted.horizon = maxHorizon ∧
    thirtyFirstOfFebruary.special = none ∧ thirtyFirstOfFebruary.year = none ∧
    (farSighted.timezoneOf thirtyFirstOfFebruary).zone = .utc ∧ leapSecondOfLeapDay.YearsInside 401 ∧
    farSighted.next thirtyFirstOfFebruary leapSecondOfLeapDay = .error (.exhausted 400) ∧
    farSighted.prev thirtyFirstOfFebruary leapSecondOfLeapDay = .error (.exhausted 400) := by
  have ht : leapSecondOfLeapDay.YearsInside 401 := by decide
  have hall : farSighted.Complete thirtyFirstOfFebruary leapSecondOfLeapDay :=
    complete_of_maxHorizon rfl rfl rfl rfl ht
  refine ⟨rfl, rfl, rfl, rfl, ht, ?_, ?_⟩
  · exact hall.next.2 fun v hv => isMatch_thirtyFirstOfFebruary hv
  · exact hall.prev.2 fun v hv => isMatch_thirtyFirstOfFebruary hv

end

end Engine

end Timetable
