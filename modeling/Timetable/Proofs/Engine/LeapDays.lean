import Timetable.Proofs.Calendar.LeapYears
import Timetable.Proofs.Engine.Complete
import Timetable.Proofs.Field.Denotation
import Timetable.Proofs.Zone.Resolve

/-! A schedule of months and days of the month matches in every leap year or never. -/

namespace Timetable

open Calendar

namespace Field

variable {f : Field .dayOfMonth} {d : Date} {y : Int}

theorem admitsDay_of_admits_day (h : f.admits d.day = true) : f.admitsDay d = true := by
  simp [admitsDay, h]

theorem admitsDay_of_isWildcard (h : f.isWildcard = true) (d : Date) : f.admitsDay d = true := by
  obtain ⟨text, terms, hterms⟩ := f
  simp only [isWildcard, Bool.or_eq_true, beq_iff_eq] at h
  have hall : terms = [.progression 1 31 1] := by
    rcases h with rfl | rfl
    · exact (Except.ok.inj hterms).symm
    · exact (Except.ok.inj hterms).symm
  have hday : 1 ≤ d.day ∧ d.day ≤ 31 :=
    ⟨d.civil_valid.2.2.1, Nat.le_trans d.civil_valid.2.2.2 (daysInMonth_le _ _)⟩
  refine admitsDay_of_admits_day ?_
  simp [admits, hall, Term.contains, Nat.mod_one, hday]

theorem admits_day_or_lastDay (h : f.admitsDay d = true) : f.admits d.day = true ∨
    (d = d.lastOfMonth ∧ ∀ e : Date, e = e.lastOfMonth → f.admitsDay e = true) := by
  obtain ⟨w, hw, hd⟩ := (f.admitsDay_iff_of_dayOfMonth d).1 h
  cases hd with
  | dayOfMonth hn => exact .inl ((f.admits_iff (by decide)).2 ⟨w, hw, hn⟩)
  | lastDay hl =>
    exact .inr ⟨hl, fun e he => (f.admitsDay_iff_of_dayOfMonth e).2 ⟨_, hw, .lastDay he⟩⟩

theorem admitsDay_inYear (hd : isLeapYear d.civil.year = true) (hy : isLeapYear y = true)
    (h : f.admitsDay d = true) : f.admitsDay (d.inYear y) = true := by
  rcases admits_day_or_lastDay h with hn | ⟨hl, hlast⟩
  · refine admitsDay_of_admits_day ?_
    rwa [Date.day, Date.civil_inYear hy]
  · exact hlast _ (Date.lastOfMonth_inYear hd hy hl)

theorem exists_admitsDay_of_leap (hy : isLeapYear y = true) (h : f.admitsDay d = true) :
    ∃ e : Date, e.civil.year = y ∧ e.month = d.month ∧ f.admitsDay e = true := by
  have hcivil := Date.civil_inYear (d := d) hy
  rcases admits_day_or_lastDay h with hn | ⟨-, hlast⟩
  · refine ⟨d.inYear y, by rw [hcivil], by rw [Date.month, hcivil, Date.month], ?_⟩
    refine admitsDay_of_admits_day ?_
    rwa [Date.day, hcivil]
  · refine ⟨(d.inYear y).lastOfMonth, ?_, ?_, hlast _ (Date.lastOfMonth_lastOfMonth _).symm⟩
    · rw [Date.civil_lastOfMonth, hcivil]
    · rw [Date.month, Date.civil_lastOfMonth, hcivil, Date.month]

end Field

namespace Plan

variable {p : Plan} {t : Instant} {d : Date} {y : Int} {years : Nat}

structure OfMonthDays (p : Plan) : Prop where
  year : p.year = none
  weekOfYear : p.weekOfYear = none
  dayOfWeek : p.dayOfWeek.isWildcard = true

theorem OfMonthDays.admitsDate_iff (hp : p.OfMonthDays) : p.admitsDate d = true ↔
    p.month.admits d.month = true ∧ p.dayOfMonth.admitsDay d = true := by
  have hday : p.admitsDayOf d = p.dayOfMonth.admitsDay d := by
    rw [admitsDayOf, hp.dayOfWeek]
    cases h : p.dayOfMonth.isWildcard with
    | true => exact (Field.admitsDay_of_isWildcard h d).symm
    | false => rfl
  simp [admitsDate, admitsYear, admitsDay, hp.year, hp.weekOfYear, hday]

theorem OfMonthDays.admitsDate_inYear (hp : p.OfMonthDays) (hd : isLeapYear d.civil.year = true)
    (hy : isLeapYear y = true) (h : p.admitsDate d = true) : p.admitsDate (d.inYear y) = true := by
  rw [hp.admitsDate_iff] at h ⊢
  refine ⟨?_, Field.admitsDay_inYear hd hy h.2⟩
  rw [Date.month, Date.civil_inYear hy]
  exact h.1

theorem OfMonthDays.exists_admitsDate_of_leap (hp : p.OfMonthDays) (hy : isLeapYear y = true)
    (h : p.admitsDate d = true) : ∃ e : Date, e.civil.year = y ∧ p.admitsDate e = true := by
  obtain ⟨hm, hd⟩ := hp.admitsDate_iff.1 h
  obtain ⟨e, he, hmonth, hday⟩ := Field.exists_admitsDay_of_leap hy hd
  exact ⟨e, he, hp.admitsDate_iff.2 ⟨by rwa [hmonth], hday⟩⟩

theorem admitsDate_of_admits {v : Int} (h : p.admits v = true) : p.admitsDate (dateOf v) = true := by
  simp only [admits, Bool.and_eq_true] at h
  exact h.1.1.1

theorem admits_secondAt {v : Int} (hv : p.admits v = true) (hd : p.admitsDate d = true) :
    p.admits (secondAt d (hourOf v) (minuteOf v) (secondOf v)) = true := by
  have hh := hourOf_lt v
  have hm := minuteOf_lt v
  have hs := secondOf_lt v
  simp only [admits, Bool.and_eq_true] at hv
  rw [admits, dateOf_secondAt hh hm hs, hourOf_secondAt hh hm hs, minuteOf_secondAt hm hs,
    secondOf_secondAt hs]
  simp [hd, hv]

theorem exists_admits_of_admitsDate (hd : p.admitsDate d = true) : ∃ v, p.admits v = true := by
  obtain ⟨h, hh⟩ := p.hour.exists_admits (by decide) (by decide)
  have hlt := (Field.bounds_of_admits hh).2
  simp only [FieldKind.max] at hlt
  have hdate : dateOf (secondAt d h 0 0) = d :=
    dateOf_secondAt (by omega) (by decide) (by decide)
  have hhour : hourOf (secondAt d h 0 0) = h :=
    hourOf_secondAt (by omega) (by decide) (by decide)
  obtain ⟨v, -, -, hv⟩ := exists_admits_of_hour (p := p) (t := secondAt d h 0 0)
    (by rwa [hdate]) (by rwa [hhour])
  exact ⟨v, hv⟩

theorem OfMonthDays.exists_day (hp : p.OfMonthDays) {v : Int} (hv : p.admits v = true) :
    ∃ d : Date, isLeapYear d.civil.year = true ∧ ∀ y, isLeapYear y = true →
      p.admits (secondAt (d.inYear y) (hourOf v) (minuteOf v) (secondOf v)) = true := by
  obtain ⟨d, hd, hadm⟩ :=
    hp.exists_admitsDate_of_leap (y := 2000) (by decide) (admitsDate_of_admits hv)
  have hleap : isLeapYear d.civil.year = true := by rw [hd]; decide
  exact ⟨d, hleap, fun y hy => admits_secondAt hv (hp.admitsDate_inYear hleap hy hadm)⟩

section
variable (hz : p.zone = .utc) (ht : t.InRange)
include hz

theorem addMonths?_wallAt_utc {n : Int} (h : (t.addMonths? n).isSome) :
    ∃ w : WallTime, (p.zone.wallAt t).addMonths? n = some w ∧
      w = (p.zone.wallAt t).onDate (t.date.addMonths n) := by
  have hdate : (p.zone.wallAt t).date = t.date := by rw [hz, Zone.date_wallAt_utc]
  obtain ⟨r, hr⟩ := Option.isSome_iff_exists.1 h
  obtain ⟨d, hd, -⟩ := Option.map_eq_some_iff.1 hr
  refine ⟨_, ?_, rfl⟩
  rw [Reading.addMonths?, hdate, hd, (Date.eq_addMonths_of_addMonths?_eq_some hd).1]
  rfl

theorem secondOfDay_wallAt_utc : ((p.zone.wallAt t).secondOfDay : Int) = t.second % 86400 := by
  have hface : (p.zone.wallAt t).second = t.second := by rw [hz]; exact Zone.faceAt_utc _
  simp only [Reading.secondOfDay, hface, secondsPerDay]
  omega

theorem horizonFace_utc (h : (t.addMonths? (12 * years)).isSome) : p.horizonFace years t =
    dayStart (t.date.addMonths (12 * years)).number + t.second % 86400 := by
  obtain ⟨w, hw, rfl⟩ := addMonths?_wallAt_utc hz h
  rw [horizonFace, horizonAfter, hw, Option.getD_some, ← secondOfDay_wallAt_utc hz]
  rfl

theorem horizonFaceBehind_utc (h : (t.addMonths? (-(12 * years))).isSome) :
    p.horizonFaceBehind years t = dayStart (t.date.addMonths (-(12 * years))).number +
      t.second % 86400 + (secondFrom t - t.second) := by
  obtain ⟨w, hw, rfl⟩ := addMonths?_wallAt_utc hz h
  rw [horizonFaceBehind, horizonBefore, hw, Option.getD_some, ← secondOfDay_wallAt_utc hz]
  simp only [secondFrom, Reading.onDate, Zone.nano_wallAt]
  split <;> omega

include ht

theorem roomAhead_utc (hn : 1 ≤ years) (hn' : years ≤ 400)
    (h : (t.addMonths? (12 * years)).isSome) : p.RoomAhead years t := by
  have hin : (p.zone.wallAt t).InRange := by rw [hz]; exact Zone.inRange_wallAt_utc ht
  refine ⟨ht, hin, ?_, ?_, ?_⟩
  · obtain ⟨w, hw, -⟩ := addMonths?_wallAt_utc hz h
    rw [hw]
    rfl
  · intro first second rest hpair
    rw [hz, Zone.instantsAt_utc_of_inRange (Zone.inRange_wallAt_utc ht)] at hpair
    cases hpair
  · intro w hw hw'
    have hlast := (horizonAfter_bounds hin hn hn').1
    have hrange : (.ofSecond w : WallTime).InRange := by
      rw [Reading.inRange_iff]
      have : earliestSecond ≤ latestSecond - 3600 := by decide
      simp only [Reading.ofSecond]
      omega
    rw [hz, Zone.instantsAt_utc_of_inRange hrange]
    exact List.cons_ne_nil _ _

theorem roomBehind_utc (hn : 1 ≤ years) (hn' : years ≤ 400)
    (h : (t.addMonths? (-(12 * years))).isSome) : p.RoomBehind years t := by
  have hin : (p.zone.wallAt t).InRange := by rw [hz]; exact Zone.inRange_wallAt_utc ht
  refine ⟨ht, hin, ?_, ?_, ?_⟩
  · obtain ⟨w, hw, -⟩ := addMonths?_wallAt_utc hz h
    rw [hw]
    rfl
  · intro first second rest hpair
    rw [hz, Zone.instantsAt_utc_of_inRange (Zone.inRange_wallAt_utc ht)] at hpair
    cases hpair
  · intro w hw hw'
    have hfirst := earliestSecond_le_horizonBefore (w := p.zone.wallAt t) hn hn'
    have hround := (secondFrom_bounds (horizonBefore years (p.zone.wallAt t))).1
    have hrange : (.ofSecond w : WallTime).InRange := by
      rw [Reading.inRange_iff]
      have : earliestSecond + 3600 ≤ latestSecond := by decide
      simp only [Reading.ofSecond]
      omega
    rw [hz, Zone.instantsAt_utc_of_inRange hrange]
    exact List.cons_ne_nil _ _

theorem OfMonthDays.next_exhausted_iff (hp : p.OfMonthDays) (hn : 8 ≤ years) (hn' : years ≤ 400)
    (h : (t.addMonths? (12 * years)).isSome) :
    p.next years t ≠ .outOfRange ∧ (p.next years t = .exhausted ↔ ∀ v, p.admits v = false) := by
  refine next_of_window hz (by omega) hn' (roomAhead_utc hz ht (by omega) hn' h) fun v hv => ?_
  obtain ⟨d, hd, hday⟩ := hp.exists_day hv
  obtain ⟨y, hy, hlo, hhi⟩ := Date.exists_leapYear_ahead hd (hourOf_lt v) (minuteOf_lt v)
    (secondOf_lt v) t.second
  refine ⟨_, hlo, ?_, hday y hy⟩
  have hmono : ((dateOf t.second).addMonths (12 * 8)).number ≤
      ((dateOf t.second).addMonths (12 * years)).number := by
    rcases Nat.lt_or_eq_of_le hn with hlt | rfl
    · exact Int.le_of_lt ((dateOf t.second).addMonths_lt_addMonths (by omega))
    · exact Int.le_refl _
  rw [horizonFace_utc hz h, Reading.date]
  simp only [dayStart, secondsPerDay] at *
  omega

theorem OfMonthDays.prev_exhausted_iff (hp : p.OfMonthDays) (hn : 8 ≤ years) (hn' : years ≤ 400)
    (h : (t.addMonths? (-(12 * years))).isSome) :
    p.prev years t ≠ .outOfRange ∧ (p.prev years t = .exhausted ↔ ∀ v, p.admits v = false) := by
  refine prev_of_window hz (by omega) hn' (roomBehind_utc hz ht (by omega) hn' h) fun v hv => ?_
  obtain ⟨d, hd, hday⟩ := hp.exists_day hv
  have hfrom := secondFrom_bounds t
  obtain ⟨y, hy, hhi, hlo⟩ := Date.exists_leapYear_behind hd (hourOf_lt v) (minuteOf_lt v)
    (secondOf_lt v) hfrom.1 hfrom.2
  refine ⟨_, hhi, ?_, hday y hy⟩
  have hmono : ((dateOf t.second).addMonths (-(12 * years))).number ≤
      ((dateOf t.second).addMonths (12 * -8)).number := by
    rcases Nat.lt_or_eq_of_le hn with hlt | rfl
    · exact Int.le_of_lt ((dateOf t.second).addMonths_lt_addMonths (by omega))
    · exact Int.le_refl _
  rw [horizonFaceBehind_utc hz h, Reading.date]
  simp only [dayStart, secondsPerDay] at *
  omega

end

end Plan

namespace Schedule

def HasLeapYearDate (s : Schedule) : Prop :=
  ∃ d : Date, d.InRange ∧ isLeapYear d.year = true ∧
    (s.month.getD (.any _)).admits d.month = true ∧ (s.dayOfMonth.getD (.any _)).admitsDay d = true

theorem hasLeapYearDate_iff {s : Schedule} {z : Zone} (hp : (s.plan z).OfMonthDays) :
    s.HasLeapYearDate ↔ ∃ v, (s.plan z).admits v = true := by
  constructor
  · rintro ⟨d, -, -, hm, hd⟩
    exact Plan.exists_admits_of_admitsDate (hp.admitsDate_iff.2 ⟨hm, hd⟩)
  · rintro ⟨v, hv⟩
    obtain ⟨e, he, hadm⟩ :=
      hp.exists_admitsDate_of_leap (y := 2000) (by decide) (Plan.admitsDate_of_admits hv)
    obtain ⟨hm, hd⟩ := hp.admitsDate_iff.1 hadm
    refine ⟨e, Date.inRange_of_year_eq he, ?_, hm, hd⟩
    rw [Date.year, he]
    decide

end Schedule

namespace Engine

variable {e : Engine} {s : Schedule} {t : Instant}

/-- Eight years of horizon hide no schedule of months and days of the month: what is not found within them
falls on no date of a leap year, nor on any other. -/
theorem exhausted_iff_not_hasLeapYearDate (he : 8 ≤ e.horizon) (hs : s.special = none)
    (hz : (e.timezoneOf s).zone = .utc) (hy : s.year = none) (hw : s.weekOfYear = none)
    (hd : (s.dayOfWeek.getD (.any _)).isWildcard = true) (ht : t.InRange) :
    ((t.addMonths? (12 * e.horizon)).isSome → e.next s t ≠ .outOfRange ∧
      (e.next s t = .error (.exhausted e.horizon) ↔ ¬ s.HasLeapYearDate)) ∧
    ((t.addMonths? (-(12 * e.horizon))).isSome → e.prev s t ≠ .outOfRange ∧
      (e.prev s t = .error (.exhausted e.horizon) ↔ ¬ s.HasLeapYearDate)) := by
  have hplan : (s.plan e.timezone.zone).zone = .utc := by rw [zone_plan, hz]
  have hp : (s.plan e.timezone.zone).OfMonthDays := ⟨hy, hw, hd⟩
  have hnone : ¬ s.HasLeapYearDate ↔ ∀ v, (s.plan e.timezone.zone).admits v = false := by
    rw [Schedule.hasLeapYearDate_iff hp, not_exists]
    simp only [Bool.not_eq_true]
  constructor
  · intro h
    have hnext := hp.next_exhausted_iff hplan ht he e.horizon_le h
    rw [next_eq hs, ofFound_eq_exhausted_iff, hnone]
    exact ⟨ofFound_ne_outOfRange hnext.1, hnext.2⟩
  · intro h
    have hprev := hp.prev_exhausted_iff hplan ht he e.horizon_le h
    rw [prev_eq hs, ofFound_eq_exhausted_iff, hnone]
    exact ⟨ofFound_ne_outOfRange hprev.1, hprev.2⟩

def sevenYears : Engine where
  horizon := 7

def eightYears : Engine where
  horizon := 8

def leapDayAtNoon : Schedule where
  second := (Field.parse _ "0").toOption
  minute := (Field.parse _ "0").toOption
  hour := (Field.parse _ "12").toOption
  dayOfMonth := (Field.parse _ "29").toOption
  month := (Field.parse _ "2").toOption

def leapDayOf1896 : Instant := .ofSecond (-2330078400) -- 1896-02-29T12:00:00Z

def leapDayOf1904 : Instant := .ofSecond (-2077704000) -- 1904-02-29T12:00:00Z

theorem finds_leapDayAtNoon : 8 ≤ eightYears.horizon ∧ leapDayAtNoon.special = none ∧
    (eightYears.timezoneOf leapDayAtNoon).zone = .utc ∧ leapDayAtNoon.year = none ∧
    leapDayAtNoon.weekOfYear = none ∧ leapDayAtNoon.HasLeapYearDate ∧
    leapDayOf1896.InRange ∧ leapDayOf1904.InRange ∧
    eightYears.next leapDayAtNoon leapDayOf1896 ≠ .error (.exhausted 8) ∧
    eightYears.prev leapDayAtNoon leapDayOf1904 ≠ .error (.exhausted 8) ∧
    sevenYears.next leapDayAtNoon leapDayOf1896 = .error (.exhausted 7) := by
  have hsooner : leapDayOf1896.InRange := by decide
  have hlater : leapDayOf1904.InRange := by decide
  have hdate : leapDayAtNoon.HasLeapYearDate :=
    ⟨⟨11016⟩, by decide, by decide +kernel, by decide +kernel, by decide +kernel⟩
  have hnext := (exhausted_iff_not_hasLeapYearDate (e := eightYears) (s := leapDayAtNoon)
    (by decide) rfl rfl rfl rfl rfl hsooner).1 (by decide +kernel)
  have hprev := (exhausted_iff_not_hasLeapYearDate (e := eightYears) (s := leapDayAtNoon)
    (by decide) rfl rfl rfl rfl rfl hlater).2 (by decide +kernel)
  exact ⟨by decide, rfl, rfl, rfl, rfl, hdate, hsooner, hlater,
    fun h => hnext.2.1 h hdate, fun h => hprev.2.1 h hdate, by decide +kernel⟩

end Engine

end Timetable
