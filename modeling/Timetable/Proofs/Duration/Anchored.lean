import Timetable.Duration.Shorthand
import Timetable.Proofs.Duration.Evaluate

namespace Timetable

open Calendar

namespace CalendarShift

variable {s s' : CalendarShift} {w w' v v' : WallTime}

theorem date_of_addTo? (h : s.addTo? w = some w') :
    w'.date = ((w.date.addMonths (12 * s.years)).addMonths s.months).addDays s.days := by
  obtain ⟨w₁, h₁, h⟩ := Option.bind_eq_some_iff.1 h
  obtain ⟨w₂, h₂, h₃⟩ := Option.bind_eq_some_iff.1 h
  obtain ⟨d₁, hd₁, rfl⟩ := Option.map_eq_some_iff.1 h₁
  obtain ⟨d₂, hd₂, rfl⟩ := Option.map_eq_some_iff.1 h₂
  obtain ⟨d₃, hd₃, rfl⟩ := Option.map_eq_some_iff.1 h₃
  rw [Reading.date_onDate] at hd₂ hd₃ ⊢
  rw [(Date.eq_addDays_of_addDays?_eq_some hd₃).1, (Date.eq_addMonths_of_addMonths?_eq_some hd₂).1,
    (Date.eq_addMonths_of_addMonths?_eq_some hd₁).1]

theorem eq_of_addTo?_zero (h : addTo? ⟨0, 0, 0⟩ w = some w') : w' = w := by
  obtain ⟨w₁, h₁, h⟩ := Option.bind_eq_some_iff.1 h
  obtain ⟨w₂, h₂, h₃⟩ := Option.bind_eq_some_iff.1 h
  have hmonths {v v' : WallTime} (hv : v.addMonths? 0 = some v') : v' = v := by
    obtain ⟨d, hd, rfl⟩ := Option.map_eq_some_iff.1 hv
    rw [(Date.eq_addMonths_of_addMonths?_eq_some hd).1, Date.addMonths_zero, Reading.onDate_date]
  have hdays {v v' : WallTime} (hv : v.addDays? 0 = some v') : v' = v := by
    obtain ⟨d, hd, rfl⟩ := Option.map_eq_some_iff.1 hv
    rw [(Date.eq_addDays_of_addDays?_eq_some hd).1, Date.addDays, Int.add_zero, Reading.onDate_date]
  rw [hdays h₃, hmonths h₂, hmonths h₁]

theorem date_addTo?_le (hyears : s.years ≤ s'.years) (hmonths : s.months ≤ s'.months)
    (hdays : s.days ≤ s'.days) (hdate : w.date.number ≤ v.date.number)
    (hw : s.addTo? w = some w') (hv : s'.addTo? v = some v') : w'.date.number ≤ v'.date.number := by
  rw [date_of_addTo? hw, date_of_addTo? hv]
  have h₁ : (w.date.addMonths (12 * s.years)).number ≤ (v.date.addMonths (12 * s'.years)).number :=
    Int.le_trans (Date.addMonths_le_addMonths hdate _) (Date.addMonths_le_of_le _ (by omega))
  have h₂ : ((w.date.addMonths (12 * s.years)).addMonths s.months).number ≤
      ((v.date.addMonths (12 * s'.years)).addMonths s'.months).number :=
    Int.le_trans (Date.addMonths_le_addMonths h₁ _) (Date.addMonths_le_of_le _ (by omega))
  simp only [Date.addDays]
  omega

end CalendarShift

namespace Duration

variable {d e : Duration} {p : Period} {r : Reference} {t u : Instant} {w v : WallTime} {n : UInt32}

theorem evaluate_utc_of_fromStart (hp : d.reference.period? = some p) (hs : d.fromStart = true)
    (t : Instant) :
    d.evaluate .utc t = .ofDate (p.first (d.anchoredDate p (Zone.utc.wallAt t))) 0 := by
  rw [evaluate_of_period? hp, boundary, if_pos hs, Zone.resolve_utc_ofDate]

theorem evaluate_utc_of_not_fromStart (hp : d.reference.period? = some p) (hs : d.fromStart = false)
    (t : Instant) :
    d.evaluate .utc t = .endOfDate (p.last (d.anchoredDate p (Zone.utc.wallAt t))) := by
  rw [evaluate_of_period? hp, boundary, if_neg (by simp [hs]), Zone.resolve_utc_endOfDate]

theorem shift_of_calendarShift (h : d.calendarShift = ⟨0, 0, 0⟩) (w : WallTime) : d.shift w = w := by
  rw [shift, h]
  cases hw : CalendarShift.addTo? ⟨0, 0, 0⟩ w with
  | none => rfl
  | some w' => exact CalendarShift.eq_of_addTo?_zero hw

theorem reached_of_timeSeconds (h : d.timeSeconds = 0) (w : WallTime) : d.reached w = d.shift w := by
  simp only [reached, h, Reading.addSeconds?, Int.natCast_zero, Reading.addSeconds_zero, Reading.inRange?]
  split <;> rfl

structure CountsPeriods (d : Duration) (p : Period) (n : UInt32) : Prop where
  period : d.reference.period? = some p
  shift : d.calendarShift = ⟨0, 0, 0⟩
  seconds : d.timeSeconds = 0
  offset : d.anchorOffset = n

theorem countsPeriods_startOf (hp : r.period? = some p) (n : UInt32) : (startOf r n).CountsPeriods p n := by
  cases r <;> cases hp <;> exact ⟨rfl, rfl, rfl, rfl⟩

theorem countsPeriods_endOf (hp : r.period? = some p) (n : UInt32) : (endOf r n).CountsPeriods p n := by
  cases r <;> cases hp <;> exact ⟨rfl, rfl, rfl, rfl⟩

theorem fromStart_startOf (r : Reference) (n : UInt32) : (startOf r n).fromStart = true := by
  cases r <;> rfl

theorem fromStart_endOf (r : Reference) (n : UInt32) : (endOf r n).fromStart = false := by
  cases r <;> rfl

theorem CountsPeriods.anchoredDate (h : d.CountsPeriods p n) (w : WallTime) :
    d.anchoredDate p w = (p.advance? w.date n.toNat).getD w.date := by
  simp only [Duration.anchoredDate, advance?, reached_of_timeSeconds h.seconds,
    shift_of_calendarShift h.shift, h.offset]

theorem CountsPeriods.anchoredDate_zero (h : d.CountsPeriods p 0) (w : WallTime) :
    d.anchoredDate p w = w.date := by
  rw [h.anchoredDate]
  cases hw : p.advance? w.date (0 : UInt32).toNat with
  | none => rfl
  | some e => exact Period.eq_of_advance?_zero hw

theorem evaluate_startOf_zero (hp : r.period? = some p) (t : Instant) :
    (startOf r 0).evaluate .utc t = .ofDate (p.first t.date) 0 := by
  have hc := countsPeriods_startOf hp 0
  rw [evaluate_utc_of_fromStart hc.period (fromStart_startOf r 0), hc.anchoredDate_zero,
    Zone.date_wallAt_utc]

theorem evaluate_endOf_zero (hp : r.period? = some p) (t : Instant) :
    (endOf r 0).evaluate .utc t = .endOfDate (p.last t.date) := by
  have hc := countsPeriods_endOf hp 0
  rw [evaluate_utc_of_not_fromStart hc.period (fromStart_endOf r 0), hc.anchoredDate_zero,
    Zone.date_wallAt_utc]

theorem toNat_succ_of_advance? (ht : t.InRange) {f : Date}
    (h : p.advance? t.date (n.toNat + 1) = some f) : (n + 1).toNat = n.toNat + 1 := by
  have hadd := Period.number_add_le_of_advance? h
  have hlo := ht.1
  have hhi := (Period.inRange_of_advance? h).2
  have hsize : n.toNat + 1 < 4294967296 := by
    simp only [Date.earliest, Date.latest] at hlo hhi
    omega
  rw [UInt32.toNat_add]
  simp only [UInt32.reduceToNat]
  omega

theorem startOf_follows_endOf (hp : r.period? = some p) (ht : t.InRange)
    (h : (p.advance? t.date (n.toNat + 1)).isSome = true) :
    ((endOf r n).evaluate .utc t).addNanos? 1 = some ((startOf r (n + 1)).evaluate .utc t) := by
  have hc := countsPeriods_endOf hp n
  have hc' := countsPeriods_startOf hp (n + 1)
  obtain ⟨e, he⟩ := Option.isSome_iff_exists.1 (Period.isSome_advance?_of_le ht (Nat.le_succ _) h)
  obtain ⟨f, hf⟩ := Option.isSome_iff_exists.1 h
  have hein := Period.inRange_of_advance? he
  have hfin := Period.inRange_of_advance? hf
  have hindex : p.index f = p.index e + 1 := by
    rw [Period.index_advance he, Period.index_advance hf]
    omega
  -- the later period begins after a date of the range, and the one before ends before such a date
  have hbegins : p.BeginsInRange f := by
    have hlt := p.lt_begins_index_succ e
    have hlo := hein.1
    rw [Period.BeginsInRange, hindex]
    omega
  have hends : p.EndsInRange e := by
    have hle := p.begins_index_le f
    have hhi := hfin.2
    rw [hindex] at hle
    rw [Period.EndsInRange]
    omega
  rw [evaluate_utc_of_not_fromStart hc.period (fromStart_endOf r n), hc.anchoredDate,
    evaluate_utc_of_fromStart hc'.period (fromStart_startOf r (n + 1)), hc'.anchoredDate,
    Zone.date_wallAt_utc, toNat_succ_of_advance? ht hf, he, hf, Option.getD_some, Option.getD_some]
  refine Reading.addNanos?_endOfDate (p.inRange_first hfin) ?_
  rw [Period.number_first hfin hbegins, Period.number_last hein hends, hindex]
  omega

/-- The periods tile the line of instants: each next one starts a nanosecond after the one before ends,
every instant lies in its own period, and all instants of a period have it as theirs. -/
theorem periods_tile (hp : r.period? = some p) (ht : t.InRange) (hplain : t.isLeap = false) :
    (∀ n : UInt32, (p.advance? t.date (n.toNat + 1)).isSome = true →
      ∃ a b, (endOf r n).evaluate? .utc t = some a ∧ (startOf r (n + 1)).evaluate? .utc t = some b ∧
        a.addNanos? 1 = some b) ∧
    ∃ a b, (startOf r 0).evaluate? .utc t = some a ∧ (endOf r 0).evaluate? .utc t = some b ∧
      (a ≤ t ∧ t ≤ b) ∧
      (p.BeginsInRange t.date → p.EndsInRange t.date → ∀ u : Instant, a ≤ u → u ≤ b →
        (startOf r 0).evaluate? .utc u = some a ∧ (endOf r 0).evaluate? .utc u = some b) := by
  refine ⟨fun n h => ⟨_, _, evaluate?_utc _ ht, evaluate?_utc _ ht, startOf_follows_endOf hp ht h⟩,
    _, _, evaluate?_utc _ ht, evaluate?_utc _ ht, ⟨?_, ?_⟩, ?_⟩
  · rw [evaluate_startOf_zero hp]
    exact Reading.ofDate_le_iff.2 (p.first_le ht)
  · rw [evaluate_endOf_zero hp]
    exact Reading.le_endOfDate hplain (p.le_last t.date)
  · intro hb he u hlo hhi
    rw [evaluate_startOf_zero hp] at hlo
    rw [evaluate_endOf_zero hp] at hhi
    obtain ⟨hu, hindex⟩ := Period.index_eq_of_between ht hb he hlo hhi
    rw [evaluate?_utc _ hu, evaluate?_utc _ hu, evaluate_startOf_zero hp, evaluate_startOf_zero hp,
      evaluate_endOf_zero hp, evaluate_endOf_zero hp, Period.first_eq_of_index_eq ht hu hb hindex,
      Period.last_eq_of_index_eq ht hu he hindex]
    exact ⟨rfl, rfl⟩

def lastOfJanuary : Instant := .ofSecond 1706688000 -- 2024-01-31T08:00:00Z

def newYear : Instant := .ofSecond 1704067200 -- 2024-01-01T00:00:00Z

theorem periods_tile_january : Reference.month.period? = some .month ∧ lastOfJanuary.InRange ∧
    lastOfJanuary.isLeap = false ∧
    (∃ a b, (endOf .month 0).evaluate? .utc lastOfJanuary = some a ∧
      (startOf .month 1).evaluate? .utc lastOfJanuary = some b ∧ a.addNanos? 1 = some b) ∧
    (startOf .month 1).evaluate? .utc lastOfJanuary = some (.ofSecond 1706745600) ∧
    (startOf .month 0).evaluate? .utc lastOfJanuary = some newYear ∧
    (endOf .month 0).evaluate? .utc newYear = (endOf .month 0).evaluate? .utc lastOfJanuary := by
  have ht : lastOfJanuary.InRange := by decide
  obtain ⟨hnext, a, b, ha, hb, -, hsame⟩ := periods_tile (r := .month) rfl ht (by decide)
  have hstart : (startOf .month 0).evaluate? .utc lastOfJanuary = some newYear := by decide +kernel
  have hend : (endOf .month 0).evaluate? .utc lastOfJanuary = some (.endOfDate lastOfJanuary.date) := by
    decide +kernel
  obtain rfl : newYear = a := Option.some.inj (hstart.symm.trans ha)
  obtain rfl : .endOfDate lastOfJanuary.date = b := Option.some.inj (hend.symm.trans hb)
  have hboth := hsame (by decide +kernel) (by decide +kernel) newYear (by decide) (by decide)
  exact ⟨rfl, ht, by decide, hnext 0 (by decide +kernel), by decide +kernel, hstart, hboth.2.trans hb.symm⟩

/-- No step towards the boundary of a period leaves the calendar's range. -/
structure StepsInRange (d : Duration) (p : Period) (w : WallTime) : Prop where
  shifted : (d.calendarShift.addTo? w).isSome = true
  added : ((d.shift w).addSeconds? d.timeSeconds).isSome = true
  advanced : (d.advance? p (d.reached w).date).isSome = true
  begins : d.fromStart = true → p.BeginsInRange (d.anchoredDate p w)
  ends : d.fromStart = false → p.EndsInRange (d.anchoredDate p w)

theorem StepsInRange.advance (h : d.StepsInRange p w) :
    d.advance? p (d.reached w).date = some (d.anchoredDate p w) := by
  obtain ⟨e, he⟩ := Option.isSome_iff_exists.1 h.advanced
  simp only [anchoredDate, he, Option.getD_some]

theorem StepsInRange.addTo? (h : d.StepsInRange p w) : d.calendarShift.addTo? w = some (d.shift w) := by
  obtain ⟨w', hw'⟩ := Option.isSome_iff_exists.1 h.shifted
  rw [shift, hw', Option.getD_some]

theorem timeSeconds_of_hasTimeLength (h : d.hasTimeLength = false) : d.timeSeconds = 0 := by
  simp only [hasTimeLength, Bool.or_eq_false_iff, bne_eq_false_iff_eq] at h
  obtain ⟨⟨hh, hm⟩, hs⟩ := h
  simp [timeSeconds, hh, hm, hs]

theorem amountBesideAnchor_le (href : e.reference = d.reference) (hle : ∀ x, d.amount x ≤ e.amount x)
    (x : TimeUnit) : d.amountBesideAnchor x ≤ e.amountBesideAnchor x := by
  rw [amountBesideAnchor, amountBesideAnchor, href]
  split
  · exact Nat.le_refl _
  · exact UInt32.le_iff_toNat_le.1 (hle x)

theorem anchorOffset_le (href : e.reference = d.reference) (hle : ∀ x, d.amount x ≤ e.amount x) :
    d.anchorOffset.toNat ≤ e.anchorOffset.toNat := by
  rw [anchorOffset, anchorOffset, href]
  cases d.reference.unit? with
  | none => exact Nat.le_refl _
  | some x => exact UInt32.le_iff_toNat_le.1 (hle x)

theorem date_shift_le (href : e.reference = d.reference) (hle : ∀ x, d.amount x ≤ e.amount x)
    (hdate : w.date.number ≤ v.date.number) (hd : d.StepsInRange p w) (he : e.StepsInRange p v) :
    (d.shift w).date.number ≤ (e.shift v).date.number := by
  have hbeside := amountBesideAnchor_le href hle
  have hweeks := hbeside .weeks
  have hdays := hbeside .days
  refine CalendarShift.date_addTo?_le (hbeside .years) (hbeside .months) ?_ hdate hd.addTo? he.addTo?
  simp only [calendarShift]
  omega

theorem index_anchoredDate_le (href : e.reference = d.reference) (hle : ∀ x, d.amount x ≤ e.amount x)
    (hdate : (d.reached w).date.number ≤ (e.reached v).date.number) (hd : d.StepsInRange p w)
    (he : e.StepsInRange p v) : p.index (d.anchoredDate p w) ≤ p.index (e.anchoredDate p v) := by
  have hoffset := anchorOffset_le href hle
  have hindex := Period.index_le_of_le (p := p) hdate
  rw [Period.index_advance hd.advance, Period.index_advance he.advance]
  omega

theorem evaluate_utc_le_evaluate_utc (hp : d.reference.period? = some p) (href : e.reference = d.reference)
    (hside : e.fromStart = d.fromStart) (hdtime : d.hasTimeLength = false)
    (hetime : e.hasTimeLength = false) (hle : ∀ x, d.amount x ≤ e.amount x) (htu : t ≤ u)
    (hd : d.StepsInRange p (Zone.utc.wallAt t)) (he : e.StepsInRange p (Zone.utc.wallAt u)) :
    d.evaluate .utc t ≤ e.evaluate .utc u := by
  have hp' : e.reference.period? = some p := by rw [href, hp]
  have hdate : (Zone.utc.wallAt t).date.number ≤ (Zone.utc.wallAt u).date.number := by
    rw [Zone.date_wallAt_utc, Zone.date_wallAt_utc]
    rw [Reading.le_def] at htu
    exact dateOf_le_of_le (by omega)
  have hreached : (d.reached (Zone.utc.wallAt t)).date.number ≤
      (e.reached (Zone.utc.wallAt u)).date.number := by
    rw [reached_of_timeSeconds (timeSeconds_of_hasTimeLength hdtime),
      reached_of_timeSeconds (timeSeconds_of_hasTimeLength hetime)]
    exact date_shift_le href hle hdate hd he
  have hindex := index_anchoredDate_le href hle hreached hd he
  have hdin := Period.inRange_of_advance? hd.advance
  have hein := Period.inRange_of_advance? he.advance
  cases hs : d.fromStart with
  | true =>
    have hs' : e.fromStart = true := by rw [hside, hs]
    rw [evaluate_utc_of_fromStart hp hs, evaluate_utc_of_fromStart hp' hs']
    refine Reading.ofDate_le_ofDate ?_
    rw [Period.number_first hdin (hd.begins hs), Period.number_first hein (he.begins hs')]
    exact Period.begins_le_of_le hindex
  | false =>
    have hs' : e.fromStart = false := by rw [hside, hs]
    rw [evaluate_utc_of_not_fromStart hp hs, evaluate_utc_of_not_fromStart hp' hs']
    refine Reading.endOfDate_le_endOfDate ?_
    rw [Period.number_last hdin (hd.ends hs), Period.number_last hein (he.ends hs')]
    have hbegins := Period.begins_le_of_le (p := p)
      (show p.index (d.anchoredDate p (Zone.utc.wallAt t)) + 1 ≤
        p.index (e.anchoredDate p (Zone.utc.wallAt u)) + 1 by omega)
    omega

theorem evaluate_le_evaluate (hp : d.reference.period? = some p) (href : e.reference = d.reference)
    (hside : e.fromStart = d.fromStart) (hdtime : d.hasTimeLength = false)
    (hetime : e.hasTimeLength = false) (hle : ∀ x, d.amount x ≤ e.amount x) (ht : t.InRange)
    (hu : u.InRange) (htu : t ≤ u) (hd : d.StepsInRange p (Zone.utc.wallAt t))
    (he : e.StepsInRange p (Zone.utc.wallAt u)) :
    ∃ a b, d.evaluate? .utc t = some a ∧ e.evaluate? .utc u = some b ∧ a ≤ b :=
  ⟨_, _, evaluate?_utc d ht, evaluate?_utc e hu,
    evaluate_utc_le_evaluate_utc hp href hside hdtime hetime hle htu hd he⟩

def weekAfterMonth : Duration := { ending .week with months := 1, days := 1 }

def weeksAfterYear : Duration := { ending .week with years := 1, months := 1, weeks := 2, days := 3 }

theorem evaluate_le_evaluate_lastOfJanuary :
    weekAfterMonth.reference.period? = some .week ∧ weeksAfterYear.reference = weekAfterMonth.reference ∧
    weeksAfterYear.fromStart = weekAfterMonth.fromStart ∧ weekAfterMonth.hasTimeLength = false ∧
    weeksAfterYear.hasTimeLength = false ∧ weekAfterMonth.amount .days ≤ weeksAfterYear.amount .days ∧
    newYear.InRange ∧ lastOfJanuary.InRange ∧ newYear ≤ lastOfJanuary ∧
    weekAfterMonth.StepsInRange .week (Zone.utc.wallAt newYear) ∧
    weeksAfterYear.StepsInRange .week (Zone.utc.wallAt lastOfJanuary) ∧
    ∃ a b, weekAfterMonth.evaluate? .utc newYear = some a ∧
      weeksAfterYear.evaluate? .utc lastOfJanuary = some b ∧ a ≤ b := by
  have hle : ∀ x, weekAfterMonth.amount x ≤ weeksAfterYear.amount x := by
    intro x
    cases x <;> decide
  have hd : weekAfterMonth.StepsInRange .week (Zone.utc.wallAt newYear) :=
    ⟨by decide +kernel, by decide +kernel, by decide +kernel, by decide +kernel, by decide +kernel⟩
  have he : weeksAfterYear.StepsInRange .week (Zone.utc.wallAt lastOfJanuary) :=
    ⟨by decide +kernel, by decide +kernel, by decide +kernel, by decide +kernel, by decide +kernel⟩
  have ht : newYear.InRange := by decide
  have hu : lastOfJanuary.InRange := by decide
  exact ⟨rfl, rfl, rfl, rfl, rfl, hle .days, ht, hu, by decide, hd, he,
    evaluate_le_evaluate rfl rfl rfl rfl rfl hle ht hu (by decide) hd he⟩

end Duration

end Timetable
