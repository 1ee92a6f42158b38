import Timetable.Proofs.Duration.Overflow
import Timetable.Proofs.Duration.RoundTrip
import Timetable.Proofs.Engine.Basic
import Timetable.Proofs.Zone.Meaning

namespace Timetable

open Calendar

namespace Calendar.Reading

variable {c : Clock} {r r' : Reading c} {m n : Int} {d e : Date}

theorem inRange_of_addMonths? (h : r.addMonths? n = some r') : r'.InRange := by
  obtain ⟨d, hd, rfl⟩ := Option.map_eq_some_iff.1 h
  rw [InRange, date_onDate]
  exact (Date.eq_addMonths_of_addMonths?_eq_some hd).2

theorem inRange_of_addSeconds? (h : r.addSeconds? n = some r') : r'.InRange := by
  obtain ⟨hin, rfl⟩ := addSeconds?_eq_some_iff.1 h
  exact hin

theorem onDate_onDate (r : Reading c) (d e : Date) : (r.onDate d).onDate e = r.onDate e := by
  have hlt := r.secondOfDay_lt
  simp only [eq_iff, onDate, secondOfDay, dayStart, secondsPerDay, and_true] at *
  omega

theorem addMonths?_zero (hr : r.InRange) : r.addMonths? 0 = some r := by
  rw [addMonths?, Date.addMonths?, Date.addMonths_zero, Date.inRange?_of_inRange hr, Option.map_some,
    onDate_date]

theorem addDays?_zero (hr : r.InRange) : r.addDays? 0 = some r := by
  rw [addDays?, Date.addDays?, Date.addDays, Int.add_zero, Date.inRange?_of_inRange hr, Option.map_some,
    onDate_date]

theorem addSeconds?_zero (hr : r.InRange) : r.addSeconds? 0 = some r := by
  rw [addSeconds?, addSeconds_zero, inRange?, if_pos hr]

theorem bind_addDays? (hr : r.InRange) (hm : 0 ≤ m) (hn : 0 ≤ n) :
    ((r.addDays? m).bind fun r' => r'.addDays? n) = r.addDays? (m + n) := by
  have hsum : (r.date.addDays m).addDays n = r.date.addDays (m + n) := by
    simp only [Date.addDays, Int.add_assoc]
  by_cases h : (r.date.addDays m).InRange
  · simp only [addDays?, Date.addDays?, Date.inRange?_of_inRange h, Option.map_some, Option.bind_some,
      date_onDate, hsum]
    congr 1
    funext e
    exact r.onDate_onDate _ e
  · -- the sum leaves the range on the same side
    have hout : ¬ (r.date.addDays (m + n)).InRange := by
      simp only [InRange, Date.InRange, Date.addDays] at *
      omega
    simp only [addDays?, Date.addDays?, Date.inRange?, if_neg h, if_neg hout, Option.map_none,
      Option.bind_none]

theorem addSeconds_of_pos (r : Reading c) (hn : 0 < n) :
    (r.addSeconds n).second = r.second + n ∧ (r.addSeconds n).nano = r.nano % 1000000000 := by
  have hlt := r.nano_lt
  have hN : nanosPerSecond = 1000000000 := rfl
  rw [addSeconds]
  split
  · exact ⟨rfl, by simp only; omega⟩
  · exact ⟨rfl, by simp only; omega⟩

theorem addSeconds_addSeconds (r : Reading c) (hm : 0 ≤ m) (hn : 0 ≤ n) :
    (r.addSeconds m).addSeconds n = r.addSeconds (m + n) := by
  rcases Int.le_iff_lt_or_eq.1 hm with hm | rfl
  · rcases Int.le_iff_lt_or_eq.1 hn with hn | rfl
    · obtain ⟨hs₁, hn₁⟩ := r.addSeconds_of_pos hm
      obtain ⟨hs₂, hn₂⟩ := (r.addSeconds m).addSeconds_of_pos hn
      obtain ⟨hs, hns⟩ := r.addSeconds_of_pos (Int.add_pos hm hn)
      rw [eq_iff, hs₂, hn₂, hs₁, hn₁, hs, hns, Nat.mod_mod, Int.add_assoc]
      exact ⟨rfl, rfl⟩
    · rw [addSeconds_zero, Int.add_zero]
  · rw [addSeconds_zero, Int.zero_add]

theorem second_addSeconds_of_nonneg (r : Reading c) (hn : 0 ≤ n) :
    (r.addSeconds n).second = r.second + n := by
  rw [second_addSeconds, if_neg (by omega)]

theorem bind_addSeconds? (hr : r.InRange) (hm : 0 ≤ m) (hn : 0 ≤ n) :
    ((r.addSeconds? m).bind fun r' => r'.addSeconds? n) = r.addSeconds? (m + n) := by
  by_cases h : (r.addSeconds m).InRange
  · rw [addSeconds?, inRange?, if_pos h, Option.bind_some, addSeconds?, addSeconds_addSeconds r hm hn]
    rfl
  · have hout : ¬ (r.addSeconds (m + n)).InRange := by
      rw [inRange_iff] at *
      rw [second_addSeconds_of_nonneg r (by omega)] at *
      omega
    rw [addSeconds?, inRange?, if_neg h, addSeconds?, inRange?, if_neg hout, Option.bind_none]

end Calendar.Reading

namespace Zone

variable {w : WallTime} {t : Instant} {n : Int}

theorem wallAt_utc_instantUnder (w : WallTime) : utc.wallAt (instantUnder 0 w) = w := by
  simp only [Reading.eq_iff, wallAt, instantUnder, utc, offsetAt_fixed, and_true]
  omega

theorem addSeconds?_instantUnder (w : WallTime) (n : Int) :
    (instantUnder 0 w).addSeconds? n = (w.addSeconds? n).map (instantUnder 0) := by
  have hadd : (instantUnder 0 w).addSeconds n = instantUnder 0 (w.addSeconds n) := by
    simp only [Reading.eq_iff, instantUnder, Reading.addSeconds, Int.sub_zero]
    split
    · exact ⟨rfl, rfl⟩
    · split
      · exact ⟨rfl, rfl⟩
      · exact ⟨rfl, rfl⟩
  by_cases h : (w.addSeconds n).InRange
  · simp only [Reading.addSeconds?, Reading.inRange?, hadd, if_pos h, if_pos (inRange_instantUnder_zero h),
      Option.map_some]
  · have hout : ¬ (instantUnder 0 (w.addSeconds n)).InRange := by
      rw [Reading.inRange_iff] at *
      rwa [instantUnder, Int.sub_zero]
    simp only [Reading.addSeconds?, Reading.inRange?, hadd, if_neg h, if_neg hout, Option.map_none]

end Zone

namespace Duration

variable {d : Duration} {u : TimeUnit} {us : List TimeUnit} {a : TimeUnit → Nat} {z : Zone} {t : Instant}
  {w w' : WallTime} {k : Nat}

def step? (u : TimeUnit) (k : Nat) (w : WallTime) : Option WallTime :=
  match u with
  | .years => w.addMonths? (12 * k)
  | .months => w.addMonths? k
  | .weeks => w.addDays? (7 * k)
  | .days => w.addDays? k
  | .hours => w.addSeconds? (3600 * k)
  | .minutes => w.addSeconds? (60 * k)
  | .seconds => w.addSeconds? k

def steps? (d : Duration) (w : WallTime) : Option WallTime :=
  TimeUnit.all.foldlM (fun w u => step? u (d.amount u).toNat w) w

def part (d : Duration) (u : TimeUnit) : Duration :=
  ({ reference := d.reference, fromStart := d.fromStart } : Duration).withAmount u (d.amount u)

/-- One evaluation for each unit, from the years to the seconds. -/
def evaluateParts? (d : Duration) (z : Zone) (t : Instant) : Option Instant :=
  TimeUnit.all.foldlM (fun t u => (d.part u).evaluate? z t) t

structure AddsInRange (d : Duration) (t : Instant) : Prop where
  shifted : (d.calendarShift.addTo? (Zone.utc.wallAt t)).isSome = true
  added : ((d.additiveBase .utc t).addSeconds? d.timeSeconds).isSome = true

instance : Decidable (d.AddsInRange t) :=
  decidable_of_iff ((d.calendarShift.addTo? (Zone.utc.wallAt t)).isSome = true ∧
    ((d.additiveBase .utc t).addSeconds? d.timeSeconds).isSome = true)
    ⟨fun h => ⟨h.1, h.2⟩, fun h => ⟨h.shifted, h.added⟩⟩

theorem step?_zero (u : TimeUnit) (hw : w.InRange) : step? u 0 w = some w := by
  cases u with
  | years => exact Reading.addMonths?_zero hw
  | months => exact Reading.addMonths?_zero hw
  | weeks => exact Reading.addDays?_zero hw
  | days => exact Reading.addDays?_zero hw
  | hours => exact Reading.addSeconds?_zero hw
  | minutes => exact Reading.addSeconds?_zero hw
  | seconds => exact Reading.addSeconds?_zero hw

theorem inRange_of_step? (h : step? u k w = some w') : w'.InRange := by
  cases u with
  | years => exact Reading.inRange_of_addMonths? h
  | months => exact Reading.inRange_of_addMonths? h
  | weeks => exact Reading.inRange_of_addDays? h
  | days => exact Reading.inRange_of_addDays? h
  | hours => exact Reading.inRange_of_addSeconds? h
  | minutes => exact Reading.inRange_of_addSeconds? h
  | seconds => exact Reading.inRange_of_addSeconds? h

theorem foldlM_step?_zero (h : ∀ v ∈ us, a v = 0) (hw : w.InRange) :
    us.foldlM (fun w v => step? v (a v) w) w = some w := by
  induction us with
  | nil => rfl
  | cons v us ih =>
    rw [List.foldlM_cons, h v List.mem_cons_self, step?_zero v hw]
    exact ih fun v' hv' => h v' (List.mem_cons_of_mem v hv')

theorem foldlM_step?_of_forall_ne (hu : u ∈ us) (hnodup : us.Nodup) (h : ∀ v, v ≠ u → a v = 0)
    (hw : w.InRange) : us.foldlM (fun w v => step? v (a v) w) w = step? u (a u) w := by
  induction us with
  | nil => cases hu
  | cons v us ih =>
    rw [List.nodup_cons] at hnodup
    rw [List.foldlM_cons]
    by_cases hv : v = u
    · subst hv
      cases hs : step? v (a v) w with
      | none => rfl
      | some w' =>
        have hrest (v' : TimeUnit) (hv' : v' ∈ us) : a v' = 0 :=
          h v' fun he => hnodup.1 (he ▸ hv')
        exact foldlM_step?_zero hrest (inRange_of_step? hs)
    · rw [h v hv, step?_zero v hw]
      exact ih ((List.mem_cons.1 hu).resolve_left (Ne.symm hv)) hnodup.2

theorem amount_part (d : Duration) (u v : TimeUnit) :
    (d.part u).amount v = if v = u then d.amount u else 0 := by
  rw [part, amount_withAmount]
  cases v <;> rfl

theorem reference_part (d : Duration) (u : TimeUnit) : (d.part u).reference = d.reference :=
  reference_withAmount _ u _

theorem steps?_part (d : Duration) (u : TimeUnit) (hw : w.InRange) :
    (d.part u).steps? w = step? u (d.amount u).toNat w := by
  have hself : ((d.part u).amount u).toNat = (d.amount u).toNat := by rw [amount_part, if_pos rfl]
  have hother (v : TimeUnit) (hv : v ≠ u) : ((d.part u).amount v).toNat = 0 := by
    rw [amount_part, if_neg hv]
    rfl
  rw [steps?, foldlM_step?_of_forall_ne (u := u) (by cases u <;> decide) (by decide) hother hw, hself]

theorem calendarShift_of_additive (hp : d.reference.period? = none) :
    d.calendarShift = ⟨d.years.toNat, d.months.toNat, 7 * d.weeks.toNat + d.days.toNat⟩ := by
  have hunit : d.reference.unit? = none := by
    cases hr : d.reference <;> simp_all [Reference.period?, Reference.unit?]
  simp only [calendarShift, amountBesideAnchor, hunit, reduceCtorEq, if_false, amount]

theorem steps?_eq (hp : d.reference.period? = none) (w : WallTime) :
    d.steps? w = (d.calendarShift.addTo? w).bind fun w' => w'.addSeconds? d.timeSeconds := by
  have hdays {w : WallTime} (hw : w.InRange) :
      w.addDays? ((7 * d.weeks.toNat + d.days.toNat : Nat) : Int) =
        (w.addDays? (7 * d.weeks.toNat)).bind fun w' => w'.addDays? d.days.toNat := by
    rw [Reading.bind_addDays? hw (by omega) (by omega)]
    congr 1
  have hseconds {w : WallTime} (hw : w.InRange) : w.addSeconds? d.timeSeconds =
      (w.addSeconds? (3600 * d.hours.toNat)).bind fun w₁ =>
        (w₁.addSeconds? (60 * d.minutes.toNat)).bind fun w₂ => w₂.addSeconds? d.seconds.toNat := by
    rw [← Option.bind_assoc, Reading.bind_addSeconds? hw (by omega) (by omega),
      Reading.bind_addSeconds? hw (by omega) (by omega)]
    congr 1
  simp only [calendarShift_of_additive hp, steps?, TimeUnit.all, List.foldlM_cons, List.foldlM_nil, step?,
    amount, CalendarShift.addTo?, bind, pure, Option.bind_assoc, Option.bind_fun_some]
  refine Option.bind_congr fun w₁ _ => Option.bind_congr fun w₂ h₂ => ?_
  rw [hdays (Reading.inRange_of_addMonths? h₂), Option.bind_assoc]
  refine Option.bind_congr fun w₃ _ => Option.bind_congr fun w₄ h₄ => ?_
  rw [hseconds (Reading.inRange_of_addDays? h₄)]

theorem additiveBase_utc_of_addTo? (h : d.calendarShift.addTo? (Zone.utc.wallAt t) = some w) :
    d.additiveBase .utc t = Zone.instantUnder 0 w := by
  rw [additiveBase_utc, Zone.resolve_utc, shift, h, Option.getD_some]

theorem addsInRange_iff (hp : d.reference.period? = none) :
    d.AddsInRange t ↔ (d.steps? (Zone.utc.wallAt t)).isSome = true := by
  rw [steps?_eq hp]
  cases h : d.calendarShift.addTo? (Zone.utc.wallAt t) with
  | none =>
    refine iff_of_false (fun hr => ?_) (by simp)
    have hshifted := hr.shifted
    rw [h] at hshifted
    cases hshifted
  | some w =>
    have hadded : ((d.additiveBase .utc t).addSeconds? d.timeSeconds).isSome =
        (w.addSeconds? d.timeSeconds).isSome := by
      rw [additiveBase_utc_of_addTo? h, Zone.addSeconds?_instantUnder, Option.isSome_map]
    rw [Option.bind_some, ← hadded]
    exact ⟨fun hr => hr.added, fun ha => ⟨by rw [h]; rfl, ha⟩⟩

theorem evaluate_utc_of_steps? (hp : d.reference.period? = none)
    (h : d.steps? (Zone.utc.wallAt t) = some w) : d.evaluate .utc t = Zone.instantUnder 0 w := by
  rw [steps?_eq hp] at h
  obtain ⟨w', hshift, hadd⟩ := Option.bind_eq_some_iff.1 h
  rw [evaluate_of_additive hp, evaluateAdditive, additiveBase_utc_of_addTo? hshift,
    Zone.addSeconds?_instantUnder, hadd, Option.map_some, Option.getD_some]

theorem evaluate?_part_utc (hp : d.reference.period? = none) (ht : t.InRange)
    (h : step? u (d.amount u).toNat (Zone.utc.wallAt t) = some w) :
    (d.part u).evaluate? .utc t = some (Zone.instantUnder 0 w) := by
  have hpart : (d.part u).reference.period? = none := by rw [reference_part, hp]
  rw [evaluate?_utc _ ht, evaluate_utc_of_steps? hpart]
  rw [steps?_part d u (Zone.inRange_wallAt_utc ht), h]

theorem foldlM_evaluate?_part (hp : d.reference.period? = none) (ht : t.InRange)
    (h : us.foldlM (fun w u => step? u (d.amount u).toNat w) (Zone.utc.wallAt t) = some w) :
    us.foldlM (fun t u => (d.part u).evaluate? .utc t) t = some (Zone.instantUnder 0 w) := by
  induction us generalizing t with
  | nil =>
    cases h
    exact congrArg some (Zone.instantUnder_wallAt .utc t).symm
  | cons u us ih =>
    rw [List.foldlM_cons] at h
    obtain ⟨w', hstep, hrest⟩ := Option.bind_eq_some_iff.1 h
    rw [List.foldlM_cons, evaluate?_part_utc hp ht hstep]
    refine ih (Zone.inRange_instantUnder_zero (inRange_of_step? hstep)) ?_
    rw [Zone.wallAt_utc_instantUnder, hrest]

theorem shift_of_hasCalendarLength (hc : d.hasCalendarLength = false) (w : WallTime) : d.shift w = w := by
  refine shift_of_calendarShift ?_ w
  simp only [hasCalendarLength, Bool.or_eq_false_iff, bne_eq_false_iff_eq] at hc
  obtain ⟨⟨⟨hy, hm⟩, hw⟩, hd⟩ := hc
  simp [calendarShift, amountBesideAnchor, amount, hy, hm, hw, hd]

theorem evaluate_of_hasCalendarLength (hp : d.reference.period? = none)
    (hc : d.hasCalendarLength = false) (z : Zone) (ht : t.isLeap = false)
    (hr : (t.ahead d.timeSeconds).InRange) : d.evaluate z t = t.ahead d.timeSeconds := by
  have hbase : d.additiveBase z t = t := if_pos (shift_of_hasCalendarLength hc _)
  have hadd : t.addSeconds d.timeSeconds = t.ahead d.timeSeconds := Reading.addSeconds_of_not_isLeap ht _
  rw [evaluate_of_additive hp, evaluateAdditive, hbase, Reading.addSeconds?, hadd, Reading.inRange?,
    if_pos hr, Option.getD_some]

theorem staysInRange_iff_of_hasCalendarLength (hp : d.reference.period? = none)
    (hc : d.hasCalendarLength = false) : d.StaysInRange z t ↔ (z.wallAt t).InRange := by
  have hanchored : d.reference.isAnchored = false := by rw [Reference.isAnchored, hp]; rfl
  refine ⟨fun h => h.wall, fun h => ⟨h, fun hmaps => ?_⟩⟩
  rcases hmaps with ha | hmoved
  · cases hanchored.symm.trans ha
  · exact absurd (shift_of_hasCalendarLength hc _) hmoved

/-- On clocks that are never changed the amounts can be added one by one, with the same result and within
the range in the same cases; and hours, minutes and seconds are elapsed time in every zone, though only from
an instant at which its clocks show a time of the range. -/
theorem evaluate_unit_by_unit (hp : d.reference.period? = none) :
    (∀ t : Instant, t.InRange → (d.AddsInRange t ↔ (d.steps? (Zone.utc.wallAt t)).isSome = true) ∧
      (d.AddsInRange t → ∃ u, d.evaluate? .utc t = some u ∧ d.evaluateParts? .utc t = some u)) ∧
    (d.hasCalendarLength = false → ∀ (z : Zone) (t : Instant), t.isLeap = false →
      (t.ahead (3600 * d.hours.toNat + 60 * d.minutes.toNat + d.seconds.toNat)).InRange →
      (d.evaluate? z t =
          some (t.ahead (3600 * d.hours.toNat + 60 * d.minutes.toNat + d.seconds.toNat)) ↔
        (z.wallAt t).InRange) ∧
      (d.evaluate? z t = none ↔ ¬ (z.wallAt t).InRange)) := by
  refine ⟨fun t ht => ⟨addsInRange_iff hp, fun hr => ?_⟩, fun hc z t ht hr => ?_⟩
  · obtain ⟨w, hw⟩ := Option.isSome_iff_exists.1 ((addsInRange_iff hp).1 hr)
    refine ⟨Zone.instantUnder 0 w, ?_, foldlM_evaluate?_part hp ht hw⟩
    rw [evaluate?_utc _ ht, evaluate_utc_of_steps? hp hw]
  · have hstays := staysInRange_iff_of_hasCalendarLength (z := z) (t := t) hp hc
    have hahead := evaluate_of_hasCalendarLength hp hc z ht hr
    refine ⟨⟨fun h => ?_, fun h => ?_⟩, by rw [evaluate?_eq_none_iff, hstays]⟩
    · exact hstays.1 (isSome_evaluate?_iff.1 (by rw [h]; rfl))
    · rw [evaluate?_of_staysInRange (hstays.2 h), hahead]
      rfl

def ofEveryUnit : Duration :=
  { years := 1, months := 2, weeks := 1, days := 1, hours := 1, minutes := 1, seconds := 1 }

def leapSecondOf2016 : Instant := ⟨1483228799, 1250000000, by decide⟩ -- 2016-12-31T23:59:60.25Z

theorem evaluate_unit_by_unit_leapSecondOf2016 : ofEveryUnit.reference.period? = none ∧
    leapSecondOf2016.InRange ∧ ofEveryUnit.AddsInRange leapSecondOf2016 ∧
    (ofEveryUnit.steps? (Zone.utc.wallAt leapSecondOf2016)).isSome = true ∧
    (∃ u, ofEveryUnit.evaluate? .utc leapSecondOf2016 = some u ∧
      ofEveryUnit.evaluateParts? .utc leapSecondOf2016 = some u) ∧
    ofEveryUnit.evaluate? .utc leapSecondOf2016 = some ⟨1520557260, 250000000, by decide⟩ ∧
    ({ hours := 1 } : Duration).hasCalendarLength = false ∧ Engine.lateEveningAgain.isLeap = false ∧
    (Zone.saoPaulo.wallAt Engine.lateEveningAgain).InRange ∧
    ({ hours := 1 } : Duration).evaluate? Zone.saoPaulo Engine.lateEveningAgain =
      some (Engine.lateEveningAgain.ahead 3600) := by
  have ht : leapSecondOf2016.InRange := by decide
  have hr : ofEveryUnit.AddsInRange leapSecondOf2016 := by decide +kernel
  have hin : (Zone.saoPaulo.wallAt Engine.lateEveningAgain).InRange := by decide +kernel
  obtain ⟨hiff, hparts⟩ := (evaluate_unit_by_unit (d := ofEveryUnit) rfl).1 _ ht
  have hpass := (evaluate_unit_by_unit (d := { hours := 1 }) rfl).2 rfl Zone.saoPaulo
    Engine.lateEveningAgain (by decide) (by decide)
  exact ⟨rfl, ht, hr, hiff.1 hr, hparts hr, by decide +kernel, rfl, by decide, hin, hpass.1.2 hin⟩

theorem not_evaluate_unit_by_unit_lastHour : ({ seconds := 1 } : Duration).reference.period? = none ∧
    ({ seconds := 1 } : Duration).hasCalendarLength = false ∧ Engine.lastHour.isLeap = false ∧
    (Engine.lastHour.ahead 1).InRange ∧
    ({ seconds := 1 } : Duration).evaluate? Zone.kolkata Engine.lastHour = none :=
  ⟨rfl, rfl, by decide, by decide, by decide +kernel⟩

end Duration

end Timetable
