import Timetable.Duration.Evaluate
import Timetable.Proofs.Calendar.Tiling
import Timetable.Proofs.Zone.Resolve

namespace Timetable

open Calendar

namespace Calendar.Reading

variable {c : Clock} {r r' : Reading c} {n : Int}

theorem inRange_of_addDays? (h : r.addDays? n = some r') : r'.InRange := by
  obtain ⟨d, hd, rfl⟩ := Option.map_eq_some_iff.1 h
  rw [InRange, date_onDate]
  exact (Date.eq_addDays_of_addDays?_eq_some hd).2

theorem inRange_getD_addSeconds? (hr : r.InRange) (n : Int) : ((r.addSeconds? n).getD r).InRange := by
  cases h : r.addSeconds? n with
  | none => exact hr
  | some r' =>
    obtain ⟨hin, rfl⟩ := inRange?_eq_some_iff.1 h
    exact hin

end Calendar.Reading

theorem CalendarShift.inRange_of_addTo? {s : CalendarShift} {w w' : WallTime}
    (h : s.addTo? w = some w') : w'.InRange := by
  obtain ⟨w₁, -, h⟩ := Option.bind_eq_some_iff.1 h
  obtain ⟨w₂, -, h⟩ := Option.bind_eq_some_iff.1 h
  exact Reading.inRange_of_addDays? h

theorem Zone.Maps.inRange_resolve {z : Zone} {w : WallTime} (hm : z.Maps w) (hz : z.Regular) :
    (z.resolve w).InRange := by
  cases hi : z.instantsAt w with
  | cons t ts =>
    rw [resolve_of_cons hi]
    have ht : t ∈ z.instantsAt w := by
      rw [hi]
      exact List.mem_cons_self
    exact (of_mem_instantsAt ht).1
  | nil =>
    obtain ⟨o, ho⟩ : ∃ o, o = z.offsetAt (w.second - 86400) := ⟨_, rfl⟩
    have hsize := natAbs_offsetAt_lt hz (w.second - 86400)
    have hne : z.offsetAt (w.second - 86400) ≠ z.offsetAt (w.second - o) := by
      rw [← ho]
      intro he
      have hmem := (mem_offsetsAt_iff hz).2 he.symm
      rw [hm.offsetsAt_eq_nil hi] at hmem
      cases hmem
    -- clocks are put forward in between, and this never happens near the ends of the range
    obtain ⟨x, hx, hlo, hhi⟩ := exists_transition_of_offsetAfter_ne (by omega) hne
    have hinside := z.inside x hx
    have hbounds : w.second - o ≤ (z.resolve w).second ∧ (z.resolve w).second ≤ w.second - o + 1 := by
      rw [resolve_of_instantsAt_eq_nil hm hi, Reading.second_addSeconds, ← ho]
      simp only
      split <;> omega
    rw [Reading.inRange_iff]
    omega

namespace Duration

variable {d : Duration} {p : Period} {z : Zone} {t u : Instant} {w : WallTime}

theorem amountBesideAnchor_le_amount (d : Duration) (u : TimeUnit) :
    d.amountBesideAnchor u ≤ (d.amount u).toNat := by
  rw [amountBesideAnchor]
  split
  · exact Nat.zero_le _
  · exact Nat.le_refl _

def wallEnd (d : Duration) (w : WallTime) : WallTime :=
  match d.reference.period? with
  | none => d.shift w
  | some p => d.boundary p (d.anchoredDate p w)

def MapsBack (d : Duration) (w : WallTime) : Prop := d.reference.isAnchored = true ∨ d.shift w ≠ w

instance : Decidable (d.MapsBack w) := inferInstanceAs (Decidable (_ ∨ _))

/-- The wall time at `t` lies in the range, and so does the instant that a wall time is mapped back to. -/
structure StaysInRange (d : Duration) (z : Zone) (t : Instant) : Prop where
  wall : (z.wallAt t).InRange
  mapped : d.MapsBack (z.wallAt t) → (z.resolve (d.wallEnd (z.wallAt t))).InRange

instance : Decidable (d.StaysInRange z t) :=
  decidable_of_iff ((z.wallAt t).InRange ∧
    (d.MapsBack (z.wallAt t) → (z.resolve (d.wallEnd (z.wallAt t))).InRange))
    ⟨fun h => ⟨h.1, h.2⟩, fun h => ⟨h.wall, h.mapped⟩⟩

def additiveBase (d : Duration) (z : Zone) (t : Instant) : Instant :=
  if d.shift (z.wallAt t) = z.wallAt t then t else z.resolve (d.shift (z.wallAt t))

def evaluateAdditive (d : Duration) (z : Zone) (t : Instant) : Instant :=
  ((d.additiveBase z t).addSeconds? d.timeSeconds).getD (d.additiveBase z t)

def evaluate (d : Duration) (z : Zone) (t : Instant) : Instant :=
  if d.reference.isAnchored then z.resolve (d.wallEnd (z.wallAt t)) else d.evaluateAdditive z t

theorem evaluate_of_period? (hp : d.reference.period? = some p) (z : Zone) (t : Instant) :
    d.evaluate z t = z.resolve (d.boundary p (d.anchoredDate p (z.wallAt t))) := by
  rw [evaluate, Reference.isAnchored, hp, wallEnd, hp]
  rfl

theorem evaluate_of_additive (hp : d.reference.period? = none) (z : Zone) (t : Instant) :
    d.evaluate z t = d.evaluateAdditive z t := by
  rw [evaluate, Reference.isAnchored, hp]
  rfl

theorem evaluateAdditive?_eq (hp : d.reference.period? = none) (z : Zone) (t : Instant) :
    d.evaluateAdditive? z t (z.wallAt t) =
      if d.MapsBack (z.wallAt t) → (z.resolve (d.wallEnd (z.wallAt t))).InRange then
        some (d.evaluateAdditive z t) else none := by
  simp only [evaluateAdditive?, additiveBase?, evaluateAdditive, additiveBase, MapsBack, wallEnd, hp,
    Reference.isAnchored, Option.isSome_none, Bool.false_eq_true, false_or, Zone.resolve?, Reading.inRange?]
  by_cases hmoved : d.shift (z.wallAt t) = z.wallAt t
  · simp only [hmoved, ne_eq, not_true, false_implies, if_true, Option.map_some]
  · simp only [hmoved, ne_eq, not_false_iff, true_implies, if_false]
    split <;> rfl

theorem evaluateAnchored?_eq (hp : d.reference.period? = some p) (z : Zone) (t : Instant) :
    d.evaluateAnchored? p z (z.wallAt t) =
      if d.MapsBack (z.wallAt t) → (z.resolve (d.wallEnd (z.wallAt t))).InRange then
        some (z.resolve (d.wallEnd (z.wallAt t))) else none := by
  simp only [evaluateAnchored?, MapsBack, wallEnd, hp, Reference.isAnchored, Option.isSome_some, true_or,
    true_implies, Zone.resolve?, Reading.inRange?]

theorem evaluate?_eq_ite (d : Duration) (z : Zone) (t : Instant) :
    d.evaluate? z t = if d.StaysInRange z t then some (d.evaluate z t) else none := by
  by_cases hw : (z.wallAt t).InRange
  · have hwall : z.wallAt? t = some (z.wallAt t) := if_pos hw
    have hstays : d.StaysInRange z t ↔
        (d.MapsBack (z.wallAt t) → (z.resolve (d.wallEnd (z.wallAt t))).InRange) :=
      ⟨fun h => h.mapped, fun h => ⟨hw, h⟩⟩
    rw [evaluate?, hwall]
    simp only [hstays]
    cases hp : d.reference.period? with
    | none =>
      rw [evaluate_of_additive hp, ← evaluateAdditive?_eq hp]
      rfl
    | some p =>
      rw [evaluate, Reference.isAnchored, hp, Option.isSome_some, if_pos rfl, ← evaluateAnchored?_eq hp]
      rfl
  · have hwall : z.wallAt? t = none := if_neg hw
    rw [evaluate?, hwall, if_neg fun h => hw h.wall]
    rfl

theorem evaluate?_of_staysInRange (h : d.StaysInRange z t) : d.evaluate? z t = some (d.evaluate z t) := by
  rw [evaluate?_eq_ite, if_pos h]

theorem evaluate?_eq_none_iff : d.evaluate? z t = none ↔ ¬ d.StaysInRange z t := by
  rw [evaluate?_eq_ite]
  split
  · next h => exact iff_of_false (by simp) fun hn => hn h
  · next h => exact iff_of_true rfl h

theorem isSome_evaluate?_iff : (d.evaluate? z t).isSome = true ↔ d.StaysInRange z t := by
  rw [evaluate?_eq_ite]
  split
  · next h => exact iff_of_true rfl h
  · next h => exact iff_of_false (by simp) h

theorem inRange_shift (d : Duration) (hw : w.InRange) : (d.shift w).InRange := by
  rw [shift]
  cases h : d.calendarShift.addTo? w with
  | none => exact hw
  | some w' => exact CalendarShift.inRange_of_addTo? h

theorem inRange_reached (d : Duration) (hw : w.InRange) : (d.reached w).InRange :=
  Reading.inRange_getD_addSeconds? (d.inRange_shift hw) _

theorem inRange_anchoredDate (d : Duration) (p : Period) (hw : w.InRange) :
    (d.anchoredDate p w).InRange := by
  have hreached := d.inRange_reached hw
  simp only [anchoredDate]
  cases h : d.advance? p (d.reached w).date with
  | none => exact hreached
  | some e => exact Period.inRange_of_advance? h

theorem inRange_boundary (d : Duration) (p : Period) {e : Date} (he : e.InRange) :
    (d.boundary p e).InRange := by
  rw [boundary]
  split
  · exact Reading.inRange_ofDate (p.inRange_first he)
  · exact Reading.inRange_endOfDate (p.inRange_last he)

theorem inRange_wallEnd (d : Duration) (hw : w.InRange) : (d.wallEnd w).InRange := by
  rw [wallEnd]
  cases d.reference.period? with
  | none => exact d.inRange_shift hw
  | some p => exact d.inRange_boundary p (d.inRange_anchoredDate p hw)

theorem StaysInRange.inRange_evaluate (h : d.StaysInRange z t) (ht : t.InRange) :
    (d.evaluate z t).InRange := by
  cases hp : d.reference.period? with
  | none =>
    rw [evaluate_of_additive hp]
    refine Reading.inRange_getD_addSeconds? ?_ _
    rw [additiveBase]
    split
    · exact ht
    · next hmoved =>
      have hin := h.mapped (.inr hmoved)
      rwa [wallEnd, hp] at hin
  | some p =>
    rw [evaluate, Reference.isAnchored, hp]
    exact h.mapped (.inl (by rw [Reference.isAnchored, hp]; rfl))

theorem staysInRange_utc (d : Duration) (ht : t.InRange) : d.StaysInRange .utc t :=
  have hw := Zone.inRange_wallAt_utc ht
  ⟨hw, fun _ => Zone.inRange_resolve_utc (d.inRange_wallEnd hw)⟩

theorem evaluate?_utc (d : Duration) (ht : t.InRange) :
    d.evaluate? .utc t = some (d.evaluate .utc t) :=
  evaluate?_of_staysInRange (d.staysInRange_utc ht)

end Duration

end Timetable
