import Timetable.Proofs.Duration.Anchored
import Timetable.Proofs.Duration.RoundTrip
import Timetable.Proofs.Engine.Basic
import Timetable.Proofs.Engine.Ending
import Timetable.Proofs.Schedule.Agreement
import Timetable.Zone.Known

namespace Timetable

open Calendar

namespace Zone

variable {z : Zone} {w : WallTime}

/-- Wall clocks do not skip `w`: they show it at an instant of the calendar's range. -/
def Shows (z : Zone) (w : WallTime) : Prop := ∃ t : Instant, t.InRange ∧ z.wallAt t = w

theorem InOrder.resolve_of_shows (hz : z.InOrder) (hw : z.Shows w) :
    (z.resolve w).InRange ∧ z.wallAt (z.resolve w) = w := by
  have hmem := hw.imp fun t ht => hz.mem_instantsAt_iff.2 ht
  cases hi : z.instantsAt w with
  | nil =>
    simp only [hi, List.not_mem_nil, exists_false] at hmem
  | cons u us =>
    have hu : u ∈ z.instantsAt w := by
      rw [hi]
      exact List.mem_cons_self
    rw [resolve_of_cons hi]
    exact hz.mem_instantsAt_iff.1 hu

end Zone

namespace Duration

variable {d : Duration} {p : Period} {z : Zone} {t : Instant}

theorem boundary_date_boundary (d : Duration) (p : Period) (date : Date) :
    d.boundary p (d.boundary p date).date = d.boundary p date := by
  rw [boundary]
  split
  · rw [boundary, if_pos ‹_›, Reading.date_ofDate, Period.first_first]
  · rw [boundary, if_neg ‹_›, Reading.date_endOfDate, Period.last_last]

theorem countsPeriods_zero (hp : d.reference.period? = some p) (hl : d.hasLength = false) :
    d.CountsPeriods p 0 := by
  have hzero := hasLength_eq_false_iff.1 hl
  have hbeside (u : TimeUnit) : d.amountBesideAnchor u = 0 := by
    rw [amountBesideAnchor, hzero u]
    exact ite_self 0
  refine ⟨hp, ?_, ?_, ?_⟩
  · simp only [calendarShift, hbeside]
  · rw [hasLength, Bool.or_eq_false_iff] at hl
    exact timeSeconds_of_hasTimeLength hl.2
  · rw [anchorOffset]
    cases d.reference.unit? with
    | none => rfl
    | some u => exact hzero u

theorem wallEnd_of_hasLength (hp : d.reference.period? = some p) (hl : d.hasLength = false)
    (w : WallTime) : d.wallEnd w = d.boundary p w.date := by
  simp only [wallEnd, hp, (countsPeriods_zero hp hl).anchoredDate_zero]

theorem evaluate_eq_resolve_wallEnd (hp : d.reference.period? = some p) (z : Zone) (t : Instant) :
    d.evaluate z t = z.resolve (d.wallEnd (z.wallAt t)) := by
  rw [evaluate_of_period? hp, wallEnd, hp]

theorem wallEnd_wallEnd (hp : d.reference.period? = some p) (hl : d.hasLength = false) (w : WallTime) :
    d.wallEnd (d.wallEnd w) = d.wallEnd w := by
  simp only [wallEnd_of_hasLength hp hl, boundary_date_boundary]

theorem evaluate?_evaluate (hz : z.InOrder) (hp : d.reference.period? = some p)
    (hl : d.hasLength = false) (hs : z.Shows (d.wallEnd (z.wallAt t))) (hw : (z.wallAt t).InRange) :
    d.evaluate? z t = some (d.evaluate z t) ∧
      d.evaluate? z (d.evaluate z t) = some (d.evaluate z t) := by
  obtain ⟨hin, hshown⟩ := hz.resolve_of_shows hs
  have hmapped := evaluate_eq_resolve_wallEnd hp z t
  have hwall : z.wallAt (d.evaluate z t) = d.wallEnd (z.wallAt t) := by rw [hmapped, hshown]
  have hagain : d.wallEnd (z.wallAt (d.evaluate z t)) = d.wallEnd (z.wallAt t) := by
    rw [hwall, wallEnd_wallEnd hp hl]
  have hstays : d.StaysInRange z t := ⟨hw, fun _ => hin⟩
  have hstays' : d.StaysInRange z (d.evaluate z t) := by
    refine ⟨?_, fun _ => by rwa [hagain]⟩
    rw [hwall]
    exact d.inRange_wallEnd hw
  have hfixed : d.evaluate z (d.evaluate z t) = d.evaluate z t := by
    calc d.evaluate z (d.evaluate z t)
        = z.resolve (d.wallEnd (z.wallAt (d.evaluate z t))) := evaluate_eq_resolve_wallEnd hp z _
      _ = z.resolve (d.wallEnd (z.wallAt t)) := by rw [hagain]
      _ = d.evaluate z t := hmapped.symm
  exact ⟨evaluate?_of_staysInRange hstays, by rw [evaluate?_of_staysInRange hstays', hfixed]⟩

theorem wellFormed_of_isAnchored (ha : d.reference.isAnchored = true) (hl : d.hasLength = false)
    (he : d.event = none) : d.WellFormed := by
  refine ⟨⟨fun u => ?_, fun hr => ?_, fun hr => ?_, fun name hn => ?_⟩, .inr (.inr ha)⟩
  · rw [hasLength_eq_false_iff.1 hl u]
    exact Nat.zero_le _
  · rw [hr] at ha
    cases ha
  · rw [hr] at ha
    cases ha
  · rw [he] at hn
    cases hn

end Duration

namespace Engine

variable {e : Engine} {d : Duration} {t : Instant} {text : String}

theorem computeNext_of_duration [TimezoneDatabase] (h : Expression.parse text = .ok (.duration d)) :
    e.computeNext text t = .ofOption (d.evaluate? e.timezone.zone t) := by
  have hd := Duration.wellFormed_of_parse (Expression.parse_eq_duration_iff.1 h)
  simp only [computeNext, h, Outcome.ofExcept, Outcome.ok_bind, evaluate_of_wellFormed hd]

theorem isTimeMatch_of_duration [TimezoneDatabase] (h : Expression.parse text = .ok (.duration d)) :
    e.isTimeMatch text t =
      (Outcome.ofOption (d.evaluate? e.timezone.zone t) >>= fun u => .ok (u == t)) := by
  have hd := Duration.wellFormed_of_parse (Expression.parse_eq_duration_iff.1 h)
  simp only [isTimeMatch, h, Outcome.ofExcept, Outcome.ok_bind, evaluate_of_wellFormed hd]
  rfl

/-- What `d` names from `t` it names again from there, and the engine finds this from every text of `d`, the
canonical one among them. -/
structure FixesBoundary [TimezoneDatabase] (e : Engine) (d : Duration) (t : Instant) : Prop where
  fixed : ∃ u, d.evaluate? e.timezone.zone t = some u ∧ d.evaluate? e.timezone.zone u = some u
  canonical : Expression.parse d.canonical = .ok (.duration d)
  text : ∀ text, Expression.parse text = .ok (.duration d) →
    ∃ u, e.computeNext text t = .ok u ∧ e.isTimeMatch text u = .ok true

theorem fixesBoundary_iff_inRange [TimezoneDatabase] (hz : e.timezone.zone.InOrder)
    (ha : d.reference.isAnchored = true) (hl : d.hasLength = false) (he : d.event = none)
    (hs : e.timezone.zone.Shows (d.wallEnd (e.timezone.zone.wallAt t))) :
    (e.FixesBoundary d t ↔ (e.timezone.zone.wallAt t).InRange) ∧
      (¬ (e.timezone.zone.wallAt t).InRange → d.evaluate? e.timezone.zone t = none ∧
        ∀ text, Expression.parse text = .ok (.duration d) → e.computeNext text t = .outOfRange) := by
  obtain ⟨p, hp⟩ := Option.isSome_iff_exists.1 ha
  have hd := Duration.wellFormed_of_isAnchored ha hl he
  refine ⟨⟨fun h => ?_, fun hw => ?_⟩, fun hw => ?_⟩
  · obtain ⟨u, hu, -⟩ := h.fixed
    exact (Duration.isSome_evaluate?_iff.1 (by rw [hu]; rfl)).wall
  · obtain ⟨hfirst, hagain⟩ := Duration.evaluate?_evaluate hz hp hl hs hw
    refine ⟨⟨_, hfirst, hagain⟩, ?_, fun text h => ⟨d.evaluate e.timezone.zone t, ?_, ?_⟩⟩
    · rw [Expression.parse_eq_duration_iff, Duration.parse_canonical hd,
        Duration.reread_eq_self (.inl ha)]
    · rw [computeNext_of_duration h, hfirst]
      rfl
    · rw [isTimeMatch_of_duration h, hagain]
      exact congrArg Outcome.ok (beq_self_eq_true _)
  · have hnone : d.evaluate? e.timezone.zone t = none :=
      Duration.evaluate?_eq_none_iff.2 fun h => hw h.wall
    refine ⟨hnone, fun text h => ?_⟩
    rw [computeNext_of_duration h, hnone]
    rfl

def inSaoPaulo : Engine := .ofHorizon 10 ⟨"America/Sao_Paulo", Zone.saoPaulo⟩

theorem fixesBoundary_endOfFirstPass : Zone.saoPaulo.InOrder ∧
    (Duration.ending .day).reference.isAnchored = true ∧ (Duration.ending .day).hasLength = false ∧
    (Duration.ending .day).event = none ∧
    Zone.saoPaulo.Shows ((Duration.ending .day).wallEnd (Zone.saoPaulo.wallAt lateEveningAgain)) ∧
    (Zone.saoPaulo.wallAt lateEveningAgain).InRange ∧
    inSaoPaulo.FixesBoundary (.ending .day) lateEveningAgain ∧
    inSaoPaulo.computeNext (Duration.ending .day).canonical lateEveningAgain = .ok endOfFirstPass := by
  have hfind : TimezoneDatabase.find? "America/Sao_Paulo" = some inSaoPaulo.timezone := by rfl
  have hz : Zone.saoPaulo.InOrder := (TimezoneDatabase.regular hfind).inOrder
  have hs : Zone.saoPaulo.Shows
      ((Duration.ending .day).wallEnd (Zone.saoPaulo.wallAt lateEveningAgain)) :=
    ⟨endOfFirstPass, by decide, by decide +kernel⟩
  have hw : (Zone.saoPaulo.wallAt lateEveningAgain).InRange := by decide +kernel
  have hfixes := (fixesBoundary_iff_inRange (e := inSaoPaulo) hz rfl rfl rfl hs).1.2 hw
  have hend : (Duration.ending .day).evaluate? Zone.saoPaulo lateEveningAgain = some endOfFirstPass := by
    decide +kernel
  refine ⟨hz, rfl, rfl, rfl, hs, hw, hfixes, ?_⟩
  rw [computeNext_of_duration hfixes.canonical, show inSaoPaulo.timezone.zone = Zone.saoPaulo from rfl,
    hend]
  rfl

theorem not_fixesBoundary_lastHour : Zone.kolkata.InOrder ∧
    (Duration.starting .day).reference.isAnchored = true ∧ (Duration.starting .day).hasLength = false ∧
    (Duration.starting .day).event = none ∧
    Zone.kolkata.Shows ((Duration.starting .day).wallEnd (Zone.kolkata.wallAt lastHour)) ∧
    Expression.parse "S0D" = .ok (.duration (.starting .day)) ∧
    inKolkata.computeNext "S0D" lastHour = .outOfRange ∧
    ¬ inKolkata.FixesBoundary (.starting .day) lastHour := by
  have hparse : Expression.parse "S0D" = .ok (.duration (.starting .day)) := by rfl
  have hnext : inKolkata.computeNext "S0D" lastHour = .outOfRange := by decide +kernel
  refine ⟨by decide, rfl, rfl, rfl, ⟨.ofSecond 8210266857000, by decide, by decide +kernel⟩, hparse,
    hnext, fun h => ?_⟩
  obtain ⟨u, hu, -⟩ := h.text "S0D" hparse
  cases hnext.symm.trans hu

end Engine

end Timetable
