import Timetable.Proofs.Engine.Boundary

namespace Timetable

open Calendar

namespace Duration

variable {d : Duration}

structure LengthTold (d : Duration) : Prop where
  amount_le : ∀ u, (d.amount u).toNat ≤ 100000
  approxSeconds? : d.approxSeconds? = some
    (86400 * (365 * d.years.toNat + 30 * d.months.toNat + 7 * d.weeks.toNat + d.days.toNat) +
      3600 * d.hours.toNat + 60 * d.minutes.toNat + d.seconds.toNat)

theorem WellFormed.lengthTold (h : d.WellFormed) : d.LengthTold := by
  refine ⟨h.amount_le, ?_⟩
  rw [h.approxSeconds?, Option.some.injEq, approxSeconds, approxDays, timeSeconds]
  omega

end Duration

namespace Expression

variable {text : String} {x : Expression} {d : Duration}

theorem wellFormed_of_duration? [TimezoneDatabase] (h : parse text = .ok x) (hd : x.duration? = some d) : d.WellFormed := by
  cases x with
  | cron s => cases hd
  | hybrid s => exact (sound_of_parse h rfl).endOfDuration d hd
  | duration d' =>
    cases hd
    exact Duration.wellFormed_of_parse (parse_eq_duration_iff.1 h)

end Expression

namespace Engine

variable {e : Engine} {d : Duration} {t : Instant} {text : String}

example : default.evaluate { years := 4294967295 } (.ofSecond 0) = .outOfRange := by decide

theorem endOfExpression_of_duration [TimezoneDatabase] (h : Expression.parse text = .ok (.duration d)) :
    e.endOfExpression text t =
      (Outcome.ofOption (d.evaluate? e.timezone.zone t) >>= fun u => .ok (some u)) := by
  have hd := Expression.wellFormed_of_duration? h rfl
  simp only [endOfExpression, h, Outcome.ofExcept, Outcome.ok_bind, evaluate_of_wellFormed hd]
  rfl

theorem endOf_eq_outOfRange_iff {s : Schedule} : e.endOf s t = .outOfRange ↔
    ∃ d, s.endOfDuration = some d ∧ ¬ d.StaysInRange (e.timezoneOf s).zone t := by
  rw [endOf]
  cases hs : s.endOfDuration with
  | none => simp
  | some d =>
    simp only [Option.some.injEq, exists_eq_left', ← Duration.evaluate?_eq_none_iff]
    cases d.evaluate? (e.timezoneOf s).zone t with
    | none => exact iff_of_true rfl rfl
    | some u => exact iff_of_false (by simp [Outcome.ofOption]) (by simp)

/-- What the engine makes of a text. A duration has the answer of the calendar, whether or not it is long,
and there is none only where a wall time leaves the range. -/
structure AnswersText [TimezoneDatabase] (e : Engine) (text : String) (t : Instant) : Prop where
  refused : ∀ c, Expression.parse text = .error c → e.computeNext text t = .error c ∧
    e.isTimeMatch text t = .error c ∧ e.endOfExpression text t = .error c
  stays : ∀ d, Expression.parse text = .ok (.duration d) → d.StaysInRange e.timezone.zone t →
    ∃ u, d.evaluate? e.timezone.zone t = some u ∧ e.computeNext text t = .ok u ∧
      e.isTimeMatch text t = .ok (u == t) ∧ e.endOfExpression text t = .ok (some u)
  leaves : ∀ d, Expression.parse text = .ok (.duration d) → ¬ d.StaysInRange e.timezone.zone t →
    d.evaluate? e.timezone.zone t = none ∧ e.computeNext text t = .outOfRange ∧
      e.isTimeMatch text t = .outOfRange ∧ e.endOfExpression text t = .outOfRange
  schedule : ∀ x s, Expression.parse text = .ok x → x.schedule? = some s →
    e.computeNext text t = e.next s t ∧ e.isTimeMatch text t = e.isMatch s t ∧
      e.endOfExpression text t = e.endOf s t ∧
      (e.endOfExpression text t = .outOfRange ↔
        ∃ d, s.endOfDuration = some d ∧ ¬ d.StaysInRange (e.timezoneOf s).zone t)

theorem answersText [TimezoneDatabase] (e : Engine) (text : String) (t : Instant) :
    e.AnswersText text t := by
  constructor
  · intro c h
    simp only [computeNext, isTimeMatch, endOfExpression, h, Outcome.ofExcept, Outcome.error_bind,
      and_self]
  · intro d h hr
    have hu := Duration.evaluate?_of_staysInRange hr
    refine ⟨_, hu, ?_⟩
    rw [computeNext_of_duration h, isTimeMatch_of_duration h, endOfExpression_of_duration h, hu]
    exact ⟨rfl, rfl, rfl⟩
  · intro d h hr
    have hnone := Duration.evaluate?_eq_none_iff.2 hr
    refine ⟨hnone, ?_⟩
    rw [computeNext_of_duration h, isTimeMatch_of_duration h, endOfExpression_of_duration h, hnone]
    exact ⟨rfl, rfl, rfl⟩
  · intro x s h hs
    rw [← endOf_eq_outOfRange_iff]
    simp only [computeNext, isTimeMatch, endOfExpression, h, Outcome.ofExcept, Outcome.ok_bind]
    cases x with
    | cron s' =>
      cases hs
      exact ⟨rfl, rfl, rfl, Iff.rfl⟩
    | hybrid s' =>
      cases hs
      exact ⟨rfl, rfl, rfl, Iff.rfl⟩
    | duration d => cases hs

theorem lengthTold_and_answers [TimezoneDatabase] (text : String) :
    (∀ x d, Expression.parse text = .ok x → x.duration? = some d → d.LengthTold) ∧
      ∀ (e : Engine) (t : Instant), e.AnswersText text t := by
  constructor
  · intro x d h hd
    have hwell := Expression.wellFormed_of_duration? h hd
    exact hwell.lengthTold
  · intro e t
    exact answersText e text t

def repeatedDays : Duration :=
  { years := 100000, days := 100000, reference := .day, fromStart := true }

def repeatedHours : Duration := { hours := 100000, minutes := 100000, event := some "deploy" }

theorem lengthTold_repeated :
    Expression.parse "S60000D40000D100000Y" = .ok (.duration repeatedDays) ∧
      repeatedDays.LengthTold ∧
      (∃ u, inSaoPaulo.computeNext "S60000D40000D100000Y" lateEveningAgain = .ok u) ∧
      ∃ x, Expression.parse "0 9 * * 1-5 EOD:E60000H40000H100000M E[deploy]" = .ok x ∧
        x.duration? = some repeatedHours ∧ repeatedHours.LengthTold := by
  have hdays : Expression.parse "S60000D40000D100000Y" = .ok (.duration repeatedDays) := by rfl
  have hhours : ((Expression.parse "0 9 * * 1-5 EOD:E60000H40000H100000M E[deploy]").toOption.bind
      Expression.duration?) = some repeatedHours := by decide +kernel
  have hstays : repeatedDays.StaysInRange Zone.saoPaulo lateEveningAgain := by decide +kernel
  obtain ⟨hlength, hanswers⟩ := lengthTold_and_answers "S60000D40000D100000Y"
  obtain ⟨u, -, hnext, -⟩ := (hanswers inSaoPaulo _).stays _ hdays hstays
  refine ⟨hdays, hlength _ _ hdays rfl, ⟨u, hnext⟩, ?_⟩
  cases hx : Expression.parse "0 9 * * 1-5 EOD:E60000H40000H100000M E[deploy]" with
  | error c =>
    rw [hx] at hhours
    cases hhours
  | ok x =>
    rw [hx] at hhours
    exact ⟨x, rfl, hhours, (lengthTold_and_answers _).1 x _ hx hhours⟩

end Engine

end Timetable
