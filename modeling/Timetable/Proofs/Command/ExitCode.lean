import Timetable.Command
import Timetable.Proofs.Duration.Reach
import Timetable.Proofs.Engine.Compile
import Timetable.Proofs.Engine.Run
import Timetable.Proofs.Schedule.Agreement
import Timetable.Proofs.Schedule.Malformed

namespace Timetable

open Calendar

namespace Engine

variable {e : Engine} {s : Schedule} {d : Duration} {t : Instant}

theorem exists_evaluate (hz : e.timezone.zone.InOrder) (ht : t.InWrittenYears) (hd : d.WellFormed) :
    ∃ u, e.evaluate d t = .ok u := by
  rw [evaluate_of_wellFormed hd, Duration.evaluate?_of_staysInRange (ht.staysInRange hz hd.toSound)]
  exact ⟨_, rfl⟩

theorem exists_isMatch (hz : (e.timezoneOf s).zone.InOrder) (ht : t.InWrittenYears) :
    ∃ b, e.isMatch s t = .ok b := by
  by_cases hs : s.special = none
  · exact ⟨_, isMatch_of_inRange hs (ht.inRange_wallAt hz)⟩
  · rw [isMatch, plan, special_of_ne_none hs]
    exact ⟨false, rfl⟩

theorem exists_endOf (hz : (e.timezoneOf s).zone.InOrder) (ht : t.InWrittenYears)
    (hd : ∀ d, s.endOfDuration = some d → d.WellFormed) : ∃ u, e.endOf s t = .ok u := by
  rw [endOf]
  cases hs : s.endOfDuration with
  | none => exact ⟨none, rfl⟩
  | some d =>
    simp only [Duration.evaluate?_of_staysInRange (ht.staysInRange hz (hd d hs).toSound)]
    exact ⟨_, rfl⟩

theorem exists_firings_cons {u : Instant} {n : Nat} (hu : e.next s t = .ok u)
    (hr : e.firings s t (n + 1) ≠ .outOfRange) : ∃ us, e.firings s t (n + 1) = .ok (u :: us) := by
  rw [firings_of_ok hu] at hr ⊢
  cases hrest : e.firings s u n with
  | ok us => exact ⟨us, rfl⟩
  | error c =>
    have hnext : e.next s t = .error .notOnCalendar :=
      plan_bind_eq_notOnCalendar_iff.2 (firings_eq_error hrest).1
    rw [hu] at hnext
    cases hnext
  | outOfRange =>
    rw [hrest] at hr
    exact absurd rfl hr

theorem inOrder_timezoneOf [TimezoneDatabase] (hz : e.timezone.zone.InOrder) (hs : s.TimezoneKnown) :
    (e.timezoneOf s).zone.InOrder := by
  rw [timezoneOf]
  cases h : s.timezone with
  | none => exact hz
  | some z => exact (TimezoneDatabase.regular (hs z h)).inOrder

end Engine

theorem toNat_max_one_pos (n : UInt64) : 0 < (max n 1).toNat := by
  change 0 < (if n ≤ 1 then 1 else n).toNat
  split
  · decide
  · next h =>
    rw [UInt64.le_iff_toNat_le] at h
    exact Nat.lt_of_lt_of_le (by decide) (Nat.le_of_not_le h)

namespace Command

section
variable [TimezoneDatabase] {e : Engine} {cmd : Command} {x : Expression} {s : Schedule} {t : Instant}
  {c : Error}

def source : Command → String
  | parse text _ | next text .. | prev text _ | isMatch text _ | endOf text _ => text

def instant? : Command → Option Instant
  | parse .. => none
  | next _ t _ | prev _ t | isMatch _ t | endOf _ t => some t

/-- No search of a command whose expression is `x` leaves the calendar's range. -/
def InRange (e : Engine) (x : Expression) : Command → Prop
  | next _ t n => ∀ s, x.schedule? = some s → (max n 1).toNat ≤ Engine.maxListed →
      e.nextN s t (max n 1) ≠ .outOfRange
  | prev _ t => ∀ s, x.schedule? = some s → e.prev s t ≠ .outOfRange
  | _ => True

/-- More times of a schedule are asked for than a list has room for. -/
def AsksTooMany : Command → Prop
  | next text _ n => Engine.maxListed < (max n 1).toNat ∧
      ∃ x s, Expression.parse text = .ok x ∧ x.schedule? = some s
  | _ => False

def Unanswered (e : Engine) (x : Expression) : Command → Prop
  | next _ t _ => ∃ s, x.schedule? = some s ∧ ∀ u, e.next s t ≠ .ok u
  | prev _ t => x.schedule? = none ∨ ∃ s, x.schedule? = some s ∧ ∀ u, e.prev s t ≠ .ok u
  | _ => False

def FailsWith (e : Engine) (cmd : Command) (code : Nat) : Prop :=
  ∃ f, run e cmd = .error f ∧ f.exitCode = code

theorem readExpression_error {text : String} (h : Expression.parse text = .error c) :
    readExpression text = .error (.unreadable text c) := by
  rw [readExpression, h]
  rfl

theorem readExpression_ok {text : String} (h : Expression.parse text = .ok x) : readExpression text = .ok x := by
  rw [readExpression, h]
  rfl

theorem failsWith_of_malformed (h : Expression.parse cmd.source = .error c) :
    cmd.FailsWith e 2 := by
  have hcode : Failure.codeOf c = 2 :=
    if_pos ((Expression.failsMalformed_parse _).isMalformed c h)
  cases cmd with
  | parse text json =>
    rw [source] at h
    refine ⟨.unreadable text c, ?_, hcode⟩
    rw [run, runParse, readExpression_error h]
    rfl
  | next text t n =>
    rw [source] at h
    refine ⟨.unreadable text c, ?_, hcode⟩
    rw [run, runNext, readExpression_error h]
    rfl
  | prev text t =>
    rw [source] at h
    refine ⟨.unreadable text c, ?_, hcode⟩
    rw [run, runPrev, readExpression_error h]
    rfl
  | isMatch text t =>
    rw [source] at h
    refine ⟨.unanswered c, ?_, hcode⟩
    rw [run, runMatch, Engine.isTimeMatch, h]
    rfl
  | endOf text t =>
    rw [source] at h
    refine ⟨.unanswered c, ?_, hcode⟩
    rw [run, runEnd, Engine.endOfExpression, h]
    rfl

theorem wellFormed_of_parse {text : String} {d : Duration}
    (h : Expression.parse text = .ok (.duration d)) : d.WellFormed :=
  Duration.wellFormed_of_parse (Expression.parse_eq_duration_iff.1 h)

theorem inOrder_of_parse {text : String} (hz : e.timezone.zone.InOrder)
    (h : Expression.parse text = .ok x) (hx : x.schedule? = some s) : (e.timezoneOf s).zone.InOrder :=
  Engine.inOrder_timezoneOf hz (Schedule.Obtainable.expression h hx).timezoneKnown

theorem run_parse {text : String} {json : Bool} (h : Expression.parse text = .ok x) :
    ∃ out, run e (.parse text json) = .ok out := by
  rw [run, runParse, readExpression_ok h]
  cases json with
  | false => exact ⟨_, rfl⟩
  | true => exact ⟨_, rfl⟩

theorem run_isMatch {text : String} (hz : e.timezone.zone.InOrder) (ht : t.InWrittenYears)
    (h : Expression.parse text = .ok x) : ∃ out, run e (.isMatch text t) = .ok out := by
  have hschedule {s : Schedule} (hx : x.schedule? = some s) : ∃ b, e.isMatch s t = .ok b :=
    Engine.exists_isMatch (inOrder_of_parse hz h hx) ht
  obtain ⟨b, hb⟩ : ∃ b, e.isTimeMatch text t = .ok b := by
    rw [Engine.isTimeMatch, h]
    cases x with
    | cron s => exact hschedule rfl
    | hybrid s => exact hschedule rfl
    | duration d =>
      obtain ⟨u, hu⟩ := Engine.exists_evaluate hz ht (wellFormed_of_parse h)
      exact ⟨u == t, by simp only [Outcome.ofExcept, Outcome.ok_bind, hu, Outcome.pure_eq]⟩
  rw [run, runMatch, hb]
  exact ⟨_, rfl⟩

theorem run_endOf {text : String} (hz : e.timezone.zone.InOrder) (ht : t.InWrittenYears)
    (h : Expression.parse text = .ok x) : ∃ out, run e (.endOf text t) = .ok out := by
  have hschedule {s : Schedule} (hx : x.schedule? = some s) : ∃ u, e.endOf s t = .ok u :=
    Engine.exists_endOf (inOrder_of_parse hz h hx) ht (Expression.sound_of_parse h hx).endOfDuration
  obtain ⟨u, hu⟩ : ∃ u, e.endOfExpression text t = .ok u := by
    rw [Engine.endOfExpression, h]
    cases x with
    | cron s => exact hschedule rfl
    | hybrid s => exact hschedule rfl
    | duration d =>
      obtain ⟨u, hu⟩ := Engine.exists_evaluate hz ht (wellFormed_of_parse h)
      exact ⟨some u, by simp only [Outcome.ofExcept, Outcome.ok_bind, hu, Outcome.pure_eq]⟩
  rw [run, runEnd, hu]
  exact ⟨_, rfl⟩

theorem run_next_of_duration {text : String} {n : UInt64} {d : Duration}
    (hz : e.timezone.zone.InOrder) (ht : t.InWrittenYears)
    (h : Expression.parse text = .ok (.duration d)) : ∃ out, run e (.next text t n) = .ok out := by
  obtain ⟨u, hu⟩ := Engine.exists_evaluate hz ht (wellFormed_of_parse h)
  rw [run, runNext, readExpression_ok h, Engine.computeNext, h]
  simp only [bind, Except.bind, Expression.schedule?, Outcome.ofExcept, hu]
  exact ⟨_, rfl⟩

theorem run_next_of_cons {text : String} {n : UInt64} {u : Instant} {us : List Instant}
    (h : Expression.parse text = .ok x) (hx : x.schedule? = some s)
    (hus : e.nextN s t (max n 1) = .ok (u :: us)) : ∃ out, run e (.next text t n) = .ok out := by
  rw [run, runNext, readExpression_ok h]
  simp only [bind, Except.bind, hx, hus]
  exact ⟨_, rfl⟩

theorem failsWith_next_of_nil {text : String} {n : UInt64} (h : Expression.parse text = .ok x)
    (hx : x.schedule? = some s) (hus : e.nextN s t (max n 1) = .ok []) :
    (next text t n).FailsWith e 1 := by
  rw [FailsWith, run, runNext, readExpression_ok h]
  simp only [bind, Except.bind, hx, hus]
  exact ⟨_, rfl, rfl⟩

theorem failsWith_next_of_notOnCalendar {text : String} {n : UInt64}
    (h : Expression.parse text = .ok x) (hx : x.schedule? = some s)
    (hus : e.nextN s t (max n 1) = .error .notOnCalendar) : (next text t n).FailsWith e 1 := by
  rw [FailsWith, run, runNext, readExpression_ok h]
  simp only [bind, Except.bind, hx, hus]
  exact ⟨_, rfl, rfl⟩

theorem run_next_of_schedule {text : String} {n : UInt64} (h : Expression.parse text = .ok x)
    (hx : x.schedule? = some s) (hn : (max n 1).toNat ≤ Engine.maxListed)
    (hr : e.nextN s t (max n 1) ≠ .outOfRange) :
    ((∃ u, e.next s t = .ok u) ∧ ∃ out, run e (.next text t n) = .ok out) ∨
      ((∀ u, e.next s t ≠ .ok u) ∧ (next text t n).FailsWith e 1) := by
  obtain ⟨k, hk⟩ : ∃ k, (max n 1).toNat = k + 1 := Nat.exists_eq_add_one.2 (toNat_max_one_pos n)
  have hlist : e.nextN s t (max n 1) = e.firings s t (k + 1) := by rw [Engine.nextN_of_le hn, hk]
  rw [hlist] at hr
  cases hu : e.next s t with
  | ok u =>
    obtain ⟨us, hus⟩ := Engine.exists_firings_cons hu hr
    exact .inl ⟨⟨u, rfl⟩, run_next_of_cons h hx (hlist.trans hus)⟩
  | error c =>
    refine .inr ⟨nofun, ?_⟩
    rcases Engine.plan_bind_eq_error hu with ⟨-, rfl⟩ | ⟨-, rfl⟩
    · refine failsWith_next_of_notOnCalendar h hx (hlist.trans ?_)
      rw [Engine.firings, hu]
    · exact failsWith_next_of_nil h hx (hlist.trans (Engine.firings_of_exhausted hu _))
  | outOfRange =>
    rw [Engine.firings, hu] at hr
    exact absurd rfl hr

theorem run_next {text : String} {n : UInt64} (hz : e.timezone.zone.InOrder) (ht : t.InWrittenYears)
    (h : Expression.parse text = .ok x) (hr : (next text t n).InRange e x)
    (hn : ¬ (next text t n).AsksTooMany) :
    (¬ (next text t n).Unanswered e x ∧ ∃ out, run e (.next text t n) = .ok out) ∨
      ((next text t n).Unanswered e x ∧ (next text t n).FailsWith e 1) := by
  cases hx : x.schedule? with
  | none =>
    obtain ⟨d, rfl⟩ : ∃ d, x = .duration d := by
      cases x <;> cases hx
      exact ⟨_, rfl⟩
    exact .inl ⟨by simp [Unanswered, hx], run_next_of_duration hz ht h⟩
  | some s =>
    have hle : (max n 1).toNat ≤ Engine.maxListed := Nat.not_lt.1 fun hlt => hn ⟨hlt, x, s, h, hx⟩
    rcases run_next_of_schedule h hx hle (hr s hx hle) with ⟨⟨u, hu⟩, hout⟩ | ⟨hu, hfails⟩
    · refine .inl ⟨?_, hout⟩
      rintro ⟨s', hs', hnone⟩
      cases hx.symm.trans hs'
      exact hnone u hu
    · exact .inr ⟨⟨s, hx, hu⟩, hfails⟩

theorem run_prev {text : String} (h : Expression.parse text = .ok x)
    (hr : (prev text t).InRange e x) :
    (¬ (prev text t).Unanswered e x ∧ ∃ out, run e (.prev text t) = .ok out) ∨
      ((prev text t).Unanswered e x ∧ (prev text t).FailsWith e 1) := by
  cases hx : x.schedule? with
  | none =>
    refine .inr ⟨.inl hx, .noPrevious, ?_, rfl⟩
    rw [run, runPrev, readExpression_ok h]
    simp only [bind, Except.bind, hx]
  | some s =>
    have hrun : run e (.prev text t) = (e.prev s t).result.map stampText := by
      rw [run, runPrev, readExpression_ok h]
      simp only [bind, Except.bind, hx]
      rfl
    cases hu : e.prev s t with
    | ok u =>
      refine .inl ⟨?_, ?_⟩
      · rintro (hnone | ⟨s', hs', hnone⟩)
        · cases hx.symm.trans hnone
        · cases hx.symm.trans hs'
          exact hnone u hu
      · rw [hrun, hu]
        exact ⟨_, rfl⟩
    | error c =>
      refine .inr ⟨.inr ⟨s, hx, by simp [hu]⟩, ?_⟩
      rw [FailsWith, hrun, hu]
      rcases Engine.plan_bind_eq_error hu with ⟨-, rfl⟩ | ⟨-, rfl⟩
      · exact ⟨_, rfl, rfl⟩
      · exact ⟨_, rfl, rfl⟩
    | outOfRange => exact absurd hu (hr s hx)

theorem run_of_parse (hz : e.timezone.zone.InOrder)
    (ht : ∀ t, cmd.instant? = some t → t.InWrittenYears) (h : Expression.parse cmd.source = .ok x)
    (hr : cmd.InRange e x) (hn : ¬ cmd.AsksTooMany) :
    (¬ cmd.Unanswered e x ∧ ∃ out, run e cmd = .ok out) ∨
      (cmd.Unanswered e x ∧ cmd.FailsWith e 1) := by
  cases cmd with
  | parse text json => exact .inl ⟨id, run_parse h⟩
  | isMatch text t => exact .inl ⟨id, run_isMatch hz (ht t rfl) h⟩
  | endOf text t => exact .inl ⟨id, run_endOf hz (ht t rfl) h⟩
  | next text t n => exact run_next hz (ht t rfl) h hr hn
  | prev text t => exact run_prev h hr

theorem AsksTooMany.failsWith (h : cmd.AsksTooMany) :
    cmd.FailsWith e 101 ∧ ∃ x, Expression.parse cmd.source = .ok x := by
  cases cmd with
  | next text t n =>
    obtain ⟨hn, x, s, hx, hs⟩ := h
    refine ⟨⟨.outOfRange, ?_, rfl⟩, x, hx⟩
    have hover : e.nextN s t (max n 1) = .outOfRange := if_neg (Nat.not_le_of_gt hn)
    rw [run, runNext, readExpression_ok hx]
    simp only [bind, Except.bind, hs, hover]
    rfl
  | _ => exact h.elim

/-- The code of a failure tells a malformed expression from one that asks for a time that there is
not. What the engine keeps of an expression that was read is read again without an error. -/
structure TellsFailures (e : Engine) (cmd : Command) : Prop where
  malformed : cmd.FailsWith e 2 ↔ ∃ c, Expression.parse cmd.source = .error c
  unanswered : ∀ x, Expression.parse cmd.source = .ok x →
    ((∃ f, run e cmd = .error f) ↔ cmd.Unanswered e x)
  code : ∀ x, Expression.parse cmd.source = .ok x → ∀ f, run e cmd = .error f → f.exitCode = 1
  compile : ∀ x s, Expression.parse cmd.source = .ok x → x.schedule? = some s →
    e.compile s.members = e.plan s

theorem tellsFailures_of_not_asksTooMany (hz : e.timezone.zone.InOrder)
    (ht : ∀ t, cmd.instant? = some t → t.InWrittenYears)
    (hr : ∀ x, Expression.parse cmd.source = .ok x → cmd.InRange e x) (hn : ¬ cmd.AsksTooMany) :
    cmd.TellsFailures e := by
  have hcode : ∀ x, Expression.parse cmd.source = .ok x → ∀ f, run e cmd = .error f →
      f.exitCode = 1 := by
    intro x hx f hf
    rcases run_of_parse hz ht hx (hr x hx) hn with ⟨-, out, hout⟩ | ⟨-, f', hf', hcode⟩
    · cases hout.symm.trans hf
    · cases hf'.symm.trans hf
      exact hcode
  refine ⟨⟨?_, fun ⟨c, hc⟩ => failsWith_of_malformed hc⟩, ?_, hcode, ?_⟩
  · rintro ⟨f, hf, htwo⟩
    cases hx : Expression.parse cmd.source with
    | error c => exact ⟨c, rfl⟩
    | ok x =>
      have hone := hcode x hx f hf
      omega
  · intro x hx
    rcases run_of_parse hz ht hx (hr x hx) hn with ⟨hanswered, out, hout⟩ | ⟨hunanswered, f, hf, -⟩
    · refine iff_of_false ?_ hanswered
      rintro ⟨f, hf⟩
      cases hout.symm.trans hf
    · exact iff_of_true ⟨f, hf⟩ hunanswered
  · intro x s hx hs
    exact Engine.compile_members (Schedule.Obtainable.expression hx hs).timezoneKnown

theorem tellsFailures_iff_not_asksTooMany (hz : e.timezone.zone.InOrder)
    (ht : ∀ t, cmd.instant? = some t → ∃ cs, Instant.ofText cs = .ok t)
    (hr : ∀ x, Expression.parse cmd.source = .ok x → cmd.InRange e x) :
    cmd.TellsFailures e ↔ ¬ cmd.AsksTooMany := by
  constructor
  · intro h hn
    obtain ⟨⟨f, hf, hcode⟩, x, hx⟩ := hn.failsWith (e := e)
    have hone := h.code x hx f hf
    omega
  · refine tellsFailures_of_not_asksTooMany hz (fun t hcmd => ?_) hr
    obtain ⟨cs, hcs⟩ := ht t hcmd
    exact Instant.inWrittenYears_of_ofText hcs

end

def yearAhead : Engine := .ofHorizon 1 .utc

def thirtiethOfFebruary : Command :=
  .next "0 9 30 feb ? TZ:US/Eastern EOD:E8H" (.ofSecond 1705315000) 3

theorem tellsFailures_thirtiethOfFebruary : yearAhead.timezone.zone.InOrder ∧
    (∀ t, thirtiethOfFebruary.instant? = some t → ∃ cs, Instant.ofText cs = .ok t) ∧
    (∀ x, Expression.parse thirtiethOfFebruary.source = .ok x →
      thirtiethOfFebruary.InRange yearAhead x) ∧
    thirtiethOfFebruary.FailsWith yearAhead 1 ∧ thirtiethOfFebruary.TellsFailures yearAhead := by
  have hz : yearAhead.timezone.zone.InOrder := by decide
  have ht : ∀ t, thirtiethOfFebruary.instant? = some t → ∃ cs, Instant.ofText cs = .ok t := by
    intro t h
    cases h
    exact ⟨"2024-01-15T10:36:40Z".toList, by decide +kernel⟩
  have hnone : ((Expression.parse thirtiethOfFebruary.source).toOption.bind Expression.schedule?).map
      (yearAhead.nextN · (.ofSecond 1705315000) 3) = some (.ok []) := by decide +kernel
  have hrange : ∀ x, Expression.parse thirtiethOfFebruary.source = .ok x →
      thirtiethOfFebruary.InRange yearAhead x := by
    intro x hx s hs _ hout
    simp only [hx, Except.toOption, Option.bind_some, hs, Option.map_some] at hnone
    cases (Option.some.inj hnone).symm.trans hout
  have hfew : ¬ thirtiethOfFebruary.AsksTooMany := fun h => absurd h.1 (by decide)
  have htells := (tellsFailures_iff_not_asksTooMany hz ht hrange).2 hfew
  have hread : (Expression.parse thirtiethOfFebruary.source).isOk = true := by decide +kernel
  obtain ⟨x, hx⟩ := isOk_iff_exists.1 hread
  have hfails : (run yearAhead thirtiethOfFebruary).isOk = false := by decide +kernel
  obtain ⟨f, hf⟩ : ∃ f, run yearAhead thirtiethOfFebruary = .error f := by
    cases hr : run yearAhead thirtiethOfFebruary with
    | error f => exact ⟨f, rfl⟩
    | ok out =>
      rw [hr] at hfails
      cases hfails
  exact ⟨hz, ht, hrange, ⟨f, hf, htells.code x hx f hf⟩, htells⟩

def newYear2025 : Command := .next "0 0 9 1 1 * 2025" (.ofSecond 1717200000) 768614336404564651

theorem not_tellsFailures_newYear2025 :
    (∃ cs, newYear2025.instant? = (Instant.ofText cs).toOption) ∧
    (∃ x s, Expression.parse newYear2025.source = .ok x ∧ x.schedule? = some s ∧
      Engine.default.next s (.ofSecond 1717200000) = .ok (.ofSecond 1735722000) ∧
      Engine.default.firings s (.ofSecond 1717200000) 768614336404564651 =
        .ok [.ofSecond 1735722000]) ∧
    newYear2025.FailsWith .default 101 ∧ ¬ newYear2025.TellsFailures .default := by
  obtain ⟨x, hx⟩ := isOk_iff_exists.1
    (show (Expression.parse newYear2025.source).isOk = true by decide +kernel)
  have hnext : ((Expression.parse newYear2025.source).toOption.bind Expression.schedule?).map
      (fun s => (Engine.default.next s (.ofSecond 1717200000),
        Engine.default.next s (.ofSecond 1735722000))) =
      some (.ok (.ofSecond 1735722000), .error (.exhausted 10)) := by decide +kernel
  rw [hx, Except.toOption, Option.bind_some] at hnext
  obtain ⟨s, hs, hnext⟩ := Option.map_eq_some_iff.1 hnext
  obtain ⟨hfirst, hlast⟩ := Prod.mk.inj hnext
  have hone : Engine.default.firings s (.ofSecond 1717200000) (768614336404564650 + 1) =
      .ok [.ofSecond 1735722000] := by
    rw [Engine.firings_of_ok hfirst, Engine.firings_of_exhausted hlast]
    rfl
  have hmany : newYear2025.AsksTooMany := ⟨by decide, x, s, hx, hs⟩
  have hfails := (hmany.failsWith (e := .default)).1
  refine ⟨⟨"2024-06-01T00:00:00Z".toList, by decide +kernel⟩, ⟨x, s, hx, hs, hfirst, hone⟩, hfails, ?_⟩
  intro h
  obtain ⟨f, hf, hcode⟩ := hfails
  have := h.code x hx f hf
  omega

end Command

end Timetable
