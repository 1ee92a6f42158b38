import Timetable.Engine
import Timetable.Proofs.Schedule.Obtainable
import Timetable.Zone.Known

/-! The engine keeps texts and reads them again for every question; for an obtainable schedule this never
fails. -/

namespace Timetable

open Calendar

namespace Engine

variable {e : Engine} {s : Schedule} {t : Instant}

section
variable [TimezoneDatabase]

def readZone (e : Engine) : Option String → Except Error Zone
  | none => .ok e.timezone.zone
  | some name => (readTimezone name).map Timezone.zone

/-- The plan of a schedule that is kept as text: all fields are read again, a missing one as `*` unless
it is one of years or weeks, and then the name of the zone. -/
def compile (e : Engine) (m : Schedule.Members) : Outcome Plan :=
  match m.special with
  | some .reboot => .error .notOnCalendar
  | none => .ofExcept do
    return {
      second := ← readField .second (m.second.getD "*")
      minute := ← readField .minute (m.minute.getD "*")
      hour := ← readField .hour (m.hour.getD "*")
      dayOfMonth := ← readField .dayOfMonth (m.dayOfMonth.getD "*")
      month := ← readField .month (m.month.getD "*")
      dayOfWeek := ← readField .dayOfWeek (m.dayOfWeek.getD "*")
      year := ← m.year.mapM (readField .year)
      weekOfYear := ← m.weekOfYear.mapM (readField .weekOfYear)
      zone := ← e.readZone m.timezone }

end

theorem readField_getD {k : FieldKind} (f : Option (Field k)) :
    readField k ((f.map Field.text).getD "*") = .ok (f.getD (.any k)) := by
  cases f with
  | none => exact (Field.any k).readField_text
  | some f => exact f.readField_text

theorem readZone_name [TimezoneDatabase] (h : s.TimezoneKnown) :
    e.readZone (s.timezone.map Timezone.name) =
      .ok ((s.timezone.map Timezone.zone).getD e.timezone.zone) := by
  cases hz : s.timezone with
  | none => rfl
  | some z =>
    rw [Option.map_some, readZone, Schedule.readTimezone_name (h z hz)]
    rfl

theorem compile_members [TimezoneDatabase] (h : s.TimezoneKnown) : e.compile s.members = e.plan s := by
  rw [compile, plan]
  cases hs : s.special with
  | some _ => simp [Schedule.members, hs]
  | none =>
    simp only [Schedule.members, hs, readField_getD, Schedule.mapM_readField_text, readZone_name h]
    rfl

theorem special_of_ne_none (h : s.special ≠ none) : s.special = some .reboot := by
  cases hs : s.special with
  | none => exact absurd hs h
  | some x => cases x; rfl

theorem eq_exhausted_of_ofFound {r : Found Instant} {c : Error} (h : e.ofFound r = .error c) :
    c = .exhausted e.horizon := by
  cases r <;> cases h
  rfl

theorem plan_bind_eq_error {search : Plan → Found Instant} {c : Error}
    (h : (e.plan s >>= fun p => e.ofFound (search p)) = .error c) :
    (s.special = some .reboot ∧ c = .notOnCalendar) ∨
      (s.special = none ∧ c = .exhausted e.horizon) := by
  by_cases hs : s.special = none
  · rw [plan, hs] at h
    exact .inr ⟨hs, eq_exhausted_of_ofFound h⟩
  · have hr := special_of_ne_none hs
    rw [plan, hr] at h
    cases h
    exact .inl ⟨hr, rfl⟩

theorem plan_bind_eq_notOnCalendar_iff {search : Plan → Found Instant} :
    (e.plan s >>= fun p => e.ofFound (search p)) = .error .notOnCalendar ↔
      s.special = some .reboot := by
  constructor
  · intro h
    rcases plan_bind_eq_error h with ⟨hs, -⟩ | ⟨-, hc⟩
    · exact hs
    · cases hc
  · intro hs
    rw [plan, hs]
    rfl

theorem firings_eq_error {n : Nat} {c : Error} (h : e.firings s t n = .error c) :
    s.special = some .reboot ∧ c = .notOnCalendar := by
  induction n generalizing t with
  | zero => cases h
  | succ n ih =>
    rw [firings] at h
    split at h
    · next u _ =>
      cases hu : e.firings s u n with
      | ok us => rw [hu] at h; cases h
      | error d =>
        rw [hu] at h
        cases h
        exact ih hu
      | outOfRange => rw [hu] at h; cases h
    · cases h
    · next d hx hd =>
      cases h
      rcases plan_bind_eq_error hd with hr | ⟨-, rfl⟩
      · exact hr
      · exact (hx _ rfl).elim
    · cases h

theorem nextN_eq_error {n : UInt64} {c : Error} (h : e.nextN s t n = .error c) :
    s.special = some .reboot ∧ c = .notOnCalendar := by
  rw [nextN] at h
  split at h
  · exact firings_eq_error h
  · cases h

/-- Everything that is kept of a schedule reads back as it is, so that no question about the calendar
meets a malformed field or zone. -/
structure Compiles [TimezoneDatabase] (s : Schedule) : Prop where
  field : ∀ k f, s.field? k = some f → Field.parse k f.text = .ok f
  timezone : ∀ z, s.timezone = some z → TimezoneDatabase.find? z.name = some z
  compile : ∀ e : Engine, e.compile s.members = e.plan s
  next : ∀ (e : Engine) t c, e.next s t = .error c → c = .notOnCalendar ∨ c = .exhausted e.horizon
  prev : ∀ (e : Engine) t c, e.prev s t = .error c → c = .notOnCalendar ∨ c = .exhausted e.horizon
  nextN : ∀ (e : Engine) t n c, e.nextN s t n = .error c → c = .notOnCalendar
  reboot : ∀ (e : Engine) t, (e.next s t = .error .notOnCalendar ↔ s.special = some .reboot) ∧
    (e.prev s t = .error .notOnCalendar ↔ s.special = some .reboot)

theorem compiles_of_obtainable [TimezoneDatabase] (h : s.Obtainable) : Compiles s := by
  have hz := h.timezoneKnown
  constructor
  · intro k f _
    exact mapError_eq_ok_iff.1 f.readField_text
  · exact hz
  · intro e
    exact compile_members hz
  · intro e t c hc
    exact (plan_bind_eq_error hc).imp And.right And.right
  · intro e t c hc
    exact (plan_bind_eq_error hc).imp And.right And.right
  · intro e t n c hc
    exact (nextN_eq_error hc).2
  · intro e t
    exact ⟨plan_bind_eq_notOnCalendar_iff, plan_bind_eq_notOnCalendar_iff⟩

def openings : Except Error Schedule := do
  let s ← Schedule.parseCron "30 9 ? JAN-Mar mon-FRI"
  let s ← s.withYear " +2030-9999/1 "
  s.withTimezone "US/Eastern"

theorem compiles_openings : ∃ s, openings = .ok s ∧ s.Obtainable ∧
    s.month.map Field.text = some "1-3" ∧ s.dayOfWeek.map Field.text = some "1-5" ∧
    s.year.map Field.text = some "+2030-9999/1" ∧ Compiles s := by
  have hread : openings.map (fun s => (s.month.map Field.text, s.dayOfWeek.map Field.text,
      s.year.map Field.text)) = .ok (some "1-3", some "1-5", some "+2030-9999/1") := by rfl
  obtain ⟨s, hs, he⟩ := map_eq_ok_iff.1 hread
  simp only [Prod.mk.injEq] at he
  have hobtained : s.Obtainable := by
    obtain ⟨s₁, h₁, h⟩ := bind_eq_ok_iff.1 hs
    obtain ⟨s₂, h₂, h⟩ := bind_eq_ok_iff.1 h
    exact .withTimezone (.withYear (.cron h₁) h₂) h
  exact ⟨s, hs, hobtained, he.1, he.2.1, he.2.2, compiles_of_obtainable hobtained⟩

end Engine

end Timetable
