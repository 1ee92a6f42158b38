import Timetable.Proofs.Schedule.Sound
import Timetable.Schedule.Json

/-! What the readers and constructors of schedules give, changed by any number of setters. -/

namespace Timetable

namespace Schedule

section
variable [TimezoneDatabase]

inductive Obtainable : Schedule → Prop where
  | default : Obtainable {}
  | reboot : Obtainable reboot
  | ofFields {s : Schedule} {second minute hour dayOfMonth month dayOfWeek : String} :
      ofFields second minute hour dayOfMonth month dayOfWeek = .ok s → Obtainable s
  | cron {s : Schedule} {text : String} : parseCron text = .ok s → Obtainable s
  | extended {s : Schedule} {text : String} : parseExtended text = .ok s → Obtainable s
  | hybrid {s : Schedule} {text : String} : parseHybrid text = .ok s → Obtainable s
  | expression {s : Schedule} {text : String} {x : Expression} :
      Expression.parse text = .ok x → x.schedule? = some s → Obtainable s
  | ofMembers {s : Schedule} {m : Members} : m.schedule = .ok s → Obtainable s
  | withWeekOfYear {s s' : Schedule} {text : String} :
      Obtainable s → s.withWeekOfYear text = .ok s' → Obtainable s'
  | withYear {s s' : Schedule} {text : String} :
      Obtainable s → s.withYear text = .ok s' → Obtainable s'
  | withTimezone {s s' : Schedule} {name : String} :
      Obtainable s → s.withTimezone name = .ok s' → Obtainable s'
  | withEndOfDuration {s : Schedule} (d : Duration) :
      Obtainable s → Obtainable (s.withEndOfDuration d)

variable {s : Schedule}

theorem timezoneKnown_of_schedule {m : Members} (h : m.schedule = .ok s) : s.TimezoneKnown := by
  simp only [Members.schedule, bind_eq_ok_iff] at h
  obtain ⟨zone, hz, _, -, _, -, _, -, _, -, _, -, _, -, _, -, _, -, h⟩ := h
  cases h
  intro z hs
  cases hs
  cases hm : m.timezone with
  | none =>
    rw [hm] at hz
    cases hz
  | some name =>
    rw [hm] at hz
    obtain ⟨y, hy, he⟩ := bind_eq_ok_iff.1 hz
    cases he
    exact TimezoneDatabase.find?_name (find?_of_readTimezone hy)

theorem Obtainable.timezoneKnown (h : Obtainable s) : s.TimezoneKnown := by
  induction h with
  | default => simp [TimezoneKnown]
  | reboot => exact sound_reboot.timezone
  | ofFields h => exact (sound_of_ofFields h).timezone
  | cron h => exact (sound_of_parseCron h).timezone
  | extended h => exact (sound_of_parseExtended h).timezone
  | hybrid h => exact (sound_of_parseHybrid h).timezone
  | expression h hx => exact (Expression.sound_of_parse h hx).timezone
  | ofMembers h => exact timezoneKnown_of_schedule h
  | withWeekOfYear _ h ih =>
    obtain ⟨f, -, rfl⟩ := map_eq_ok_iff.1 h
    exact ih
  | withYear _ h ih =>
    obtain ⟨f, -, rfl⟩ := map_eq_ok_iff.1 h
    exact ih
  | withTimezone _ h _ =>
    obtain ⟨z, hz, rfl⟩ := map_eq_ok_iff.1 h
    intro y hy
    cases hy
    exact TimezoneDatabase.find?_name (find?_of_readTimezone hz)
  | withEndOfDuration _ _ ih => exact ih

theorem readTimezone_name {z : Timezone} (h : TimezoneDatabase.find? z.name = some z) :
    readTimezone z.name = .ok z := by
  rw [readTimezone, h]
  rfl

end

def members (s : Schedule) : Members where
  second := s.second.map Field.text
  minute := s.minute.map Field.text
  hour := s.hour.map Field.text
  dayOfMonth := s.dayOfMonth.map Field.text
  month := s.month.map Field.text
  dayOfWeek := s.dayOfWeek.map Field.text
  year := s.year.map Field.text
  weekOfYear := s.weekOfYear.map Field.text
  timezone := s.timezone.map Timezone.name
  endOfDuration := s.endOfDuration
  special := s.special

theorem mapM_readField_text {k : FieldKind} (f : Option (Field k)) :
    (f.map Field.text).mapM (readField k) = .ok f := by
  cases f with
  | none => rfl
  | some f =>
    rw [Option.map_some, Option.mapM_some, f.readField_text]
    rfl

end Schedule

end Timetable
