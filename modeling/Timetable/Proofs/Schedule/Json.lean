import Timetable.Proofs.Json.Members
import Timetable.Proofs.Schedule.Obtainable
import Timetable.Zone.Known

namespace Timetable

open Json

theorem Special.reads_toJson : Reads Special.toJson Special.ofJson where
  read_eq {a _} h := by
    cases a
    cases h
    rfl
  ne_null a := by
    cases a
    nofun

theorem Reference.reads_choiceName : Reads (fun r => .string (choiceName r)) Reference.ofJson where
  read_eq h := by
    cases h
    exact Reference.ofJson_choiceName _
  ne_null _ := nofun

theorem Duration.reads_toJson : Reads Duration.toJson Duration.ofJson where
  read_eq {d _} h := by
    obtain ⟨ms, rfl, hm⟩ := h.exists_members
    have hword (name : String) (n : UInt32) :=
      @Reads.member? ms _ _ _ _ name (some n) reads_word hm (by simp)
    have hevent : optionalMember ms "event" asString = .ok d.event :=
      reads_string.optionalMember hm (by simp) (by simp)
    have hfromStart : member? ms "is_sod" asBool = .ok (some d.fromStart) :=
      reads_bool.member? hm (by simp) (by simp)
    have hreference : member? ms "reference_point" Reference.ofJson = .ok (some d.reference) :=
      Reference.reads_choiceName.member? hm (by simp) (by simp)
    change Duration.ofMembers ms = .ok d
    rw [Duration.ofMembers, hword "days" d.days (by simp), hevent, hword "hours" d.hours (by simp),
      hfromStart, hword "minutes" d.minutes (by simp), hword "months" d.months (by simp), hreference,
      hword "seconds" d.seconds (by simp), hword "weeks" d.weeks (by simp),
      hword "years" d.years (by simp)]
    rfl
  ne_null _ := nofun

namespace Schedule

variable {s : Schedule} {j : Json}

theorem members_schedule [TimezoneDatabase] (h : s.TimezoneKnown) : s.members.schedule = .ok s := by
  have hzone : s.members.timezone.mapM readTimezone = .ok s.timezone := by
    cases hs : s.timezone with
    | none =>
      rw [members, hs]
      rfl
    | some z =>
      rw [members, hs, Option.map_some, Option.mapM_some, readTimezone_name (h z hs)]
      rfl
  simp only [Members.schedule, hzone, bind, Except.bind]
  simp only [members, mapM_readField_text]
  rfl

theorem Members.ofJson_of_rearranged (h : s.toJson.Rearranged j) : Members.ofJson j = .ok s.members := by
  obtain ⟨ms, rfl, hm⟩ := h.exists_members
  have htext (name : String) (value : Option String) :=
    @Reads.optionalMember ms _ _ _ _ name value reads_string hm (by simp)
  have hbound : optionalMember ms "endOfDuration" Duration.ofJson = .ok s.endOfDuration :=
    Duration.reads_toJson.optionalMember hm (by simp) (by simp)
  have hspecial : optionalMember ms "special" Special.ofJson = .ok s.special :=
    Special.reads_toJson.optionalMember hm (by simp) (by simp)
  change Members.ofMembers ms = .ok s.members
  rw [Members.ofMembers, htext "dayOfMonth" s.members.dayOfMonth (by simp [members, Function.comp_def]),
    htext "dayOfWeek" s.members.dayOfWeek (by simp [members, Function.comp_def]), hbound,
    htext "hour" s.members.hour (by simp [members, Function.comp_def]),
    htext "minute" s.members.minute (by simp [members, Function.comp_def]),
    htext "month" s.members.month (by simp [members, Function.comp_def]),
    htext "second" s.members.second (by simp [members, Function.comp_def]), hspecial,
    htext "timezone" s.members.timezone (by simp [members, Function.comp_def]),
    htext "weekOfYear" s.members.weekOfYear (by simp [members, Function.comp_def]),
    htext "year" s.members.year (by simp [members, Function.comp_def])]
  rfl

theorem ofJson_toJson [TimezoneDatabase] (h : s.Obtainable) :
    ofJson s.toJson = .ok s ∧ ∀ j, s.toJson.Rearranged j → ofJson j = .ok s := by
  have hread : ∀ j, s.toJson.Rearranged j → ofJson j = .ok s := by
    intro j hj
    rw [ofJson, Members.ofJson_of_rearranged hj]
    change s.members.schedule.mapError _ = _
    rw [members_schedule h.timezoneKnown]
    rfl
  exact ⟨hread _ (.same _), hread⟩

def mornings : Except Error Schedule := do
  let s ← Schedule.parseCron "0 9 ? JAN-Mar mon-FRI"
  let s ← s.withTimezone "US/Eastern"
  return s.withEndOfDuration { weeks := 1, days := 2, reference := .week, event := some "closed" }

def morningsMembers : List (String × Json) :=
  [("dayOfMonth", .string "?"), ("dayOfWeek", .string "1-5"),
    ("endOfDuration", .object [("days", .integer 2), ("event", .string "closed"),
      ("hours", .integer 0), ("is_sod", .bool false), ("minutes", .integer 0),
      ("months", .integer 0), ("reference_point", .string "week"), ("seconds", .integer 0),
      ("weeks", .integer 1), ("years", .integer 0)]),
    ("hour", .string "9"), ("minute", .string "0"), ("month", .string "1-3"),
    ("second", .string "0"), ("timezone", .string "US/Eastern")]

theorem ofJson_mornings : ∃ s, mornings = .ok s ∧ s.Obtainable ∧
    s.toJson = .object morningsMembers ∧ ofJson (.object morningsMembers) = .ok s ∧
    ofJson (.object morningsMembers.reverse) = .ok s := by
  have hread : mornings.map Schedule.toJson = .ok (.object morningsMembers) := by rfl
  obtain ⟨s, hs, hj⟩ := map_eq_ok_iff.1 hread
  have hobtained : s.Obtainable := by
    obtain ⟨s₁, h₁, h⟩ := bind_eq_ok_iff.1 hs
    obtain ⟨s₂, h₂, h⟩ := bind_eq_ok_iff.1 h
    cases h
    exact .withEndOfDuration _ (.withTimezone (.cron h₁) h₂)
  have hreads := ofJson_toJson hobtained
  rw [hj] at hreads
  have hreverse := Rearranged.of_perm (by decide) morningsMembers.reverse_perm.symm
  exact ⟨s, hs, hobtained, hj, hreads.1, hreads.2 _ hreverse⟩

end Schedule

end Timetable
