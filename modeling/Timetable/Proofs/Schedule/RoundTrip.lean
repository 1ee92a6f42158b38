import Timetable.Proofs.Duration.RoundTrip
import Timetable.Proofs.Schedule.Clauses
import Timetable.Zone.Known

namespace Timetable

open Text

namespace Schedule

variable {s : Schedule}

def filled (s : Schedule) : Schedule where
  second := some (s.second.getD (.any _))
  minute := some (s.minute.getD (.any _))
  hour := some (s.hour.getD (.any _))
  dayOfMonth := some (s.dayOfMonth.getD (.any _))
  month := some (s.month.getD (.any _))
  dayOfWeek := some (s.dayOfWeek.getD (.any _))

theorem readField_fieldText {k : FieldKind} (f : Option (Field k)) :
    readField k (String.ofList (fieldText f)) = .ok (f.getD (.any k)) := by
  cases f with
  | none => exact (Field.any k).readField_text
  | some f => rw [fieldText, String.ofList_toList, f.readField_text, Option.getD_some]

theorem ofFields_fieldText (s : Schedule) :
    ofFields (String.ofList (fieldText s.second)) (String.ofList (fieldText s.minute))
      (String.ofList (fieldText s.hour)) (String.ofList (fieldText s.dayOfMonth))
      (String.ofList (fieldText s.month)) (String.ofList (fieldText s.dayOfWeek)) =
        .ok s.filled := by
  simp only [ofFields, readField_fieldText, bind, Except.bind]
  rfl

theorem withTrailing_year {f : Field .year} (h : looksLikeYears f.text.toList = true) :
    s.withTrailing f.text = .ok { s with year := some f } := by
  have hne : ¬(f.text = "*" ∨ f.text = "?") := by
    rintro (he | he) <;> rw [he] at h <;> exact absurd h (by decide)
  rw [withTrailing, if_neg hne, if_pos h, withYear, f.readField_text]
  rfl

theorem ofWords_baseWords_of_year {f : Field .year} (hy : s.year = some f) :
    ofWords (s.baseWords.map String.ofList) = s.filled.withTrailing f.text := by
  have hwords : s.baseWords = [fieldText s.second, fieldText s.minute, fieldText s.hour,
      fieldText s.dayOfMonth, fieldText s.month, fieldText s.dayOfWeek, f.text.toList] := by
    rw [baseWords, hy]
    rfl
  rw [hwords, ← String.ofList_toList (s := f.text), String.toList_ofList]
  exact congrArg (· >>= fun t => t.withTrailing (String.ofList f.text.toList)) (ofFields_fieldText s)

theorem ofWords_baseWords (h : ∀ f, s.year = some f → looksLikeYears f.text.toList = true) :
    ofWords (s.baseWords.map String.ofList) = .ok { s.filled with year := s.year } := by
  cases hy : s.year with
  | none =>
    have hwords : s.baseWords = [fieldText s.second, fieldText s.minute, fieldText s.hour,
        fieldText s.dayOfMonth, fieldText s.month, fieldText s.dayOfWeek] := by
      rw [baseWords, hy]
      rfl
    rw [hwords]
    exact ofFields_fieldText s
  | some f => rw [ofWords_baseWords_of_year hy, withTrailing_year (h f hy)]

structure BaseReadAs (s r : Schedule) : Prop where
  words : ofWords (s.baseWords.map String.ofList) = .ok r
  weekOfYear : s.weekOfYear = none ∨ r.weekOfYear = none
  timezone : r.timezone = none
  endOfDuration : r.endOfDuration = none

def withClausesOf (r s : Schedule) : Schedule :=
  { r with
    weekOfYear := s.weekOfYear.or r.weekOfYear
    timezone := s.timezone
    endOfDuration := s.endOfDuration }

theorem withClausesOf_filled [TimezoneDatabase] (h : s.Sound) (hs : s.special = none) :
    { s.filled with year := s.year }.withClausesOf s = s := by
  have hset {k : FieldKind} {f : Option (Field k)} (hf : f.isSome = true) :
      some (f.getD (.any k)) = f := by
    obtain ⟨g, rfl⟩ := Option.isSome_iff_exists.1 hf
    rfl
  obtain ⟨h₁, h₂, h₃, h₄, h₅, h₆⟩ := h.fields hs
  rw [withClausesOf, filled, hset h₁, hset h₂, hset h₃, hset h₄, hset h₅, hset h₆]
  simp [← hs]

theorem BaseReadAs.withClausesOf_eq {r : Schedule} (hr : s.BaseReadAs r) (hw : s.weekOfYear = none)
    (hz : s.timezone = none) : r.withClausesOf s = { r with endOfDuration := s.endOfDuration } := by
  rw [withClausesOf, hw, hz, ← hr.timezone]
  rfl

variable {t : Schedule}

theorem addWeeks_text {weeks : Option (Field .weekOfYear)} (h : weeks = none ∨ t.weekOfYear = none) :
    t.addWeeks (weeks.map Field.text) = .ok { t with weekOfYear := weeks.or t.weekOfYear } := by
  cases weeks with
  | none => rfl
  | some f =>
    have ht := h.resolve_left (by simp)
    rw [Option.map_some, addWeeks, ht]
    simp [withWeekOfYear, f.readField_text, Except.map]

theorem addTimezone_name [TimezoneDatabase] (ht : t.timezone = none) {zone : Option Timezone}
    (h : ∀ z, zone = some z → TimezoneDatabase.find? z.name = some z) :
    t.addTimezone (zone.map Timezone.name) = .ok { t with timezone := zone } := by
  cases zone with
  | none =>
    change Except.ok t = _
    rw [← ht]
  | some z =>
    rw [Option.map_some, addTimezone, withTimezone, readTimezone, h z rfl]
    rfl

theorem addEndOfDuration_canonical (ht : t.endOfDuration = none) {bound : Option Duration}
    (h : ∀ d, bound = some d → Duration.parse d.canonical = .ok d) :
    t.addEndOfDuration (bound.map Duration.canonical) = .ok { t with endOfDuration := bound } := by
  cases bound with
  | none =>
    change Except.ok t = _
    rw [← ht]
  | some d =>
    rw [Option.map_some, addEndOfDuration, h d rfl]
    rfl

variable {r : Schedule}

theorem ofParts_parts [TimezoneDatabase] (h : s.ClausesReread) (hr : s.BaseReadAs r) :
    ofParts s.parts = .ok (r.withClausesOf s) := by
  refine bind_eq_ok_iff.2 ⟨r, hr.words, bind_eq_ok_iff.2 ⟨_, addWeeks_text hr.weekOfYear, ?_⟩⟩
  have hzone : { r with weekOfYear := s.weekOfYear.or r.weekOfYear }.timezone = none := hr.timezone
  refine bind_eq_ok_iff.2 ⟨_, addTimezone_name hzone h.timezone, ?_⟩
  have hbound : { r with weekOfYear := s.weekOfYear.or r.weekOfYear,
                         timezone := s.timezone }.endOfDuration = none := hr.endOfDuration
  exact addEndOfDuration_canonical hbound h.endOfDuration

theorem parseExtended_canonical [TimezoneDatabase] (h : s.ClausesReread) (hr : s.BaseReadAs r) (hs : s.special = none) :
    parseExtended s.canonical = .ok (r.withClausesOf s) := by
  rw [parseExtended, split_canonical h hs]
  exact ofParts_parts h hr

theorem baseWords_ne_nil (s : Schedule) : s.baseWords ≠ [] := by simp [baseWords]

theorem not_mem_baseText {c : Char} (hc : isFieldChar c = false) (hb : c ≠ ' ') :
    c ∉ [' '].intercalate s.baseWords := by
  intro h
  rcases mem_intercalate h with h | ⟨w, hw, h⟩
  · exact hb h
  · rw [isFieldChar_of_mem_baseWords hw c h] at hc
    cases hc

theorem allWords_of_not_extended (hw : s.weekOfYear = none) (hz : s.timezone = none) :
    s.allWords = s.baseWords ++ s.boundWords := by
  rw [allWords, weeksWords, hw, timezoneWords, hz]
  rfl

theorem parseCron_canonical [TimezoneDatabase] (h : s.ClausesReread) (hr : s.BaseReadAs r) (hs : s.special = none)
    (hw : s.weekOfYear = none) (hz : s.timezone = none) (hd : s.endOfDuration = none) :
    parseCron s.canonical = .ok (r.withClausesOf s) := by
  have hwords : words s.canonical.toList = s.baseWords := by
    rw [words_canonical h hs, allWords_of_not_extended hw hz, boundWords, hd, List.append_nil]
  rw [parseCron, hwords, hr.words, hr.withClausesOf_eq hw hz, hd, ← hr.endOfDuration]

theorem canonicalText_of_bound {d : Duration} (hs : s.special = none) (hw : s.weekOfYear = none)
    (hz : s.timezone = none) (hd : s.endOfDuration = some d) :
    s.canonicalText =
      ([' '].intercalate s.baseWords ++ [' ']) ++ 'E' :: ['O', 'D', ':'] ++ d.canonicalText := by
  have hwords : s.canonicalWords = s.baseWords ++ [['E', 'O', 'D', ':'] ++ d.canonicalText] := by
    rw [canonicalWords, hw, hz, hd]
    simp [baseWords]
  rw [canonicalText, hs, hwords]
  simp only
  rw [intercalate_append_singleton s.baseWords_ne_nil]
  simp

theorem cutAt_canonical {d : Duration} (hs : s.special = none) (hw : s.weekOfYear = none)
    (hz : s.timezone = none) (hd : s.endOfDuration = some d) :
    cutAt "EOD:".toList s.canonical.toList =
      some ([' '].intercalate s.baseWords ++ [' '], d.canonicalText) := by
  rw [toList_canonical, canonicalText_of_bound hs hw hz hd]
  -- the fields have no `E`, so the first clause is the one of the bound and not one in the event's name
  apply cutAt_append
  intro hm
  rcases List.mem_append.1 hm with hm | hm
  · exact not_mem_baseText (by decide) (by decide) hm
  · exact absurd hm (by decide)

theorem parseHybrid_canonical [TimezoneDatabase] (h : s.ClausesReread) (hr : s.BaseReadAs r) (hs : s.special = none)
    (hw : s.weekOfYear = none) (hz : s.timezone = none) {d : Duration}
    (hd : s.endOfDuration = some d) : parseHybrid s.canonical = .ok (r.withClausesOf s) := by
  have hcron : parseCron (String.ofList ([' '].intercalate s.baseWords ++ [' '])) = .ok r := by
    rw [parseCron, String.toList_ofList, words_append_blank (by decide), words_nil, List.append_nil,
      words_intercalate fun w hw => isWord_of_mem_baseWords hw, hr.words]
  have hbound := addEndOfDuration_canonical hr.endOfDuration h.endOfDuration
  rw [hd, Option.map_some, Duration.canonical] at hbound
  rw [parseHybrid, cutAt_canonical hs hw hz hd, hr.withClausesOf_eq hw hz, hd]
  exact bind_eq_ok_iff.2 ⟨r, hcron, hbound⟩

end Schedule

namespace Expression

variable {s : Schedule}

theorem isOtherClause_append {keyword value : List Char} (hne : keyword ≠ [])
    (hall : keyword.all Char.isAlpha = true) :
    isOtherClause (keyword ++ ':' :: value) = (String.ofList (keyword.map Char.toUpper) != "EOD") := by
  rw [isOtherClause, clause?_append hne hall]

theorem isOtherClause_of_mem_boundWords {w : List Char} (h : w ∈ s.boundWords) :
    isOtherClause w = false := by
  rw [Schedule.boundWords] at h
  split at h
  · simp at h
  · rcases List.mem_cons.1 h with rfl | h
    · rw [isOtherClause_append (by simp) (by decide)]
      decide
    · rw [isOtherClause, clause?_of_isTrailer (Duration.isTrailer_of_mem_clauseWords h)]

theorem any_isOtherClause_of_extended (h : s.weekOfYear.isSome = true ∨ s.timezone.isSome = true) :
    s.allWords.any isOtherClause = true := by
  rw [List.any_eq_true]
  rcases h with h | h
  · obtain ⟨f, hf⟩ := Option.isSome_iff_exists.1 h
    refine ⟨['W', 'O', 'Y'] ++ ':' :: f.text.toList, ?_, ?_⟩
    · simp [Schedule.allWords, Schedule.weeksWords, hf]
    · rw [isOtherClause_append (by simp) (by decide)]
      decide
  · obtain ⟨z, hz⟩ := Option.isSome_iff_exists.1 h
    refine ⟨['T', 'Z'] ++ ':' :: z.name.toList, ?_, ?_⟩
    · simp [Schedule.allWords, Schedule.timezoneWords, hz]
    · rw [isOtherClause_append (by simp) (by decide)]
      decide

theorem any_isOtherClause_of_not_extended (hw : s.weekOfYear = none) (hz : s.timezone = none) :
    s.allWords.any isOtherClause = false := by
  rw [Schedule.allWords_of_not_extended hw hz, List.any_eq_false]
  intro w hm
  rcases List.mem_append.1 hm with hm | hm
  · simp [isOtherClause, Schedule.clause?_of_mem_baseWords hm]
  · simp [isOtherClause_of_mem_boundWords hm]

variable {r : Schedule}

theorem readSchedule_canonical [TimezoneDatabase] (h : s.ClausesReread) (hr : s.BaseReadAs r) (hs : s.special = none) :
    readSchedule s.canonical = .ok (r.withClausesOf s) := by
  rw [readSchedule, Schedule.words_canonical h hs]
  by_cases hx : s.weekOfYear.isSome = true ∨ s.timezone.isSome = true
  · rw [if_pos (any_isOtherClause_of_extended hx)]
    exact Schedule.parseExtended_canonical h hr hs
  · simp only [not_or, Bool.not_eq_true, Option.isSome_eq_false_iff, Option.isNone_iff_eq_none] at hx
    obtain ⟨hw, hz⟩ := hx
    rw [any_isOtherClause_of_not_extended hw hz, if_neg Bool.false_ne_true]
    cases hb : s.endOfDuration with
    | none =>
      have hcut : cutAt "EOD:".toList s.canonical.toList = none := by
        have hwords := Schedule.allWords_of_not_extended hw hz
        rw [Schedule.boundWords, hb, List.append_nil] at hwords
        have hmem : 'E' ∉ [' '].intercalate s.baseWords :=
          Schedule.not_mem_baseText (by decide) (by decide)
        rw [s.toList_canonical, Schedule.canonicalText_eq hs, hwords]
        exact cutAt_of_not_mem hmem
      rw [hcut]
      exact Schedule.parseCron_canonical h hr hs hw hz hb
    | some d =>
      rw [Schedule.cutAt_canonical hs hw hz hb]
      exact Schedule.parseHybrid_canonical h hr hs hw hz hb

def beginsDuration (c : Char) : Bool := c == 'E' || c == 'S'

theorem beginsDuration_of_isFieldChar {c : Char} (h : isFieldChar c = true) :
    beginsDuration c = false := by
  rw [beginsDuration, Bool.or_eq_false_iff, beq_eq_false_iff_ne, beq_eq_false_iff_ne]
  constructor
  · rintro rfl
    exact absurd h (by decide)
  · rintro rfl
    exact absurd h (by decide)

theorem parse_of_not_beginsDuration [TimezoneDatabase] {text : String} {c : Char} {cs : List Char}
    (ht : trim text.toList = c :: cs) (hc : beginsDuration c = false) :
    parse text = (readSchedule (String.ofList (trim text.toList))).map ofSchedule := by
  rw [parse, ht]
  split
  · next he => cases he
  · next he => cases he; cases hc
  · next he => cases he; cases hc
  · rfl

theorem trim_canonicalText [TimezoneDatabase] (h : s.ClausesReread) (hs : s.special = none) :
    trim s.canonicalText = s.canonicalText := by
  rw [Schedule.canonicalText_eq hs]
  exact trim_intercalate fun w hw => Schedule.isWord_of_mem_allWords h hw

theorem parse_canonical_of_base [TimezoneDatabase] (h : s.ClausesReread) (hr : s.BaseReadAs r) (hs : s.special = none) :
    parse s.canonical = .ok (ofSchedule (r.withClausesOf s)) := by
  have htrim : trim s.canonical.toList = s.canonicalText := by
    rw [s.toList_canonical, trim_canonicalText h hs]
  obtain ⟨c, cs, hc, hfirst⟩ : ∃ c cs, s.canonicalText = c :: cs ∧ isFieldChar c = true := by
    have hfield := Schedule.isFieldChar_of_mem_fieldText s.second
    obtain ⟨ws, hws⟩ : ∃ ws, s.allWords = Schedule.fieldText s.second :: ws := ⟨_, rfl⟩
    rw [Schedule.canonicalText_eq hs, hws, intercalate_cons_eq]
    cases hf : Schedule.fieldText s.second with
    | nil => exact absurd hf (Schedule.fieldText_ne_nil s.second)
    | cons c cs =>
      rw [hf] at hfield
      exact ⟨c, _, rfl, hfield c (by simp)⟩
  rw [parse_of_not_beginsDuration (htrim.trans hc) (beginsDuration_of_isFieldChar hfirst), htrim, ← Schedule.canonical,
    readSchedule_canonical h hr hs]
  rfl

theorem parse_canonical [TimezoneDatabase] (h : s.Sound) (hs : s.special = none)
    (hd : ∀ d, s.endOfDuration = some d → Duration.parse d.canonical = .ok d) :
    parse s.canonical = .ok (ofSchedule s) := by
  have hbase : s.BaseReadAs { s.filled with year := s.year } :=
    ⟨Schedule.ofWords_baseWords h.year, .inr rfl, rfl, rfl⟩
  rw [parse_canonical_of_base ⟨h.timezone, hd⟩ hbase hs, Schedule.withClausesOf_filled h hs]

theorem kind_ofSchedule (s : Schedule) :
    (ofSchedule s).kind = .hybrid ↔ s.endOfDuration.isSome = true := by
  rw [ofSchedule]
  split
  · next h => simp [kind, h]
  · next h => simp [kind, h]

def Reads [TimezoneDatabase] (text : String) (s : Schedule) : Prop :=
  Schedule.parseCron text = .ok s ∨ Schedule.parseExtended text = .ok s ∨
    Schedule.parseHybrid text = .ok s ∨ ∃ e, parse text = .ok e ∧ e.schedule? = some s

theorem sound_of_reads [TimezoneDatabase] {text : String} (h : Reads text s) : s.Sound := by
  rcases h with h | h | h | ⟨e, he, h⟩
  · exact Schedule.sound_of_parseCron h
  · exact Schedule.sound_of_parseExtended h
  · exact Schedule.sound_of_parseHybrid h
  · exact sound_of_parse he h

theorem parse_canonical_of_reads [TimezoneDatabase] {text : String} (h : Reads text s) (hs : s.special = none)
    (hd : ∀ d, s.endOfDuration = some d →
      d.reference.isAnchored = true ∨ d.hasCalendarLength = false) :
    ∃ e, parse s.canonical = .ok e ∧ e.schedule? = some s ∧
      (e.kind = .hybrid ↔ s.endOfDuration.isSome = true) := by
  have hsound := sound_of_reads h
  have hread : ∀ d, s.endOfDuration = some d → Duration.parse d.canonical = .ok d := by
    intro d hb
    rw [Duration.parse_canonical (hsound.endOfDuration d hb), Duration.reread_eq_self (hd d hb)]
  exact ⟨ofSchedule s, parse_canonical hsound hs hread, schedule?_ofSchedule s, kind_ofSchedule s⟩

def closing : Duration :=
  { Duration.ending .stop with hours := 8, minutes := 30, event := some "EOD:late" }

theorem parse_canonical_closing :
    ∃ s, Schedule.parseHybrid "0 9 * * MON-FRI EOD:E8H30M E[EOD:late]" = .ok s ∧
      s.special = none ∧ s.endOfDuration = some closing ∧
      s.canonical = "0 0 9 * * 1-5 EOD:E8H30M E[EOD:late]" ∧
      ∃ e, parse s.canonical = .ok e ∧ e.schedule? = some s ∧
        (e.kind = .hybrid ↔ s.endOfDuration.isSome = true) := by
  have hread : (Schedule.parseHybrid "0 9 * * MON-FRI EOD:E8H30M E[EOD:late]").map
      (fun s => (s.special, s.endOfDuration, s.canonical)) =
        .ok (none, some closing, "0 0 9 * * 1-5 EOD:E8H30M E[EOD:late]") := by rfl
  obtain ⟨s, hs, he⟩ := map_eq_ok_iff.1 hread
  simp only [Prod.mk.injEq] at he
  obtain ⟨hspecial, hbound, htext⟩ := he
  refine ⟨s, hs, hspecial, hbound, htext, ?_⟩
  apply parse_canonical_of_reads (.inr (.inr (.inl hs))) hspecial
  intro d hd
  rw [hbound] at hd
  cases hd
  exact .inr rfl

end Expression

end Timetable
