import Timetable.Proofs.Duration.RoundTrip
import Timetable.Proofs.Schedule.Sound

namespace Timetable

open Text

variable {w value : List Char}

theorem clause?_of_not_mem (h : ':' ∉ w) : clause? w = none := by
  rw [clause?, cutAt_of_not_mem h]

theorem clause?_append {keyword : List Char} (hne : keyword ≠ [])
    (hall : keyword.all Char.isAlpha = true) : clause? (keyword ++ ':' :: value) =
      some (String.ofList (keyword.map Char.toUpper), String.ofList value) := by
  have hc : ':' ∉ keyword := by
    intro hm
    exact absurd (List.all_eq_true.1 hall _ hm) (by decide)
  rw [clause?, cutAt_singleton hc]
  simp [hne, hall]

namespace Schedule

variable {s : Schedule}

def baseWords (s : Schedule) : List (List Char) :=
  [fieldText s.second, fieldText s.minute, fieldText s.hour, fieldText s.dayOfMonth,
    fieldText s.month, fieldText s.dayOfWeek] ++
    (s.year.map fun f => f.text.toList).toList

def weeksWords (s : Schedule) : List (List Char) :=
  (s.weekOfYear.map fun f => ['W', 'O', 'Y'] ++ ':' :: f.text.toList).toList

def timezoneWords (s : Schedule) : List (List Char) :=
  (s.timezone.map fun z => ['T', 'Z'] ++ ':' :: z.name.toList).toList

def boundWords (s : Schedule) : List (List Char) :=
  match s.endOfDuration with
  | none => []
  | some d => (['E', 'O', 'D'] ++ ':' :: d.unitsWord) :: d.clauseWords

def allWords (s : Schedule) : List (List Char) :=
  s.baseWords ++ (s.weeksWords ++ (s.timezoneWords ++ s.boundWords))

theorem isFieldChar_of_mem_fieldText {k : FieldKind} (f : Option (Field k)) :
    ∀ c ∈ fieldText f, isFieldChar c = true := by
  cases f with
  | none =>
    intro c hc
    rw [List.mem_singleton.1 hc]
    decide
  | some f => exact f.forall_isFieldChar

theorem fieldText_ne_nil {k : FieldKind} (f : Option (Field k)) : fieldText f ≠ [] := by
  cases f with
  | none => exact List.cons_ne_nil _ _
  | some f => exact f.text_ne_nil

theorem exists_fieldText_of_mem_baseWords (hw : w ∈ s.baseWords) :
    ∃ (k : FieldKind) (f : Option (Field k)), w = fieldText f := by
  simp only [baseWords, List.mem_append, List.mem_cons, List.not_mem_nil, or_false] at hw
  rcases hw with (rfl | rfl | rfl | rfl | rfl | rfl) | hw
  · exact ⟨_, _, rfl⟩
  · exact ⟨_, _, rfl⟩
  · exact ⟨_, _, rfl⟩
  · exact ⟨_, _, rfl⟩
  · exact ⟨_, _, rfl⟩
  · exact ⟨_, _, rfl⟩
  · obtain ⟨f, -, rfl⟩ : ∃ f, s.year = some f ∧ f.text.toList = w := by simpa using hw
    exact ⟨_, some f, rfl⟩

theorem isFieldChar_of_mem_baseWords (hw : w ∈ s.baseWords) : ∀ c ∈ w, isFieldChar c = true := by
  obtain ⟨k, f, rfl⟩ := exists_fieldText_of_mem_baseWords hw
  exact isFieldChar_of_mem_fieldText f

theorem isWord_of_mem_baseWords (hw : w ∈ s.baseWords) : IsWord w := by
  refine ⟨?_, fun c hc => isBlank_eq_false_of_isFieldChar (isFieldChar_of_mem_baseWords hw c hc)⟩
  obtain ⟨k, f, rfl⟩ := exists_fieldText_of_mem_baseWords hw
  exact fieldText_ne_nil f

theorem clause?_of_mem_baseWords (hw : w ∈ s.baseWords) : clause? w = none := by
  apply clause?_of_not_mem
  intro hc
  exact absurd (isFieldChar_of_mem_baseWords hw _ hc) (by decide)

theorem isWord_name [TimezoneDatabase] {z : Timezone} (h : TimezoneDatabase.find? z.name = some z) :
    IsWord z.name.toList :=
  ⟨fun hn => TimezoneDatabase.name_ne h (String.toList_eq_nil_iff.1 hn), TimezoneDatabase.not_blank h⟩

theorem isWord_clause {keyword : List Char} (hall : keyword.all Char.isAlpha = true)
    (hv : IsWord value) : IsWord (keyword ++ ':' :: value) := by
  refine ⟨by simp, ?_⟩
  intro c hc
  rcases List.mem_append.1 hc with hc | hc
  · exact isBlank_eq_false_of_isAlpha (List.all_eq_true.1 hall c hc)
  · rcases List.mem_cons.1 hc with rfl | hc
    · decide
    · exact hv.2 c hc

theorem isWord_of_mem_allWords [TimezoneDatabase] (h : s.ClausesReread) (hw : w ∈ s.allWords) : IsWord w := by
  simp only [allWords, List.mem_append] at hw
  rcases hw with hw | hw | hw | hw
  · exact isWord_of_mem_baseWords hw
  · obtain ⟨f, -, rfl⟩ : ∃ f, s.weekOfYear = some f ∧ ['W', 'O', 'Y'] ++ ':' :: f.text.toList = w := by
      simpa [weeksWords] using hw
    exact isWord_clause (by decide) ⟨f.text_ne_nil, f.isBlank_eq_false⟩
  · obtain ⟨z, hz, rfl⟩ : ∃ z, s.timezone = some z ∧ ['T', 'Z'] ++ ':' :: z.name.toList = w := by
      simpa [timezoneWords] using hw
    exact isWord_clause (by decide) (isWord_name (h.timezone z hz))
  · rw [boundWords] at hw
    split at hw
    · simp at hw
    · next d hd =>
      rcases List.mem_cons.1 hw with rfl | hw
      · exact isWord_clause (by decide) d.isWord_unitsWord
      · have hsound := (Duration.wellFormed_of_parse (h.endOfDuration d hd)).toSound
        exact Duration.isWord_of_mem_clauseWords hsound hw

theorem canonicalText_eq (hs : s.special = none) :
    s.canonicalText = [' '].intercalate s.allWords := by
  have hwords : s.canonicalWords = s.baseWords ++ s.weeksWords ++ s.timezoneWords ++
      (s.endOfDuration.map fun d => "EOD:".toList ++ d.canonicalText).toList := rfl
  have hlead (ws : List (List Char)) : s.baseWords ++ (s.weeksWords ++ (s.timezoneWords ++ ws)) =
      s.baseWords ++ s.weeksWords ++ s.timezoneWords ++ ws := by
    rw [List.append_assoc, List.append_assoc]
  rw [canonicalText, hs, hwords, allWords, hlead, boundWords]
  cases hd : s.endOfDuration with
  | none => rfl
  | some d =>
    rw [Option.map_some, Option.toList_some, d.canonicalText_eq]
    exact intercalate_append_flatMap _ (['E', 'O', 'D'] ++ ':' :: d.unitsWord) _

theorem toList_canonical (s : Schedule) : s.canonical.toList = s.canonicalText := by
  rw [canonical, String.toList_ofList]

theorem words_canonical [TimezoneDatabase] (h : s.ClausesReread) (hs : s.special = none) :
    words s.canonical.toList = s.allWords := by
  rw [toList_canonical, canonicalText_eq hs]
  exact words_intercalate fun w hw => isWord_of_mem_allWords h hw

end Schedule

end Timetable
