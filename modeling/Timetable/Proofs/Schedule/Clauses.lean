import Timetable.Proofs.Schedule.Words

namespace Timetable

open Text

variable {w : List Char} {ws vs : List (List Char)}

theorem clause?_event (rest : List Char) : clause? ('E' :: '[' :: rest) = none := by
  rw [clause?]
  cases hcut : cutAt [':'] ('E' :: '[' :: rest) with
  | none => rfl
  | some r =>
    obtain ⟨keyword, value⟩ := r
    have hkeyword := append_of_cutAt_eq_some hcut
    -- the bracket stands before the first colon, so it is part of the keyword
    cases keyword with
    | nil => simp at hkeyword
    | cons c keyword =>
      cases keyword with
      | nil => simp at hkeyword
      | cons d keyword =>
        simp only [List.cons_append, List.cons.injEq] at hkeyword
        rw [← hkeyword.2.1]
        have hd : ('[' : Char).isAlpha = false := by decide
        simp [hd]

theorem clause?_of_isTrailer (h : isTrailer w = true) : clause? w = none := by
  rw [isTrailer.eq_def] at h
  split at h
  · simp only [List.mem_cons, List.not_mem_nil, or_false, decide_eq_true_eq] at h
    rcases h with rfl | rfl | rfl | rfl | rfl <;> decide
  · exact clause?_event _
  · cases h

namespace Duration

variable {d : Duration}

theorem isTrailer_of_mem_clauseWords (h : w ∈ d.clauseWords) : isTrailer w = true := by
  rcases List.mem_append.1 h with h | h
  · obtain ⟨c, hc, rfl⟩ := exists_letter_of_mem_suffixWords h
    cases hr : d.reference <;> rw [hr] at hc <;> cases hc <;> decide
  · obtain ⟨name, -, rfl⟩ := exists_name_of_mem_eventWords h
    simp [isTrailer]

end Duration

namespace Parts

variable {p p' : Parts}

theorem addWords_fields (h : ∀ w ∈ ws, clause? w = none) :
    p.addWords false (ws ++ vs) =
      { p with fields := p.fields ++ ws.map String.ofList }.addWords false vs := by
  induction ws generalizing p with
  | nil => simp
  | cons w ws ih =>
    rw [List.cons_append, addWords, h w (by simp)]
    simp only [Bool.false_and, Bool.false_eq_true, if_false]
    rw [ih fun v hv => h v (List.mem_cons_of_mem w hv)]
    simp

theorem addWords_clause {inside : Bool} {keyword value : String} {c : Clause}
    (hw : clause? w = some (keyword, value)) (hv : value.isEmpty = false)
    (hc : Clause.ofKeyword? keyword = some c) (hp : p.set? c value = .ok p') :
    p.addWords inside (w :: vs) = p'.addWords (c = .endOfDuration) vs := by
  rw [addWords, hw]
  simp only [hv, hc, hp, bind, Except.bind]
  rfl

theorem addWords_trailers_append {bound : String} (h : ∀ w ∈ ws, isTrailer w = true) :
    { p with endOfDuration := some bound }.addWords true (ws ++ vs) =
      { p with endOfDuration := some (bound ++ String.ofList (ws.flatMap (' ' :: ·))) }.addWords
        true vs := by
  induction ws generalizing bound with
  | nil => simp
  | cons w ws ih =>
    have ht := h w (by simp)
    rw [List.cons_append, addWords, clause?_of_isTrailer ht]
    simp only [ht, Bool.and_self, if_true, Option.map_some]
    rw [ih fun v hv => h v (List.mem_cons_of_mem w hv)]
    congr 3
    apply String.ext
    simp

theorem addWords_trailers {bound : String} (h : ∀ w ∈ ws, isTrailer w = true) :
    { p with endOfDuration := some bound }.addWords true ws =
      .ok { p with endOfDuration := some (bound ++ String.ofList (ws.flatMap (' ' :: ·))) } := by
  rw [← List.append_nil ws, addWords_trailers_append h, List.append_nil, addWords]

end Parts

namespace Schedule

variable {s : Schedule} {p : Parts}

theorem isEmpty_ofList {cs : List Char} (h : cs ≠ []) : (String.ofList cs).isEmpty = false := by
  simp [h]

theorem addWords_weeksWords (hp : p.weekOfYear = none) :
    p.addWords false (s.weeksWords ++ vs) =
      { p with weekOfYear := s.weekOfYear.map Field.text }.addWords false vs := by
  rw [weeksWords]
  cases hw : s.weekOfYear with
  | none => simp [← hp]
  | some f =>
    have hclause : clause? (['W', 'O', 'Y'] ++ ':' :: f.text.toList) =
        some ("WOY", String.ofList f.text.toList) := clause?_append (by simp) (by decide)
    exact Parts.addWords_clause hclause (isEmpty_ofList f.text_ne_nil) rfl (by simp [Parts.set?, hp])

theorem addWords_timezoneWords [TimezoneDatabase] (h : s.TimezoneKnown) (hp : p.timezone = none) :
    p.addWords false (s.timezoneWords ++ vs) =
      { p with timezone := s.timezone.map Timezone.name }.addWords false vs := by
  rw [timezoneWords]
  cases hz : s.timezone with
  | none => simp [← hp]
  | some z =>
    have hclause : clause? (['T', 'Z'] ++ ':' :: z.name.toList) =
        some ("TZ", String.ofList z.name.toList) := clause?_append (by simp) (by decide)
    exact Parts.addWords_clause hclause (isEmpty_ofList (isWord_name (h z hz)).1) rfl
      (by simp [Parts.set?, hp])

theorem addWords_boundWords (hp : p.endOfDuration = none) :
    p.addWords false s.boundWords =
      .ok { p with endOfDuration := s.endOfDuration.map Duration.canonical } := by
  rw [boundWords]
  cases hd : s.endOfDuration with
  | none => simp [← hp, Parts.addWords]
  | some d =>
    have hclause : clause? (['E', 'O', 'D'] ++ ':' :: d.unitsWord) =
        some ("EOD", String.ofList d.unitsWord) := clause?_append (by simp) (by decide)
    have hset : p.set? .endOfDuration (String.ofList d.unitsWord) =
        .ok { p with endOfDuration := some (String.ofList d.unitsWord) } := by
      simp [Parts.set?, hp]
    simp only
    rw [Parts.addWords_clause hclause (isEmpty_ofList d.isWord_unitsWord.1) rfl hset]
    simp only [decide_true]
    rw [Parts.addWords_trailers fun w hw => Duration.isTrailer_of_mem_clauseWords hw,
      ← String.ofList_append, ← d.canonicalText_eq]
    rfl

def parts (s : Schedule) : Parts where
  fields := s.baseWords.map String.ofList
  weekOfYear := s.weekOfYear.map Field.text
  timezone := s.timezone.map Timezone.name
  endOfDuration := s.endOfDuration.map Duration.canonical

theorem split_canonical [TimezoneDatabase] (h : s.ClausesReread) (hs : s.special = none) :
    Parts.split s.canonical = .ok s.parts := by
  rw [Parts.split, Parts.ofText, words_canonical h hs, allWords,
    Parts.addWords_fields fun w hw => clause?_of_mem_baseWords hw, addWords_weeksWords rfl,
    addWords_timezoneWords h.timezone rfl, addWords_boundWords rfl]
  rfl

end Schedule

end Timetable
