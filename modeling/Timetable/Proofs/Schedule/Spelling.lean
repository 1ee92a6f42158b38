import Timetable.Proofs.Schedule.Agreement

namespace Timetable

open Text

structure WrittenClause where
  clause : Clause
  letters : List Char
  value : List Char
  trailers : List (List Char)
  map_letters : letters.map Char.toUpper = clause.keyword.toList
  isTrailer_of_mem : ∀ w ∈ trailers, isTrailer w = true
  trailers_eq_nil : clause ≠ .endOfDuration → trailers = []

namespace WrittenClause

variable (c : WrittenClause)

def head : List Char := c.letters ++ ':' :: c.value

def pieces : List (List Char) := c.head :: c.trailers

theorem length_letters : c.letters.length = c.clause.keyword.toList.length := by
  rw [← c.map_letters, List.length_map]

theorem letters_ne_nil : c.letters ≠ [] := by
  apply List.ne_nil_of_length_pos
  rw [length_letters]
  cases c.clause <;> decide

theorem letters_isAlpha : c.letters.all Char.isAlpha = true := by
  rw [List.all_eq_true]
  intro l hl
  have hupper : l.toUpper ∈ c.clause.keyword.toList := by
    rw [← c.map_letters]
    exact List.mem_map_of_mem hl
  have hall : c.clause.keyword.toList.all Char.isAlpha = true := by cases c.clause <;> decide
  exact isAlpha_of_isAlpha_toUpper (List.all_eq_true.1 hall _ hupper)

theorem not_mem_letters : ':' ∉ c.letters := by
  intro hm
  exact absurd (List.all_eq_true.1 c.letters_isAlpha _ hm) (by decide)

theorem clause?_head : clause? c.head = some (c.clause.keyword, String.ofList c.value) := by
  rw [head, clause?_append c.letters_ne_nil c.letters_isAlpha, c.map_letters, String.ofList_toList]

theorem ofKeyword?_keyword (k : Clause) : Clause.ofKeyword? k.keyword = some k := by
  cases k <;> rfl

theorem isOtherClause_head :
    Expression.isOtherClause c.head = decide (c.clause ≠ .endOfDuration) := by
  rw [Expression.isOtherClause, clause?_head]
  cases c.clause <;> rfl

end WrittenClause

namespace Parts

variable {p p' : Parts} {inside : Bool} {c : WrittenClause} {cs : List WrittenClause}
  {vs : List (List Char)}

def addTrailers (p : Parts) (c : WrittenClause) : Parts :=
  { p with endOfDuration :=
      p.endOfDuration.map (· ++ String.ofList (c.trailers.flatMap (' ' :: ·))) }

theorem set?_endOfDuration_eq_ok_iff {q : Parts} {value : String} :
    p.set? .endOfDuration value = .ok q ↔
      p.endOfDuration = none ∧ q = { p with endOfDuration := some value } := by
  cases hp : p.endOfDuration <;> simp [set?, hp, eq_comm]

theorem addWords_pieces (h : p.addWords inside (c.pieces ++ vs) = .ok p') : c.value ≠ [] ∧
    ∃ q, p.set? c.clause (String.ofList c.value) = .ok q ∧
      (q.addTrailers c).addWords (c.clause = .endOfDuration) vs = .ok p' := by
  rw [WrittenClause.pieces, List.cons_append, addWords, c.clause?_head] at h
  simp only [WrittenClause.ofKeyword?_keyword] at h
  split at h
  · cases h
  · next hv =>
    obtain ⟨q, hq, h⟩ := bind_eq_ok_iff.1 h
    refine ⟨by simpa using hv, q, hq, ?_⟩
    by_cases hc : c.clause = .endOfDuration
    · rw [hc, set?_endOfDuration_eq_ok_iff] at hq
      obtain ⟨-, rfl⟩ := hq
      rw [← h, hc]
      simp only [decide_true]
      rw [addWords_trailers_append c.isTrailer_of_mem]
      rfl
    · rw [c.trailers_eq_nil hc, List.nil_append] at h
      rw [← h, addTrailers, c.trailers_eq_nil hc]
      simp

theorem fields_of_addWords_pieces
    (h : p.addWords inside (cs.flatMap WrittenClause.pieces) = .ok p') : p'.fields = p.fields := by
  induction cs generalizing p inside with
  | nil =>
    cases h
    rfl
  | cons c cs ih =>
    obtain ⟨-, q, hq, h⟩ := addWords_pieces h
    rw [ih h, addTrailers, Schedule.fields_of_set? hq]

theorem eq_nil_of_addWords_bounds (hp : p.endOfDuration.isSome = true)
    (hcs : ∀ c ∈ cs, c.clause = .endOfDuration)
    (h : p.addWords inside (cs.flatMap WrittenClause.pieces) = .ok p') : cs = [] := by
  cases cs with
  | nil => rfl
  | cons c cs =>
    obtain ⟨-, q, hq, -⟩ := addWords_pieces h
    rw [hcs c List.mem_cons_self, set?_endOfDuration_eq_ok_iff] at hq
    rw [hq.1] at hp
    cases hp

end Parts

namespace Schedule

variable {s : Schedule} {text : String} {fields : List (List Char)} {c : WrittenClause}
  {cs : List WrittenClause}

theorem parts_of_parseExtended [TimezoneDatabase] (hw : words text.toList = fields ++ cs.flatMap WrittenClause.pieces)
    (hf : ∀ w ∈ fields, clause? w = none) (h : parseExtended text = .ok s) :
    ∃ p, Parts.addWords { fields := fields.map String.ofList } false
        (cs.flatMap WrittenClause.pieces) = .ok p ∧
      p.fields = fields.map String.ofList ∧ ofParts p = .ok s := by
  obtain ⟨p, hp, h⟩ := bind_eq_ok_iff.1 h
  rw [Parts.split, Parts.ofText, hw, Parts.addWords_fields hf] at hp
  exact ⟨p, hp, Parts.fields_of_addWords_pieces hp, h⟩

theorem ofWords_of_parseExtended [TimezoneDatabase]
    (hw : words text.toList = fields ++ cs.flatMap WrittenClause.pieces)
    (hf : ∀ w ∈ fields, clause? w = none) (h : parseExtended text = .ok s) :
    ∃ s₀, ofWords (fields.map String.ofList) = .ok s₀ := by
  obtain ⟨p, -, hfields, h⟩ := parts_of_parseExtended hw hf h
  obtain ⟨s₀, h₀, -⟩ := bind_eq_ok_iff.1 h
  exact ⟨s₀, hfields ▸ h₀⟩

theorem bound_of_parseExtended [TimezoneDatabase] (hw : words text.toList = fields ++ c.pieces)
    (hc : c.clause = .endOfDuration) (hf : ∀ w ∈ fields, clause? w = none)
    (h : parseExtended text = .ok s) : c.value ≠ [] ∧ ∃ d,
      Duration.parse (String.ofList ([' '].intercalate (c.value :: c.trailers))) = .ok d := by
  have hw' : words text.toList = fields ++ [c].flatMap WrittenClause.pieces := by simpa using hw
  obtain ⟨p, hp, -, h⟩ := parts_of_parseExtended hw' hf h
  obtain ⟨hv, q, hq, hp⟩ := Parts.addWords_pieces hp
  rw [hc] at hq
  cases hq
  cases hp
  obtain ⟨s₀, -, h⟩ := bind_eq_ok_iff.1 h
  obtain ⟨s₁, -, h⟩ := bind_eq_ok_iff.1 h
  obtain ⟨s₂, -, h⟩ := bind_eq_ok_iff.1 h
  obtain ⟨d, hd, -⟩ := map_eq_ok_iff.1 h
  refine ⟨hv, d, ?_⟩
  rw [intercalate_cons_eq, String.ofList_append]
  exact mapError_eq_ok_iff.1 hd

theorem exists_cut_of_bound [TimezoneDatabase] (hw : words text.toList = fields ++ c.pieces)
    (hf : ∀ w ∈ fields, clause? w = none) (h : parseExtended text = .ok s) :
    ∃ before after s₀, text.toList = (before ++ c.letters) ++ ':' :: (c.value ++ after) ∧
      parseCron (String.ofList before) = .ok s₀ ∧ words after = c.trailers ∧
      after.takeWhile (!isBlank ·) = [] := by
  have hw' : words text.toList = fields ++ [c].flatMap WrittenClause.pieces := by simpa using hw
  obtain ⟨s₀, h₀⟩ := ofWords_of_parseExtended hw' hf h
  obtain ⟨before, after, ht, hbefore, hafter, hhead⟩ := exists_append_of_words hw
  refine ⟨before, after, s₀, ?_, ?_, hafter, hhead⟩
  · rw [ht, WrittenClause.head]
    simp
  · rw [parseCron, String.toList_ofList, hbefore, h₀]

theorem letters_of_parseHybrid [TimezoneDatabase] {before after : List Char} {s₀ : Schedule}
    (hc : c.clause = .endOfDuration) (ht : text.toList = (before ++ c.letters) ++ ':' :: after)
    (hcron : parseCron (String.ofList before) = .ok s₀) (hh : parseHybrid text = .ok s) :
    c.letters = "EOD".toList := by
  have hcolon := not_mem_colon_of_parseCron hcron
  rw [String.toList_ofList] at hcolon
  rcases parseHybrid_cases hh with hplain | ⟨b, a, s₁, d, ht', hb, -, -⟩
  · exact absurd (by simp [ht]) (not_mem_colon_of_parseCron hplain)
  · -- both readings cut the text at its first colon
    have hb := not_mem_colon_of_parseCron hb
    rw [String.toList_ofList] at hb
    have hcut : text.toList = (b ++ "EOD".toList) ++ ':' :: a := by
      rw [ht']
      simp
    have hsame : some (before ++ c.letters, after) = some (b ++ "EOD".toList, a) := by
      rw [← cutAt_singleton (c := ':') (by simp [hcolon, c.not_mem_letters]), ← ht, hcut,
        cutAt_singleton (by simp [hb])]
    refine (List.append_inj' (Prod.mk.inj (Option.some.inj hsame)).1 ?_).2
    rw [c.length_letters, hc]
    rfl

theorem exists_parse_of_bound [TimezoneDatabase] {after : List Char}
    (hw : words text.toList = fields ++ c.pieces) (hc : c.clause = .endOfDuration)
    (hf : ∀ w ∈ fields, clause? w = none) (h : parseExtended text = .ok s)
    (hafter : words after = c.trailers) (hhead : after.takeWhile (!isBlank ·) = []) :
    ∃ d, Duration.parse (String.ofList (c.value ++ after)) = .ok d := by
  obtain ⟨hv, d, hd⟩ := bound_of_parseExtended hw hc hf h
  have hwords : ∀ w ∈ c.pieces, IsWord w := by
    intro w hm
    have hmem : w ∈ words text.toList := by
      rw [hw]
      exact List.mem_append_right _ hm
    exact isWord_of_mem_words hmem
  have hvalue : ∀ x ∈ c.value, isBlank x = false := fun x hx =>
    (hwords c.head List.mem_cons_self).2 x (by simp [WrittenClause.head, hx])
  refine ⟨d, Duration.parse_congr ?_ hd⟩
  rw [String.toList_ofList, String.toList_ofList, words_of_takeWhile_eq_nil hv hvalue hhead,
    hafter, words_intercalate]
  exact List.forall_mem_cons.2 ⟨⟨hv, hvalue⟩, fun w hm => hwords w (List.mem_cons_of_mem _ hm)⟩

theorem parseHybrid_iff_of_bound [TimezoneDatabase] (hw : words text.toList = fields ++ c.pieces)
    (hc : c.clause = .endOfDuration) (hf : ∀ w ∈ fields, clause? w = none)
    (h : parseExtended text = .ok s) :
    parseHybrid text = .ok s ↔ c.letters = "EOD".toList := by
  obtain ⟨before, after, s₀, ht, hcron, hafter, hhead⟩ := exists_cut_of_bound hw hf h
  constructor
  · exact letters_of_parseHybrid hc ht hcron
  · intro hletters
    obtain ⟨d, hd⟩ := exists_parse_of_bound hw hc hf h hafter hhead
    have ht' : text.toList = before ++ "EOD:".toList ++ (c.value ++ after) := by
      rw [ht, hletters]
      simp
    have hh := parseHybrid_append hcron hd ht'
    rw [hh, eq_of_parseExtended_of_parseHybrid h hh]

end Schedule

namespace Expression

variable {s : Schedule} {text : String} {fields : List (List Char)} {cs : List WrittenClause}

def BoundMissed (cs : List WrittenClause) : Prop :=
  (∀ c ∈ cs, c.clause = .endOfDuration) ∧ ∃ c ∈ cs, c.letters ≠ "EOD".toList

instance : DecidablePred BoundMissed := fun cs =>
  inferInstanceAs (Decidable ((∀ c ∈ cs, c.clause = .endOfDuration) ∧ _))

theorem any_isOtherClause (hf : ∀ w ∈ fields, clause? w = none) :
    (fields ++ cs.flatMap WrittenClause.pieces).any isOtherClause =
      cs.any (·.clause ≠ .endOfDuration) := by
  have hfields : fields.any isOtherClause = false := by
    rw [List.any_eq_false]
    exact fun w hw => by simp [isOtherClause, hf w hw]
  rw [List.any_append, hfields, Bool.false_or, List.any_flatMap]
  congr 1
  funext c
  have htrailers : c.trailers.any isOtherClause = false := by
    rw [List.any_eq_false]
    exact fun w hw => by simp [isOtherClause, clause?_of_isTrailer (c.isTrailer_of_mem w hw)]
  rw [WrittenClause.pieces, List.any_cons, htrailers, Bool.or_false, c.isOtherClause_head]

theorem readSchedule_eq_parseHybrid [TimezoneDatabase]
    (h : (words text.toList).any isOtherClause = false) :
    readSchedule text = Schedule.parseHybrid text := by
  rw [readSchedule, h, if_neg Bool.false_ne_true]
  split
  · rfl
  · next hcut =>
    rw [Option.not_isSome_iff_eq_none] at hcut
    rw [Schedule.parseHybrid, hcut]

theorem readSchedule_iff_not_boundMissed [TimezoneDatabase]
    (hw : words text.toList = fields ++ cs.flatMap WrittenClause.pieces)
    (hf : ∀ w ∈ fields, clause? w = none) (h : Schedule.parseExtended text = .ok s) :
    readSchedule text = .ok s ↔ ¬ BoundMissed cs := by
  by_cases hcs : ∀ c ∈ cs, c.clause = .endOfDuration
  · have hother : (words text.toList).any isOtherClause = false := by
      rw [hw, any_isOtherClause hf, List.any_eq_false]
      simpa using hcs
    rw [readSchedule_eq_parseHybrid hother]
    cases cs with
    | nil =>
      have hcron : Schedule.parseCron text = .ok s := by
        rw [List.flatMap_nil, List.append_nil] at hw
        rw [Schedule.parseCron, hw, ← Schedule.parseExtended_of_words hw hf, h]
      simp [BoundMissed, Schedule.parseHybrid_of_parseCron hcron]
    | cons c cs =>
      obtain ⟨p, hp, -⟩ := Schedule.parts_of_parseExtended hw hf h
      obtain ⟨hc, hcs⟩ := List.forall_mem_cons.1 hcs
      obtain ⟨-, q, hq, hp⟩ := Parts.addWords_pieces hp
      rw [hc, Parts.set?_endOfDuration_eq_ok_iff] at hq
      obtain ⟨-, rfl⟩ := hq
      obtain rfl := Parts.eq_nil_of_addWords_bounds rfl hcs hp
      rw [Schedule.parseHybrid_iff_of_bound (by simpa using hw) hc hf h]
      simp [BoundMissed, hc]
  · have hother : (words text.toList).any isOtherClause = true := by
      rw [hw, any_isOtherClause hf, List.any_eq_true]
      simpa using hcs
    rw [readSchedule, hother, if_pos rfl, h]
    simp [BoundMissed, hcs]

theorem exists_parse_iff_readSchedule [TimezoneDatabase]
    (hw : words text.toList = fields ++ cs.flatMap WrittenClause.pieces)
    (hf : ∀ w ∈ fields, clause? w = none) (h : Schedule.parseExtended text = .ok s) :
    (∃ x, parse text = .ok x ∧ x.schedule? = some s) ↔
      readSchedule (String.ofList (trim text.toList)) = .ok s := by
  obtain ⟨s₀, h₀⟩ := Schedule.ofWords_of_parseExtended hw hf h
  have hplain : ∀ w ∈ fields, ∀ c ∈ w, isBlank c = false := by
    intro w hw' c hc
    have hmem : w ∈ words text.toList := by
      rw [hw]
      exact List.mem_append_left _ hw'
    exact isBlank_eq_false_of_mem_words hmem hc
  obtain ⟨c, ds, ws, rfl, hc⟩ := Schedule.head_of_ofWords hplain h₀
  obtain ⟨rest, ht⟩ := trim_of_words hw
  rw [parse_of_not_beginsDuration ht hc]
  constructor
  · rintro ⟨x, hx, hs⟩
    obtain ⟨s', hs', rfl⟩ := map_eq_ok_iff.1 hx
    rw [schedule?_ofSchedule, Option.some.injEq] at hs
    rw [hs', hs]
  · intro hs
    exact ⟨ofSchedule s, map_eq_ok_iff.2 ⟨s, hs, rfl⟩, schedule?_ofSchedule s⟩

/-- A text of fields or a macro and then clauses, in any order and case, is read as an expression with
the schedule that the extended reader finds, unless its only clause is a bound in small letters. -/
theorem exists_parse_iff_not_boundMissed [TimezoneDatabase]
    (hw : words text.toList = fields ++ cs.flatMap WrittenClause.pieces)
    (hf : ∀ w ∈ fields, clause? w = none) (h : Schedule.parseExtended text = .ok s) :
    (∃ x, parse text = .ok x ∧ x.schedule? = some s) ↔ ¬ BoundMissed cs := by
  have htrim : words (String.ofList (trim text.toList)).toList = words text.toList := by simp
  rw [exists_parse_iff_readSchedule hw hf h]
  rw [← Schedule.parseExtended_congr htrim] at h
  exact readSchedule_iff_not_boundMissed (htrim.trans hw) hf h

def smallClauses : List WrittenClause :=
  [⟨.timezone, ['t', 'z'], ['U', 'T', 'C'], [], by decide, by simp, by simp⟩,
    ⟨.endOfDuration, ['e', 'o', 'd'], ['E', '1', 'D'], [['D']], by decide, by decide, by simp⟩]

theorem exists_parse_smallClauses : ∃ x s, parse "@daily tz:UTC eod:E1D D" = .ok x ∧
    Schedule.parseExtended "@daily tz:UTC eod:E1D D" = .ok s ∧ x.schedule? = some s := by
  have hw : words "@daily tz:UTC eod:E1D D".toList =
      [['@', 'd', 'a', 'i', 'l', 'y']] ++ smallClauses.flatMap WrittenClause.pieces := by
    decide +kernel
  have hok : (Schedule.parseExtended "@daily tz:UTC eod:E1D D").isOk = true := by decide +kernel
  have hmissed : ¬ BoundMissed smallClauses := by decide
  obtain ⟨s, h⟩ := isOk_iff_exists.1 hok
  obtain ⟨x, hx, hs⟩ := (exists_parse_iff_not_boundMissed hw (by decide) h).2 hmissed
  exact ⟨x, s, hx, h, hs⟩

def smallBound : List WrittenClause :=
  [⟨.endOfDuration, ['e', 'o', 'd'], ['E', '8', 'H'], [], by decide, by simp, by simp⟩]

theorem not_parse_smallBound :
    words "0 9 * * 1-5 eod:E8H".toList =
      [['0'], ['9'], ['*'], ['*'], ['1', '-', '5']] ++ smallBound.flatMap WrittenClause.pieces ∧
    (∀ w ∈ [['0'], ['9'], ['*'], ['*'], ['1', '-', '5']], clause? w = none) ∧
    (∃ s, Schedule.parseExtended "0 9 * * 1-5 eod:E8H" = .ok s) ∧
    ∀ x, parse "0 9 * * 1-5 eod:E8H" ≠ .ok x := by
  have hok : (Schedule.parseExtended "0 9 * * 1-5 eod:E8H").isOk = true := by decide +kernel
  have hnot : (parse "0 9 * * 1-5 eod:E8H").isOk = false := by decide +kernel
  refine ⟨by decide +kernel, by decide, isOk_iff_exists.1 hok, fun x hx => ?_⟩
  rw [isOk_iff_exists.2 ⟨x, hx⟩] at hnot
  cases hnot

end Expression

end Timetable
