import Timetable.Proofs.Schedule.RoundTrip

/-! The readers of expressions agree wherever two of them take the same text. -/

namespace Timetable

open Text Expression

theorem not_mem_colon_of_readField {k : FieldKind} {f : Field k} {text : String}
    (hb : ∀ c ∈ text.toList, isBlank c = false) (h : readField k text = .ok f) :
    ':' ∉ text.toList := by
  intro hm
  have hf : ':' ∈ f.text.toList := by
    rw [toList_text_of_readField h, normalise, trim_of_forall hb]
    exact mem_replaceWords_of_mem (by decide) hm
  exact absurd (f.forall_isFieldChar _ hf) (by decide)

theorem beginsDuration_of_readField {k : FieldKind} {f : Field k} {text : String}
    (hk : k.valueNames = []) (hb : ∀ c ∈ text.toList, isBlank c = false)
    (h : readField k text = .ok f) : ∃ c cs, text.toList = c :: cs ∧ beginsDuration c = false := by
  have hchar := f.forall_isFieldChar
  have hne := f.text_ne_nil
  rw [text_of_readField hk hb h] at hchar hne
  cases ht : text.toList with
  | nil => exact absurd ht hne
  | cons c cs => exact ⟨c, cs, rfl, beginsDuration_of_isFieldChar (hchar c (by simp [ht]))⟩

namespace Duration

variable {d d' : Duration} {text text' : String}

theorem ofWords_congr {fromStart : Bool} {units : List Char} {clauses : List (List Char)}
    (h : ofWords fromStart units clauses text = .ok d) :
    ofWords fromStart units clauses text' = .ok d := by
  obtain ⟨ts, ht, h⟩ := bind_eq_ok_iff.1 h
  refine bind_eq_ok_iff.2 ⟨ts, ht, ?_⟩
  cases ts with
  | nil => cases h
  | cons t ts =>
    obtain ⟨e, he, h⟩ := bind_eq_ok_iff.1 h
    obtain ⟨e', he', h⟩ := bind_eq_ok_iff.1 h
    refine bind_eq_ok_iff.2 ⟨e, he, bind_eq_ok_iff.2 ⟨e', he', ?_⟩⟩
    split at h
    · cases h
    · next hs => rw [if_neg hs, h]

theorem ofWords_of_parse (h : parse text = .ok d) : ∃ c units clauses,
    words text.toList = (c :: units) :: clauses ∧ beginsDuration c = true ∧
      ofWords (c == 'S') units clauses text = .ok d := by
  rw [parse, ofText] at h
  split at h
  · cases h
  · next units clauses hw => exact ⟨'S', units, clauses, hw, rfl, ofWords_congr h⟩
  · next units clauses hw => exact ⟨'E', units, clauses, hw, rfl, ofWords_congr h⟩
  · cases h

theorem parse_congr (hw : words text.toList = words text'.toList) (h : parse text = .ok d) :
    parse text' = .ok d := by
  rw [parse, ofText] at h ⊢
  rw [← hw]
  split at h
  · cases h
  · exact ofWords_congr h
  · exact ofWords_congr h
  · cases h

theorem beginsAmounts_of_tokens {side : Side} {previous : Option TimeUnit} {digits cs : List Char}
    {ts : List Token} (h : tokens side previous digits cs = .ok ts) :
    ∀ c ∈ cs, Expression.beginsAmounts c = true := by
  induction cs generalizing side previous digits ts with
  | nil => simp
  | cons c cs ih =>
    rcases tokens_cons_cases h with ⟨hd, h⟩ | ⟨-, rfl, -, h⟩ | ⟨-, n, u, rest, -, hu, h, -⟩
    · exact List.forall_mem_cons.2 ⟨by simp [Expression.beginsAmounts, hd], ih h⟩
    · exact List.forall_mem_cons.2 ⟨rfl, ih h⟩
    · refine List.forall_mem_cons.2 ⟨?_, ih h⟩
      rw [unitOf.eq_def] at hu
      split at hu <;> split at hu <;> first | rfl | cases hu

theorem isTrailer_of_addClauses {suffixed : Bool} {clauses : List (List Char)}
    (h : d.addClauses suffixed clauses = .ok d') : ∀ w ∈ clauses, isTrailer w = true := by
  induction clauses generalizing d suffixed with
  | nil => simp
  | cons w ws ih =>
    rcases addClauses_cons_cases h with ⟨name, hname, -, -, hrest⟩ | ⟨r, hr, -, hrest⟩
    · refine List.forall_mem_cons.2 ⟨?_, ih hrest⟩
      rw [eq_of_eventName? hname]
      simp [isTrailer]
    · refine List.forall_mem_cons.2 ⟨?_, ih hrest⟩
      obtain ⟨c, rfl, hletter⟩ := exists_letter_of_suffix? hr
      rw [Reference.ofLetter?_eq_some_iff] at hletter
      cases r <;> cases hletter <;> decide

theorem words_of_parse (h : parse text = .ok d) : ∃ c x units clauses,
    words text.toList = (c :: x :: units) :: clauses ∧ beginsDuration c = true ∧
      (∀ y ∈ x :: units, Expression.beginsAmounts y = true) ∧
      ∀ w ∈ clauses, isTrailer w = true := by
  obtain ⟨c, units, clauses, hw, hc, h⟩ := ofWords_of_parse h
  obtain ⟨ts, ht, h⟩ := bind_eq_ok_iff.1 h
  cases units with
  | nil => cases ht; cases h
  | cons x units =>
    refine ⟨c, x, units, clauses, hw, hc, beginsAmounts_of_tokens ht, ?_⟩
    cases ts with
    | nil => cases h
    | cons t ts =>
      obtain ⟨e, -, h⟩ := bind_eq_ok_iff.1 h
      obtain ⟨e', he', -⟩ := bind_eq_ok_iff.1 h
      exact isTrailer_of_addClauses he'

theorem clause?_of_parse (h : parse text = .ok d) : ∀ w ∈ words text.toList, clause? w = none := by
  obtain ⟨c, x, units, clauses, hw, hc, hunits, hclauses⟩ := words_of_parse h
  rw [hw]
  refine List.forall_mem_cons.2
    ⟨clause?_of_not_mem ?_, fun w hw => clause?_of_isTrailer (hclauses w hw)⟩
  intro hm
  rcases List.mem_cons.1 hm with rfl | hm
  · cases hc
  · exact absurd (hunits _ hm) (by decide)

end Duration

namespace Schedule

variable {s s' : Schedule} {text : String} {ws : List String}

theorem exists_readField_of_ofFields {second minute hour dayOfMonth month dayOfWeek : String}
    (h : ofFields second minute hour dayOfMonth month dayOfWeek = .ok s) :
    ∀ w ∈ [second, minute, hour, dayOfMonth, month, dayOfWeek],
      ∃ (k : FieldKind) (f : Field k), readField k w = .ok f := by
  simp only [ofFields, bind_eq_ok_iff] at h
  obtain ⟨f₁, h₁, f₂, h₂, f₃, h₃, f₄, h₄, f₅, h₅, f₆, h₆, -⟩ := h
  simp only [List.forall_mem_cons]
  exact ⟨⟨_, f₁, h₁⟩, ⟨_, f₂, h₂⟩, ⟨_, f₃, h₃⟩, ⟨_, f₄, h₄⟩, ⟨_, f₅, h₅⟩, ⟨_, f₆, h₆⟩, by simp⟩

theorem exists_readField_of_withTrailing (h : s.withTrailing text = .ok s') :
    ∃ (k : FieldKind) (f : Field k), readField k text = .ok f := by
  rw [withTrailing] at h
  split at h
  · next ht =>
    rcases ht with rfl | rfl
    · exact ⟨.dayOfMonth, _, rfl⟩
    · exact ⟨.dayOfMonth, _, rfl⟩
  · split at h
    · obtain ⟨f, hf, -⟩ := map_eq_ok_iff.1 h
      exact ⟨_, f, hf⟩
    · obtain ⟨f, hf, -⟩ := map_eq_ok_iff.1 h
      exact ⟨_, f, hf⟩

theorem exists_readField_or_ofMacro (h : ofWords ws = .ok s) :
    ∀ w ∈ ws, (∃ (k : FieldKind) (f : Field k), readField k w = .ok f) ∨ ofMacro w = .ok s := by
  rw [ofWords.eq_def] at h
  split at h
  · cases h
  · exact fun w hw => .inl (exists_readField_of_ofFields h w (List.mem_cons_of_mem _ hw))
  · exact fun w hw => .inl (exists_readField_of_ofFields h w hw)
  · next se mi hr d mo dw trailing =>
    obtain ⟨s₀, h₀, h⟩ := bind_eq_ok_iff.1 h
    intro w hw
    rcases List.mem_append.1 (show w ∈ [se, mi, hr, d, mo, dw] ++ [trailing] from hw) with hw | hw
    · exact .inl (exists_readField_of_ofFields h₀ w hw)
    · rw [List.mem_singleton.1 hw]
      exact .inl (exists_readField_of_withTrailing h)
  · split at h
    · next word _ =>
      intro w hw
      rw [List.mem_singleton.1 hw]
      exact .inr h
    · cases h
  · cases h

theorem not_mem_colon_of_ofMacro (h : ofMacro text = .ok s) : ':' ∉ text.toList := by
  have hnames (name : String) (h : macroFields? name ≠ none) : ':' ∉ name.toList := by
    rw [macroFields?.eq_def] at h
    split at h <;> first | decide | exact absurd rfl h
  intro hm
  have hlower : ':' ∈ (String.ofList (text.toList.map Char.toLower)).toList := by
    rw [String.toList_ofList]
    exact List.mem_map.2 ⟨':', hm, rfl⟩
  refine hnames _ ?_ hlower
  intro hn
  rw [ofMacro, hn] at h
  cases h

theorem not_mem_colon_of_ofWords (hb : ∀ w ∈ ws, ∀ c ∈ w.toList, isBlank c = false)
    (h : ofWords ws = .ok s) : ∀ w ∈ ws, ':' ∉ w.toList := by
  intro w hw
  rcases exists_readField_or_ofMacro h w hw with ⟨k, f, hf⟩ | hm
  · exact not_mem_colon_of_readField (hb w hw) hf
  · exact not_mem_colon_of_ofMacro hm

theorem exists_readField_of_head (h : ofWords ws = .ok s) : ∃ w ws', ws = w :: ws' ∧
    ((∃ (k : FieldKind) (f : Field k), k.valueNames = [] ∧ readField k w = .ok f) ∨
      ∃ cs, w.toList = '@' :: cs) := by
  rw [ofWords.eq_def] at h
  split at h
  · cases h
  · obtain ⟨_, -, h⟩ := bind_eq_ok_iff.1 h
    obtain ⟨f, hf, -⟩ := bind_eq_ok_iff.1 h
    exact ⟨_, _, rfl, .inl ⟨.minute, f, rfl, hf⟩⟩
  · obtain ⟨f, hf, -⟩ := bind_eq_ok_iff.1 h
    exact ⟨_, _, rfl, .inl ⟨.second, f, rfl, hf⟩⟩
  · obtain ⟨s₀, h₀, -⟩ := bind_eq_ok_iff.1 h
    obtain ⟨f, hf, -⟩ := bind_eq_ok_iff.1 h₀
    exact ⟨_, _, rfl, .inl ⟨.second, f, rfl, hf⟩⟩
  · split at h
    · next word hw => exact ⟨_, _, rfl, .inr (List.head?_eq_some_iff.1 hw)⟩
    · cases h
  · cases h

theorem beginsDuration_of_ofWords (hb : ∀ w ∈ ws, ∀ c ∈ w.toList, isBlank c = false)
    (h : ofWords ws = .ok s) :
    ∃ w ws' c cs, ws = w :: ws' ∧ w.toList = c :: cs ∧ beginsDuration c = false := by
  obtain ⟨w, ws', rfl, ⟨k, f, hk, hf⟩ | ⟨cs, ht⟩⟩ := exists_readField_of_head h
  · obtain ⟨c, cs, ht, hc⟩ := beginsDuration_of_readField hk (hb w List.mem_cons_self) hf
    exact ⟨w, ws', c, cs, rfl, ht, hc⟩
  · exact ⟨w, ws', '@', cs, rfl, ht, rfl⟩

theorem not_mem_colon_of_mem_words {cs : List Char}
    (h : ofWords ((words cs).map String.ofList) = .ok s) : ∀ w ∈ words cs, ':' ∉ w := by
  intro w hw
  have hword := not_mem_colon_of_ofWords isBlank_eq_false_of_mem_map h (String.ofList w)
    (List.mem_map_of_mem hw)
  rwa [String.toList_ofList] at hword

theorem not_mem_colon_of_parseCron (h : parseCron text = .ok s) : ':' ∉ text.toList := by
  intro hm
  obtain ⟨w, hw, hc⟩ := mem_words_of_mem (by decide) hm
  exact not_mem_colon_of_mem_words h w hw hc

theorem clause?_of_parseCron (h : parseCron text = .ok s) :
    ∀ w ∈ words text.toList, clause? w = none :=
  fun w hw => clause?_of_not_mem (not_mem_colon_of_mem_words h w hw)

theorem head_of_ofWords {ws : List (List Char)} (hb : ∀ w ∈ ws, ∀ c ∈ w, isBlank c = false)
    (h : ofWords (ws.map String.ofList) = .ok s) :
    ∃ c cs ws', ws = (c :: cs) :: ws' ∧ beginsDuration c = false := by
  have hplain : ∀ w ∈ ws.map String.ofList, ∀ c ∈ w.toList, isBlank c = false := by
    intro w hw c hc
    obtain ⟨v, hv, rfl⟩ := List.mem_map.1 hw
    exact hb v hv c (by simpa using hc)
  obtain ⟨w, ws', c, cs, hws, hw, hc⟩ := beginsDuration_of_ofWords hplain h
  cases ws with
  | nil => cases hws
  | cons v vs =>
    rw [List.map_cons] at hws
    rw [← (List.cons.inj hws).1, String.toList_ofList] at hw
    exact ⟨c, cs, vs, by rw [hw], hc⟩

theorem words_of_parseCron (h : parseCron text = .ok s) :
    ∃ c cs ws, words text.toList = (c :: cs) :: ws ∧ beginsDuration c = false :=
  head_of_ofWords (fun _ hw _ hc => isBlank_eq_false_of_mem_words hw hc) h

theorem parseCron_congr {text' : String} (h : words text.toList = words text'.toList) :
    parseCron text = parseCron text' := by
  rw [parseCron, h, parseCron]

theorem parseExtended_congr [TimezoneDatabase] {text' : String} (h : words text.toList = words text'.toList) :
    parseExtended text = parseExtended text' := by
  rw [parseExtended, Parts.split, Parts.ofText, h, parseExtended, Parts.split, Parts.ofText]

theorem parseExtended_of_words [TimezoneDatabase] {fields : List (List Char)} (hw : words text.toList = fields)
    (hc : ∀ w ∈ fields, clause? w = none) :
    parseExtended text = ofWords (fields.map String.ofList) := by
  have hsplit : ({} : Parts).addWords false (fields ++ []) =
      Parts.addWords { fields := [] ++ fields.map String.ofList } false [] := Parts.addWords_fields hc
  rw [List.append_nil] at hsplit
  rw [parseExtended, Parts.split, Parts.ofText, hw, hsplit]
  cases h : ofWords (fields.map String.ofList) with
  | error e => simp [Parts.addWords, bind, Except.bind, ofParts, h]
  | ok s => simp [Parts.addWords, bind, Except.bind, ofParts, h, addWeeks, addTimezone, addEndOfDuration]

theorem parseExtended_of_parseCron [TimezoneDatabase] (h : parseCron text = .ok s) : parseExtended text = .ok s := by
  rw [parseExtended_of_words rfl (clause?_of_parseCron h), ← parseCron, h]

theorem cutAt_of_parseCron (h : parseCron text = .ok s) : cutAt "EOD:".toList text.toList = none := by
  cases hcut : cutAt "EOD:".toList text.toList with
  | none => rfl
  | some r =>
    obtain ⟨before, after⟩ := r
    refine absurd ?_ (not_mem_colon_of_parseCron h)
    rw [append_of_cutAt_eq_some hcut]
    simp

theorem parseHybrid_of_parseCron (h : parseCron text = .ok s) : parseHybrid text = .ok s := by
  rw [parseHybrid, cutAt_of_parseCron h, h]

variable {a b : List Char} {d : Duration}

theorem parseHybrid_cases (h : parseHybrid text = .ok s) : parseCron text = .ok s ∨
    ∃ b a s₀ d, text.toList = b ++ "EOD:".toList ++ a ∧ parseCron (String.ofList b) = .ok s₀ ∧
      Duration.parse (String.ofList a) = .ok d ∧ s = s₀.withEndOfDuration d := by
  rw [parseHybrid] at h
  split at h
  · exact .inl h
  · next b a hcut =>
    obtain ⟨s₀, h₀, h⟩ := bind_eq_ok_iff.1 h
    obtain ⟨d, hd, rfl⟩ := map_eq_ok_iff.1 h
    exact .inr ⟨b, a, s₀, d, append_of_cutAt_eq_some hcut, h₀, mapError_eq_ok_iff.1 hd, rfl⟩

theorem parseHybrid_append (hb : parseCron (String.ofList b) = .ok s)
    (hd : Duration.parse (String.ofList a) = .ok d) (ht : text.toList = b ++ "EOD:".toList ++ a) :
    parseHybrid text = .ok (s.withEndOfDuration d) := by
  have hcolon := not_mem_colon_of_parseCron hb
  rw [String.toList_ofList] at hcolon
  have hcut : cutAt "EOD:".toList text.toList = some (b, a) := by
    rw [ht]
    exact cutAt_append_of_last hcolon (show ':' ∉ ['E', 'O', 'D'] by decide)
  rw [parseHybrid, hcut]
  refine bind_eq_ok_iff.2 ⟨s, hb, ?_⟩
  rw [addEndOfDuration, hd]
  rfl

theorem fields_subset_of_addWords {p p' : Parts} {inside : Bool} {ws : List (List Char)}
    (h : p.addWords inside ws = .ok p') : p.fields ⊆ p'.fields := by
  induction ws generalizing p inside with
  | nil =>
    cases h
    exact List.Subset.refl _
  | cons w ws ih =>
    rw [Parts.addWords] at h
    split at h
    · split at h
      · cases h
      · split at h
        · cases h
        · obtain ⟨q, hq, h⟩ := bind_eq_ok_iff.1 h
          rw [← fields_of_set? hq]
          exact ih h
    · split at h
      · have hrest := ih h
        exact hrest
      · exact List.Subset.trans (List.subset_append_left _ _) (ih h)

theorem length_le_of_ofKeyword? {keyword : String} {c : Clause}
    (h : Clause.ofKeyword? keyword = some c) : keyword.toList.length ≤ 3 := by
  rw [Clause.ofKeyword?.eq_def] at h
  split at h <;> first | decide | cases h

theorem length_keyword_of_clause? {before after : List Char} {keyword value : String}
    (hc : ':' ∉ before) (h : clause? (before ++ ':' :: after) = some (keyword, value)) :
    keyword.toList.length = before.length := by
  rw [clause?, cutAt_singleton hc] at h
  simp only at h
  split at h
  · cases h
  · cases h
    rw [String.toList_ofList, List.length_map]

theorem parseExtended_glued [TimezoneDatabase] {us v g : List Char} {ws : List (List Char)} (hv : v ≠ [])
    (hcolon : ':' ∉ v) (hus : ∀ w ∈ words us, ':' ∉ w)
    (ht : words text.toList = words us ++ (v ++ "EOD:".toList ++ g) :: ws) :
    parseExtended text ≠ .ok s := by
  intro h
  obtain ⟨p, hp, h⟩ := bind_eq_ok_iff.1 h
  obtain ⟨s₁, h₁, -⟩ := bind_eq_ok_iff.1 h
  have hplain := isBlank_eq_false_of_mem_fields hp
  rw [Parts.split, Parts.ofText, ht,
    Parts.addWords_fields fun w hw => clause?_of_not_mem (hus w hw), Parts.addWords] at hp
  split at hp
  · next keyword value hclause =>
    split at hp
    · cases hp
    · split at hp
      · cases hp
      · next c hc =>
        -- the keyword is longer than that of any clause
        have hlong := length_keyword_of_clause? (by simpa using hcolon)
          (show clause? ((v ++ "EOD".toList) ++ ':' :: g) = some (keyword, value) by simpa using hclause)
        have hshort := length_le_of_ofKeyword? hc
        have hpos := List.length_pos_iff.2 hv
        rw [hlong, List.length_append] at hshort
        have : "EOD".toList.length = 3 := rfl
        omega
  · rw [Bool.false_and, if_neg Bool.false_ne_true] at hp
    have hmem : String.ofList (v ++ "EOD:".toList ++ g) ∈ p.fields :=
      fields_subset_of_addWords hp (by simp)
    refine not_mem_colon_of_ofWords hplain h₁ _ hmem ?_
    simp

theorem addEndOfDuration_of_parse {bound : String} (h : Duration.parse bound = .ok d) :
    s.addEndOfDuration (some bound) = .ok (s.withEndOfDuration d) := by
  rw [addEndOfDuration, h]
  rfl

theorem isBlank_eq_false_of_mem_keyword {c : Char} (h : c ∈ "EOD:".toList) : isBlank c = false := by
  have hall : "EOD:".toList.all (!isBlank ·) = true := by decide
  simpa using List.all_eq_true.1 hall c h

theorem parseExtended_apart [TimezoneDatabase] {us : List Char} (hb : ofWords ((words us).map String.ofList) = .ok s)
    (hus : ∀ w ∈ words us, ':' ∉ w) (hd : Duration.parse (String.ofList a) = .ok d)
    (ht : words text.toList = words us ++ words ("EOD:".toList ++ a))
    (h : parseExtended text = .ok s') : s' = s.withEndOfDuration d := by
  obtain ⟨p, hp, h⟩ := bind_eq_ok_iff.1 h
  rw [Parts.split, Parts.ofText, ht, Parts.addWords_fields fun w hw => clause?_of_not_mem (hus w hw),
    words_append_of_forall (by simp) fun c hc => isBlank_eq_false_of_mem_keyword hc] at hp
  by_cases hg : a.takeWhile (!isBlank ·) = []
  · have hempty : clause? "EOD:".toList = some ("EOD", "") := by decide
    rw [hg, List.append_nil, Parts.addWords, hempty] at hp
    cases hp
  · obtain ⟨c, x, units, clauses, hwords, -, -, hclauses⟩ := Duration.words_of_parse hd
    rw [String.toList_ofList] at hwords
    have hfirst := words_of_takeWhile hg
    obtain ⟨hunits, hrest⟩ := List.cons.inj (hfirst.symm.trans hwords)
    have hclause : clause? ("EOD:".toList ++ a.takeWhile (!isBlank ·)) =
        some ("EOD", String.ofList (a.takeWhile (!isBlank ·))) :=
      clause?_append (show ['E', 'O', 'D'] ≠ [] by simp) (by decide)
    rw [Parts.addWords_clause hclause (isEmpty_ofList hg) rfl rfl, hunits, hrest] at hp
    cases hp.symm.trans
      (Parts.addWords_trailers (p := { fields := (words us).map String.ofList }) hclauses)
    have hbound : Duration.parse (String.ofList (c :: x :: units) ++
        String.ofList (clauses.flatMap (' ' :: ·))) = .ok d := by
      refine Duration.parse_congr ?_ hd
      rw [String.toList_ofList, ← String.ofList_append, String.toList_ofList, ← intercalate_cons_eq,
        words_intercalate, hwords]
      exact fun w hw => isWord_of_mem_words (hwords ▸ hw)
    rw [ofParts] at h
    simp only [hb, bind, Except.bind, addWeeks, addTimezone] at h
    rw [addEndOfDuration_of_parse hbound] at h
    cases h
    rfl

theorem parseExtended_append [TimezoneDatabase] (hb : parseCron (String.ofList b) = .ok s)
    (hd : Duration.parse (String.ofList a) = .ok d) (ht : text.toList = b ++ "EOD:".toList ++ a)
    (h : parseExtended text = .ok s') : s' = s.withEndOfDuration d := by
  obtain ⟨us, v, rfl, hv, hcut⟩ := exists_append_word b
  have hcolon : ∀ w ∈ words (us ++ v), ':' ∉ w := by
    rw [parseCron, String.toList_ofList] at hb
    exact not_mem_colon_of_mem_words hb
  rw [hcut v] at hcolon
  have hus : ∀ w ∈ words us, ':' ∉ w := fun w hw => hcolon w (List.mem_append_left _ hw)
  rw [List.append_assoc, List.append_assoc] at ht
  by_cases hne : v = []
  · subst hne
    rw [parseCron, String.toList_ofList, List.append_nil] at hb
    exact parseExtended_apart hb hus hd (by rw [ht, hcut, List.nil_append]) h
  · rw [words_of_forall hne hv] at hcolon
    have hglued : ∀ c ∈ v ++ "EOD:".toList, isBlank c = false := by
      intro c hc
      rcases List.mem_append.1 hc with hc | hc
      · exact hv c hc
      · exact isBlank_eq_false_of_mem_keyword hc
    have hwords : words text.toList = words us ++
        (v ++ "EOD:".toList ++ a.takeWhile (!isBlank ·)) :: words (a.dropWhile (!isBlank ·)) := by
      rw [ht, hcut, ← List.append_assoc, words_append_of_forall (by simp [hne]) hglued]
    exact absurd h (parseExtended_glued hne (hcolon v (by simp)) hus hwords)

theorem eq_of_parseExtended_of_parseHybrid [TimezoneDatabase] (hx : parseExtended text = .ok s')
    (hh : parseHybrid text = .ok s) : s' = s := by
  rcases parseHybrid_cases hh with hc | ⟨b, a, s₀, d, ht, hb, hd, rfl⟩
  · rw [parseExtended_of_parseCron hc] at hx
    cases hx
    rfl
  · exact parseExtended_append hb hd ht hx

theorem parseHybrid_of_trim (h : parseHybrid (String.ofList (trim text.toList)) = .ok s) :
    parseHybrid text = .ok s := by
  rcases parseHybrid_cases h with hc | ⟨b, a, s₀, d, ht, hb, hd, rfl⟩
  · exact parseHybrid_of_parseCron (by rw [← hc]; exact parseCron_congr (by simp))
  · obtain ⟨cs, ds, htext, hcs, hds⟩ := eq_append_trim_append text.toList
    rw [String.toList_ofList] at ht
    rw [ht] at htext
    refine parseHybrid_append (b := cs ++ b) (a := a ++ ds) ?_ ?_ (by rw [htext]; simp)
    · rw [← hb]
      exact parseCron_congr (by simp [words_blank_append hcs])
    · exact Duration.parse_congr (by simp [words_append_of_blank hds]) hd

theorem not_parseCron_of_parse (h : Duration.parse text = .ok d) : parseCron text ≠ .ok s := by
  intro hc
  obtain ⟨c, cs, ws, hw, hfirst⟩ := words_of_parseCron hc
  obtain ⟨c', x, units, clauses, hw', hfirst', -, -⟩ := Duration.words_of_parse h
  rw [hw] at hw'
  cases hw'
  rw [hfirst] at hfirst'
  cases hfirst'

theorem not_parseExtended_of_parse [TimezoneDatabase] (h : Duration.parse text = .ok d) :
    parseExtended text ≠ .ok s := by
  rw [parseExtended_of_words rfl (Duration.clause?_of_parse h)]
  exact not_parseCron_of_parse h

theorem not_parseHybrid_of_parse (h : Duration.parse text = .ok d) : parseHybrid text ≠ .ok s := by
  intro hh
  rcases parseHybrid_cases hh with hc | ⟨b, a, s₀, e, ht, hb, he, rfl⟩
  · exact not_parseCron_of_parse h hc
  · obtain ⟨c, cs, ws, hw, hfirst⟩ := words_of_parseCron hb
    obtain ⟨c', x, units, clauses, hw', hfirst', -, -⟩ := Duration.words_of_parse h
    rw [String.toList_ofList] at hw
    obtain ⟨cs', ws', happend⟩ := words_append_of_words hw ("EOD:".toList ++ a)
    rw [← List.append_assoc, ← ht, hw'] at happend
    cases happend
    rw [hfirst] at hfirst'
    cases hfirst'

end Schedule

namespace Expression

variable {text : String} {s s' : Schedule} {d : Duration} {x : Expression}

theorem readSchedule_cases [TimezoneDatabase] (h : readSchedule text = .ok s) :
    Schedule.parseCron text = .ok s ∨ Schedule.parseExtended text = .ok s ∨
      Schedule.parseHybrid text = .ok s := by
  rw [readSchedule] at h
  split at h
  · exact .inr (.inl h)
  · split at h
    · exact .inr (.inr h)
    · exact .inl h

theorem parse_cases [TimezoneDatabase] (h : parse text = .ok x) :
    (∃ d, x = duration d ∧ Duration.parse text = .ok d) ∨ ∃ s, x = ofSchedule s ∧
      (Schedule.parseExtended text = .ok s ∨ Schedule.parseHybrid text = .ok s) := by
  have hwords : words (String.ofList (trim text.toList)).toList = words text.toList := by simp
  have hduration (h : ((Duration.parse (String.ofList (trim text.toList))).mapError
      Error.duration).map duration = .ok x) : ∃ d, x = duration d ∧ Duration.parse text = .ok d := by
    obtain ⟨d, hd, rfl⟩ := map_eq_ok_iff.1 h
    exact ⟨d, rfl, Duration.parse_congr hwords (mapError_eq_ok_iff.1 hd)⟩
  rw [parse] at h
  split at h
  · cases h
  · split at h
    · exact .inl (hduration h)
    · cases h
  · split at h
    · exact .inl (hduration h)
    · cases h
  · obtain ⟨s, hs, rfl⟩ := map_eq_ok_iff.1 h
    refine .inr ⟨s, rfl, ?_⟩
    rcases readSchedule_cases hs with hc | hx | hh
    · exact .inl (Schedule.parseExtended_congr hwords ▸ Schedule.parseExtended_of_parseCron hc)
    · exact .inl (Schedule.parseExtended_congr hwords ▸ hx)
    · exact .inr (Schedule.parseHybrid_of_trim hh)

theorem extended_or_hybrid_of_reads [TimezoneDatabase] (h : Reads text s) :
    Schedule.parseExtended text = .ok s ∨ Schedule.parseHybrid text = .ok s := by
  rcases h with hc | hx | hh | ⟨x, hp, hs⟩
  · exact .inl (Schedule.parseExtended_of_parseCron hc)
  · exact .inl hx
  · exact .inr hh
  · rcases parse_cases hp with ⟨d, rfl, -⟩ | ⟨s₀, rfl, h⟩
    · cases hs
    · rw [schedule?_ofSchedule] at hs
      cases hs
      exact h

theorem eq_of_reads [TimezoneDatabase] (h : Reads text s) (h' : Reads text s') : s = s' := by
  rcases extended_or_hybrid_of_reads h with hx | hh <;>
    rcases extended_or_hybrid_of_reads h' with hx' | hh'
  · exact Except.ok.inj (hx.symm.trans hx')
  · exact Schedule.eq_of_parseExtended_of_parseHybrid hx hh'
  · exact (Schedule.eq_of_parseExtended_of_parseHybrid hx' hh).symm
  · exact Except.ok.inj (hh.symm.trans hh')

theorem parse_of_parseCron [TimezoneDatabase] (h : Schedule.parseCron text = .ok s) :
    parse text = .ok (ofSchedule s) := by
  obtain ⟨c, cs, ws, hw, hc⟩ := Schedule.words_of_parseCron h
  obtain ⟨rest, ht⟩ := trim_of_words hw
  have hcron : Schedule.parseCron (String.ofList (trim text.toList)) = .ok s := by
    rw [← h]
    exact Schedule.parseCron_congr (by simp)
  have hclause : (words (String.ofList (trim text.toList)).toList).any isOtherClause = false := by
    rw [List.any_eq_false]
    intro w hw
    simp [isOtherClause, Schedule.clause?_of_parseCron hcron w hw]
  rw [parse_of_not_beginsDuration ht hc, readSchedule, hclause, Schedule.cutAt_of_parseCron hcron]
  simp [hcron, Except.map]

theorem parse_of_beginsDuration [TimezoneDatabase] {c y : Char} {cs : List Char} (ht : trim text.toList = c :: y :: cs)
    (hc : beginsDuration c = true) (hy : beginsAmounts y = true) :
    parse text = ((Duration.parse (String.ofList (trim text.toList))).mapError
      Error.duration).map duration := by
  rw [beginsDuration, Bool.or_eq_true, beq_iff_eq, beq_iff_eq] at hc
  rw [parse, ht]
  rcases hc with rfl | rfl <;> simp only [List.head?_cons, Option.any_some, hy, if_true]

theorem parse_eq_duration_iff [TimezoneDatabase] : parse text = .ok (duration d) ↔ Duration.parse text = .ok d := by
  constructor
  · intro h
    rcases parse_cases h with ⟨e, he, hd⟩ | ⟨s, hs, -⟩
    · cases he
      exact hd
    · rw [ofSchedule] at hs
      split at hs <;> cases hs
  · intro h
    obtain ⟨c, x, units, clauses, hw, hc, hunits, -⟩ := Duration.words_of_parse h
    obtain ⟨rest, ht⟩ := trim_of_words hw
    have hd : Duration.parse (String.ofList (trim text.toList)) = .ok d :=
      Duration.parse_congr (by simp) h
    rw [parse_of_beginsDuration ht hc (hunits x List.mem_cons_self), hd]
    rfl

structure Agree [TimezoneDatabase] (text : String) : Prop where
  unique : ∀ s s', Reads text s → Reads text s' → s = s'
  plain : ∀ s, Schedule.parseCron text = .ok s → Schedule.parseExtended text = .ok s ∧
    Schedule.parseHybrid text = .ok s ∧ ∃ x, parse text = .ok x ∧ x.schedule? = some s
  duration : ∀ d, parse text = .ok (.duration d) ↔ Duration.parse text = .ok d
  apart : ∀ d, Duration.parse text = .ok d → ∀ s, Schedule.parseCron text ≠ .ok s ∧
    Schedule.parseExtended text ≠ .ok s ∧ Schedule.parseHybrid text ≠ .ok s

theorem readers_agree [TimezoneDatabase] (text : String) : Agree text := by
  constructor
  · exact fun s s' h h' => eq_of_reads h h'
  · intro s h
    exact ⟨Schedule.parseExtended_of_parseCron h, Schedule.parseHybrid_of_parseCron h, _,
      parse_of_parseCron h, schedule?_ofSchedule s⟩
  · exact fun d => parse_eq_duration_iff
  · intro d h s
    exact ⟨Schedule.not_parseCron_of_parse h, Schedule.not_parseExtended_of_parse h,
      Schedule.not_parseHybrid_of_parse h⟩

end Expression

end Timetable
