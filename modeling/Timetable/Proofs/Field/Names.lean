import Mathlib.Data.List.Induction
import Timetable.Proofs.Field.Respelling

namespace Timetable

open Text

def IsName (k : FieldKind) (name : List Char) (v : Nat) : Prop :=
  ∃ i, k.valueNames[i]? = some (String.ofList (name.map Char.toUpper)) ∧ v = k.min + i

def Writes (k : FieldKind) (w : List Char) (v : Nat) : Prop := IsNumeral w v ∨ IsName k w v

/-- Nothing beside a place belongs to the value that is written there. The letter behind `5L` is not part of
the value. -/
structure StandsWhole (us vs : List Char) : Prop where
  before : ∀ c ∈ us.getLast?, c.isAlpha = false ∧ isNumeralChar c = false
  after : ∀ c ∈ vs.head?, (c.isAlpha = true → c = 'L') ∧ isNumeralChar c = false

def TouchesLetter (us vs : List Char) : Prop :=
  (∃ c ∈ us.getLast?, c.isAlpha = true) ∨ ∃ c ∈ vs.head?, c.isAlpha = true

variable {k : FieldKind} {c : Char} {name word w us vs cs : List Char} {v : Nat}

theorem IsName.mem (h : IsName k name v) : String.ofList (name.map Char.toUpper) ∈ k.valueNames := by
  obtain ⟨i, hi, -⟩ := h
  exact List.mem_of_getElem? hi

theorem length_of_mem_valueNames (h : String.ofList word ∈ k.valueNames) : word.length = 3 := by
  have hall : k.valueNames.all (fun name => name.toList.length == 3) = true := by
    cases k <;> decide +kernel
  simpa using List.all_eq_true.1 hall _ h

theorem isAlpha_of_mem_valueNames (h : String.ofList word ∈ k.valueNames) :
    ∀ c ∈ word, c.isAlpha = true := by
  have hall : k.valueNames.all (fun name => name.toList.all Char.isAlpha) = true := by
    cases k <;> decide +kernel
  simpa using List.all_eq_true.1 hall _ h

theorem IsName.length_eq (h : IsName k name v) : name.length = 3 := by
  simpa using length_of_mem_valueNames h.mem

theorem IsName.isAlpha (h : IsName k name v) : ∀ c ∈ name, c.isAlpha = true := by
  intro c hc
  exact isAlpha_of_isAlpha_toUpper (isAlpha_of_mem_valueNames h.mem _ (List.mem_map_of_mem hc))

theorem IsName.isWord (h : IsName k name v) : IsWord name := by
  refine ⟨?_, fun c hc => isBlank_eq_false_of_isAlpha (h.isAlpha c hc)⟩
  rintro rfl
  cases h.length_eq

theorem IsName.valueOfName_eq (h : IsName k name v) : valueOfName k name = decimal v := by
  obtain ⟨i, hi, rfl⟩ := h
  have hnodup : k.valueNames.Nodup := by cases k <;> decide +kernel
  have hidx : k.valueNames.idxOf? (String.ofList (name.map Char.toUpper)) = some i := by
    obtain ⟨hlt, hget⟩ := List.getElem?_eq_some_iff.1 hi
    refine List.idxOf?_eq_some_iff.2 ⟨hlt, hget, fun j hj hname => ?_⟩
    have hsame : k.valueNames[i]? = k.valueNames[j]? := by
      rw [List.getElem?_eq_getElem hlt, List.getElem?_eq_getElem (by omega), hget, hname]
    have := (List.getElem?_inj hlt hnodup).1 hsame
    omega
  rw [valueOfName, hidx]

theorem valueOfName_of_length_ne (h : word.length ≠ 3) : valueOfName k word = word := by
  have hnone : k.valueNames.idxOf? (String.ofList (word.map Char.toUpper)) = none := by
    rw [List.idxOf?_eq_none_iff]
    intro hm
    exact h (by simpa using length_of_mem_valueNames hm)
  rw [valueOfName, hnone]

theorem valueOfName_nil : valueOfName k [] = [] := valueOfName_of_length_ne (by decide)

theorem replaceWords_eq (k : FieldKind) (word cs : List Char) : replaceWords k word cs =
    valueOfName k (word ++ cs.takeWhile Char.isAlpha) ++ replaceWords k [] (cs.dropWhile Char.isAlpha) := by
  induction cs generalizing word with
  | nil => simp [replaceWords, valueOfName_nil]
  | cons c cs ih =>
    by_cases hc : c.isAlpha = true
    · rw [replaceWords, if_pos hc, ih, List.takeWhile_cons_of_pos hc, List.dropWhile_cons_of_pos hc]
      simp
    · rw [replaceWords, if_neg hc, List.takeWhile_cons_of_neg hc, List.dropWhile_cons_of_neg hc, replaceWords,
        if_neg hc, valueOfName_nil]
      simp

theorem replaceWords_append_cons (hc : c.isAlpha = false) (word us vs : List Char) :
    replaceWords k word (us ++ c :: vs) = replaceWords k word us ++ c :: replaceWords k [] vs := by
  induction us generalizing word with
  | nil => simp [replaceWords, hc]
  | cons x us ih =>
    rw [List.cons_append, replaceWords, replaceWords]
    split
    · rw [ih]
    · rw [ih, List.append_assoc, List.cons_append]

theorem replaceWords_append_of_last (h : ∀ c ∈ us.getLast?, c.isAlpha = false) (vs : List Char) :
    replaceWords k [] (us ++ vs) = replaceWords k [] us ++ replaceWords k [] vs := by
  rcases List.eq_nil_or_concat us with rfl | ⟨us, c, rfl⟩
  · simp [replaceWords, valueOfName_nil]
  · rw [List.concat_eq_append] at h ⊢
    have hc : c.isAlpha = false := h c (by simp)
    rw [List.append_assoc, List.singleton_append, replaceWords_append_cons hc, replaceWords_append_cons hc]
    simp [replaceWords, valueOfName_nil]

theorem replaceWords_append_of_head (h : ∀ c ∈ vs.head?, c.isAlpha = false) (us : List Char) :
    replaceWords k [] (us ++ vs) = replaceWords k [] us ++ replaceWords k [] vs := by
  cases vs with
  | nil => simp [replaceWords, valueOfName_nil]
  | cons c vs =>
    have hc : c.isAlpha = false := h c rfl
    have hhead := replaceWords_append_cons (k := k) hc [] [] vs
    rw [replaceWords_append_cons hc, ← List.nil_append (c :: vs), hhead]
    simp [replaceWords, valueOfName_nil]

theorem isAlpha_eq_false_of_numeral (h : IsNumeral w v) : ∀ c ∈ w, c.isAlpha = false := by
  intro c hc
  rw [← Bool.not_eq_true]
  intro ha
  have hl := eq_of_isFieldChar_of_isAlpha
    (forall_isFieldChar_of_readWord? (readWord?_eq_some_iff.2 h) c hc) ha
  exact not_mem_numeral (c := 'L') (by decide) (readWord?_eq_some_iff.2 h) (hl ▸ hc)

theorem replaceWords_around_numeral (h : IsNumeral w v) (us vs : List Char) :
    replaceWords k [] (us ++ w ++ vs) = replaceWords k [] us ++ w ++ replaceWords k [] vs := by
  have ha := isAlpha_eq_false_of_numeral h
  have hself : replaceWords k [] w = w :=
    replaceWords_of_forall_isAlpha (by simp) fun c hc hc' => by simp [ha c hc] at hc'
  have hlast : ∀ c ∈ (us ++ w).getLast?, c.isAlpha = false := by
    rcases List.eq_nil_or_concat w with rfl | ⟨w, d, rfl⟩
    · cases (readWord?_eq_some_iff.2 h)
    · rw [List.concat_eq_append] at ha ⊢
      simpa using ha d (by simp)
  have hhead : ∀ c ∈ w.head?, c.isAlpha = false := fun c hc => ha c (List.mem_of_head? hc)
  rw [replaceWords_append_of_last hlast, replaceWords_append_of_head hhead, hself]

theorem exists_word_around (us : List Char) : ∃ us' word, us = us' ++ word ∧
    (∀ c ∈ word, c.isAlpha = true) ∧ ∀ c ∈ us'.getLast?, c.isAlpha = false := by
  induction us using List.reverseRecOn with
  | nil => exact ⟨[], [], by simp⟩
  | append_singleton us c ih =>
    by_cases hc : c.isAlpha = true
    · obtain ⟨us', word, rfl, hword, hlast⟩ := ih
      refine ⟨us', word ++ [c], by simp, ?_, hlast⟩
      simpa [or_imp, forall_and, hc] using hword
    · exact ⟨us ++ [c], [], by simp, by simp, by simpa using hc⟩

theorem length_word_around (ht : TouchesLetter us vs) (hus : us = cs ++ word)
    (hlast : ∀ c ∈ cs.getLast?, c.isAlpha = false) :
    0 < word.length + (vs.takeWhile Char.isAlpha).length := by
  rcases ht with ⟨c, hc, ha⟩ | ⟨c, hc, ha⟩
  · cases word with
    | nil =>
      rw [hus, List.append_nil] at hc
      simp [hlast c hc] at ha
    | cons x word =>
      rw [List.length_cons]
      omega
  · obtain ⟨vs', rfl⟩ := List.head?_eq_some_iff.1 (Option.mem_def.1 hc)
    rw [List.takeWhile_cons_of_pos ha, List.length_cons]
    omega

theorem exists_replaceWords_of_touchesLetter (hn : IsName k name v) (ht : TouchesLetter us vs) :
    ∃ xs ys, replaceWords k [] (us ++ name ++ vs) = xs ++ name ++ ys := by
  obtain ⟨cs, word, rfl, hword, hlast⟩ := exists_word_around us
  have hletters : ∀ c ∈ word ++ name, c.isAlpha = true := by
    intro c hc
    exact (List.mem_append.1 hc).elim (hword c) (hn.isAlpha c)
  have hrest := replaceWords_eq k [] (word ++ name ++ vs)
  rw [List.takeWhile_append_of_pos hletters, List.dropWhile_append_of_pos hletters, List.nil_append,
    valueOfName_of_length_ne] at hrest
  · refine ⟨replaceWords k [] cs ++ word,
      vs.takeWhile Char.isAlpha ++ replaceWords k [] (vs.dropWhile Char.isAlpha), ?_⟩
    have hsplit := replaceWords_append_of_last (k := k) hlast (word ++ name ++ vs)
    rw [hrest] at hsplit
    simpa using hsplit
  · have := length_word_around ht rfl hlast
    simp only [List.length_append, hn.length_eq]
    omega

theorem getLast?_replaceWords (h : ∀ c ∈ us.getLast?, c.isAlpha = false) :
    (replaceWords k [] us).getLast? = us.getLast? := by
  rcases List.eq_nil_or_concat us with rfl | ⟨us, c, rfl⟩
  · simp [replaceWords, valueOfName_nil]
  · rw [List.concat_eq_append] at h ⊢
    rw [replaceWords_append_of_head (by simpa using h)]
    simp [replaceWords, valueOfName_nil, h c (by simp)]

theorem head?_replaceWords (h : ∀ c ∈ vs.head?, c.isAlpha = false) :
    (replaceWords k [] vs).head? = vs.head? := by
  cases vs with
  | nil => simp [replaceWords, valueOfName_nil]
  | cons c vs => simp [replaceWords, valueOfName_nil, h c rfl]

theorem forall_getLast?_dropWhile {P : Char → Prop} (h : ∀ c ∈ us.getLast?, P c) :
    ∀ c ∈ (us.dropWhile isBlank).getLast?, P c := by
  rw [← List.takeWhile_append_dropWhile (p := isBlank) (l := us)] at h
  exact forall_getLast?_right h

theorem forall_head?_trimEnd {P : Char → Prop} (h : ∀ c ∈ vs.head?, P c) :
    ∀ c ∈ (trimEnd vs).head?, P c := by
  obtain ⟨bs, hvs, -⟩ := eq_trimEnd_append vs
  rw [hvs] at h
  exact forall_head?_left h

theorem TouchesLetter.trim (h : TouchesLetter us vs) :
    TouchesLetter (us.dropWhile isBlank) (trimEnd vs) := by
  rcases h with ⟨c, hc, ha⟩ | ⟨c, hc, ha⟩
  · left
    refine ⟨c, ?_, ha⟩
    have hblank := isBlank_eq_false_of_isAlpha ha
    have hsplit := List.takeWhile_append_dropWhile (p := isBlank) (l := us)
    rw [← hsplit, Option.mem_def, List.getLast?_append] at hc
    cases hd : (us.dropWhile isBlank).getLast? with
    | some d => simpa [hd] using hc
    | none =>
      rw [hd, Option.none_or] at hc
      have := List.all_eq_true.1 List.all_takeWhile c (List.mem_of_getLast? hc)
      simp [hblank] at this
  · right
    refine ⟨c, ?_, ha⟩
    have hblank := isBlank_eq_false_of_isAlpha ha
    obtain ⟨bs, hvs, hbs⟩ := eq_trimEnd_append vs
    rw [hvs, Option.mem_def, List.head?_append] at hc
    cases hd : (trimEnd vs).head? with
    | some d => simpa [hd] using hc
    | none =>
      rw [hd, Option.none_or] at hc
      exact absurd (hbs c (List.mem_of_head? hc)) (by simp [hblank])

theorem apart_of_not_touchesLetter (h : ¬ TouchesLetter us vs) :
    (∀ c ∈ us.getLast?, c.isAlpha = false) ∧ ∀ c ∈ vs.head?, c.isAlpha = false := by
  rw [TouchesLetter, not_or] at h
  simpa using h

theorem IsName.isNumeral_decimal (hn : IsName k name v) : IsNumeral (decimal v) v := by
  obtain ⟨i, hi, rfl⟩ := hn
  obtain ⟨hlt, -⟩ := List.getElem?_eq_some_iff.1 hi
  have hbound : k.min + k.valueNames.length ≤ maxWord := by cases k <;> decide
  exact readWord?_eq_some_iff.1 (readNat?_decimal (by omega))

theorem IsNumeral.isWord (h : IsNumeral w v) : IsWord w := by
  have hw := readWord?_eq_some_iff.2 h
  refine ⟨?_, fun c hc => isBlank_eq_false_of_isFieldChar (forall_isFieldChar_of_readWord? hw c hc)⟩
  rintro rfl
  cases hw

theorem normalise_around_numeral (h : IsNumeral w v) (us vs : List Char) : normalise k (us ++ w ++ vs) =
    replaceWords k [] (us.dropWhile isBlank) ++ w ++ replaceWords k [] (trimEnd vs) := by
  rw [normalise, trim_around h.isWord, replaceWords_around_numeral h]

theorem normalise_around_name (hn : IsName k name v) (ht : ¬ TouchesLetter us vs) :
    normalise k (us ++ name ++ vs) = normalise k (us ++ decimal v ++ vs) := by
  obtain ⟨hbefore, hafter⟩ := apart_of_not_touchesLetter ht
  have hname : replaceWords k [] name = decimal v := by
    have hword := replaceWords_eq k [] (name ++ [])
    rw [List.takeWhile_append_of_pos hn.isAlpha, List.dropWhile_append_of_pos hn.isAlpha] at hword
    simpa [replaceWords, valueOfName_nil, hn.valueOfName_eq] using hword
  rw [normalise_around_numeral hn.isNumeral_decimal, normalise, trim_around hn.isWord, List.append_assoc,
    replaceWords_append_of_last (forall_getLast?_dropWhile hbefore),
    replaceWords_append_of_head (forall_head?_trimEnd hafter), hname, List.append_assoc]

theorem respelled_normalise (hw : IsNumeral w v) (hw' : IsNumeral cs v) (ht : ¬ TouchesLetter us vs)
    (h : StandsWhole us vs) : Respelled (normalise k (us ++ w ++ vs)) (normalise k (us ++ cs ++ vs)) := by
  obtain ⟨hbefore, hafter⟩ := apart_of_not_touchesLetter ht
  rw [normalise_around_numeral hw, normalise_around_numeral hw']
  refine .intro ?_ ?_ (readWord?_eq_some_iff.2 hw) (readWord?_eq_some_iff.2 hw')
  · rw [getLast?_replaceWords (forall_getLast?_dropWhile hbefore)]
    exact forall_getLast?_dropWhile fun c hc => (h.before c hc).2
  · rw [head?_replaceWords (forall_head?_trimEnd hafter)]
    exact forall_head?_trimEnd fun c hc => (h.after c hc).2

theorem IsName.exists_ne (hn : IsName k name v) : ∃ c ∈ name, c ≠ 'L' := by
  by_contra hall
  have hkept : valueOfName k name = name := valueOfName_of_forall (by simpa using hall)
  rw [hn.valueOfName_eq] at hkept
  obtain ⟨c, hc⟩ := List.exists_mem_of_ne_nil _ (decimal_ne_nil v)
  have ha := hn.isAlpha c (hkept ▸ hc)
  have hd := isAlpha_eq_false_of_numeral hn.isNumeral_decimal c hc
  simp [ha] at hd

namespace Field

theorem exists_parse_terms_iff {text : String} {ts : List Term} :
    (∃ f, Field.parse k text = .ok f ∧ f.terms = ts) ↔ readTerms k (normalise k text.toList) = .ok ts := by
  constructor
  · rintro ⟨f, h, rfl⟩
    exact toList_text_of_parse h ▸ f.terms_eq
  · intro h
    obtain ⟨f, hf⟩ := exists_parse_iff.2 ⟨ts, h⟩
    have hts := f.terms_eq
    rw [toList_text_of_parse hf, h] at hts
    exact ⟨f, hf, (Except.ok.inj hts).symm⟩

theorem parse_congr {text text' : String} (h : normalise k text.toList = normalise k text'.toList) :
    Field.parse k text = Field.parse k text' := by
  rw [Field.parse, Field.parse, ofText, ofText, h]

theorem refused_of_touchesLetter (hn : IsName k name v) (ht : TouchesLetter us vs) (f : Field k) :
    Field.parse k (String.ofList (us ++ name ++ vs)) ≠ .ok f := by
  intro h
  have htext := toList_text_of_parse h
  rw [String.toList_ofList, normalise, trim_around hn.isWord] at htext
  obtain ⟨xs, ys, hkept⟩ := exists_replaceWords_of_touchesLetter hn ht.trim
  obtain ⟨c, hc, hne⟩ := hn.exists_ne
  have hmem : c ∈ f.text.toList := by
    rw [htext, hkept]
    simp [hc]
  exact hne (eq_of_isFieldChar_of_isAlpha (f.forall_isFieldChar c hmem) (hn.isAlpha c hc))

theorem parse_name (hn : IsName k name v) (ht : ¬ TouchesLetter us vs) :
    Field.parse k (String.ofList (us ++ name ++ vs)) =
      Field.parse k (String.ofList (us ++ decimal v ++ vs)) := by
  apply parse_congr
  rw [String.toList_ofList, String.toList_ofList, normalise_around_name hn ht]

theorem exists_parse_decimal (hn : IsName k name v) (ht : ¬ TouchesLetter us vs) (h : StandsWhole us vs)
    (hw : Writes k w v) {f : Field k} (hf : Field.parse k (String.ofList (us ++ w ++ vs)) = .ok f) :
    ∃ g, Field.parse k (String.ofList (us ++ decimal v ++ vs)) = .ok g ∧ g.terms = f.terms := by
  rcases hw with hw | hw
  · have hread := exists_parse_terms_iff.1 ⟨f, hf, rfl⟩
    rw [String.toList_ofList] at hread
    have hrespelled := respelled_normalise (k := k) hw hn.isNumeral_decimal ht h
    refine exists_parse_terms_iff.2 ?_
    rw [String.toList_ofList]
    exact readTerms_respelled hrespelled hread
  · exact ⟨f, parse_name hw ht ▸ hf, rfl⟩

/-- In the place of a whole value its name gives a text with the same terms, unless the letter `L` is behind
it. Anywhere a name is read as the digits of its number, together with those beside it, and beside a letter it
is refused. -/
theorem parse_name_iff (hn : IsName k name v) (us vs : List Char) :
    (∀ w f, StandsWhole us vs → Writes k w v → Field.parse k (String.ofList (us ++ w ++ vs)) = .ok f →
      ((∃ g, Field.parse k (String.ofList (us ++ name ++ vs)) = .ok g ∧ g.terms = f.terms) ↔
        vs.head? ≠ some 'L')) ∧
    ((∀ f, Field.parse k (String.ofList (us ++ name ++ vs)) ≠ .ok f) ↔
      TouchesLetter us vs ∨ ∀ f, Field.parse k (String.ofList (us ++ decimal v ++ vs)) ≠ .ok f) := by
  constructor
  · intro w f h hw hf
    constructor
    · rintro ⟨g, hg, -⟩ hl
      exact refused_of_touchesLetter hn (.inr ⟨'L', hl, by decide⟩) g hg
    · intro hl
      have ht : ¬ TouchesLetter us vs := by
        rintro (⟨c, hc, ha⟩ | ⟨c, hc, ha⟩)
        · simp [(h.before c hc).1] at ha
        · exact hl ((h.after c hc).1 ha ▸ hc)
      rw [parse_name hn ht]
      exact exists_parse_decimal hn ht h hw hf
  · by_cases ht : TouchesLetter us vs
    · exact iff_of_true (refused_of_touchesLetter hn ht) (.inl ht)
    · rw [parse_name hn ht]
      simp only [ht, false_or]

theorem parse_name_secondFriday : IsName .dayOfWeek ['F', 'r', 'i'] 5 ∧ StandsWhole ['1', ','] ['#', '2'] ∧
    Writes .dayOfWeek ['+', '0', '5'] 5 ∧ ∃ f g, Field.parse .dayOfWeek "1,+05#2" = .ok f ∧
      Field.parse .dayOfWeek "1,Fri#2" = .ok g ∧ g.terms = f.terms := by
  have hname : IsName .dayOfWeek ['F', 'r', 'i'] 5 := ⟨5, by decide +kernel, rfl⟩
  have hplace : StandsWhole ['1', ','] ['#', '2'] := by
    constructor <;> intro c hc <;> cases hc <;> decide
  have hwrites : Writes .dayOfWeek ['+', '0', '5'] 5 := .inl (readWord?_eq_some_iff.1 (by decide))
  obtain ⟨f, hf⟩ : ∃ f, Field.parse .dayOfWeek "1,+05#2" = .ok f := ⟨_, rfl⟩
  obtain ⟨g, hg, hterms⟩ :=
    ((parse_name_iff hname ['1', ','] ['#', '2']).1 _ f hplace hwrites hf).2 (by decide)
  exact ⟨hname, hplace, hwrites, f, g, hf, hg, hterms⟩

theorem not_parse_name_lastFriday : IsName .dayOfWeek ['F', 'R', 'I'] 5 ∧
    (∃ f, Field.parse .dayOfWeek "5L" = .ok f) ∧ (∀ g, Field.parse .dayOfWeek "FRIL" ≠ .ok g) ∧
    IsName .month ['J', 'A', 'N'] 1 ∧ ∃ f, Field.parse .month "1JAN" = .ok f ∧ f.terms = [.progression 11 11 1] := by
  refine ⟨⟨5, by decide +kernel, rfl⟩, ⟨_, rfl⟩, fun g h => ?_, ⟨0, by decide +kernel, rfl⟩, _, rfl, rfl⟩
  cases h

end Field

end Timetable
