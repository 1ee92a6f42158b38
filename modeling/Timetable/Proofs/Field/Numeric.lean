import Timetable.Proofs.Field.Denotation

namespace Timetable

open Text

/-- A numeral of 32 bits: digits, leading zeros included, after at most one plus sign. -/
def IsNumeral (w : List Char) (n : Nat) : Prop :=
  ∃ ds, (w = ds ∨ w = '+' :: ds) ∧ ds ≠ [] ∧ (∀ c ∈ ds, c.isDigit = true) ∧
    n = Nat.ofDigitChars 10 ds 0 ∧ n < UInt32.size

inductive NumericSpan (k : FieldKind) : List Char → Nat → Nat → Prop where
  | star : NumericSpan k ['*'] k.min k.max
  | range {lo hi : List Char} {a b : Nat} : IsNumeral lo a → IsNumeral hi b →
      k.min ≤ a → a ≤ b → b ≤ k.max → NumericSpan k (lo ++ '-' :: hi) a b

/-- A part that stands for the numbers from `a` to `b` in steps of `n`. -/
inductive NumericPart (k : FieldKind) : List Char → Nat → Nat → Nat → Prop where
  | span {w : List Char} {a b : Nat} : NumericSpan k w a b → NumericPart k w a b 1
  | number {w : List Char} {a : Nat} : IsNumeral w a → k.min ≤ a → a ≤ k.max → NumericPart k w a a 1
  | spanBy {w ds : List Char} {a b n : Nat} : NumericSpan k w a b →
      IsNumeral ds n → 1 ≤ n → n ≤ k.max → NumericPart k (w ++ '/' :: ds) a b n
  | numberBy {w ds : List Char} {a n : Nat} : IsNumeral w a → k.min ≤ a → a ≤ k.max →
      IsNumeral ds n → 1 ≤ n → n ≤ k.max → NumericPart k (w ++ '/' :: ds) a k.max n

def IsPart (k : FieldKind) (w : List Char) : Prop :=
  (∃ a b n, NumericPart k w a b n) ∨ (k = .dayOfMonth ∧ w = ['L'])

def PartContains (k : FieldKind) (w : List Char) (v : Nat) : Prop :=
  ∃ a b n i, NumericPart k w a b n ∧ v = a + i * n ∧ v ≤ b

structure ListsParts (k : FieldKind) (cs : List Char) (parts : List (List Char)) : Prop where
  ne_nil : parts ≠ []
  joined : [','].intercalate parts = cs
  isPart : ∀ w ∈ parts, IsPart k w

variable {k : FieldKind} {cs w : List Char} {a b n v : Nat} {t : Term}

theorem FieldKind.one_le_max (k : FieldKind) : 1 ≤ k.max := by cases k <;> decide

theorem FieldKind.openEnd_eq_max (k : FieldKind) (hk : k ≠ .dayOfWeek) : k.openEnd = k.max := by
  cases k with
  | dayOfWeek => exact absurd rfl hk
  | _ => rfl

theorem digitsValue?_eq_some_iff :
    digitsValue? cs = some n ↔ cs ≠ [] ∧ (∀ c ∈ cs, c.isDigit = true) ∧ n = Nat.ofDigitChars 10 cs 0 := by
  have hiff : (!cs.isEmpty && cs.all Char.isDigit) = true ↔ cs ≠ [] ∧ ∀ c ∈ cs, c.isDigit = true := by
    simp only [Bool.and_eq_true, Bool.not_eq_true', List.isEmpty_eq_false_iff, List.all_eq_true]
  rw [digitsValue?, Option.ite_none_right_eq_some, hiff, Option.some.injEq, and_assoc, eq_comm (b := n)]

theorem readWord?_eq_some_iff : readWord? w = some n ↔ IsNumeral w n := by
  have hfilter (ds : List Char) : (digitsValue? ds).filter (· ≤ maxWord) = some n ↔
      ds ≠ [] ∧ (∀ c ∈ ds, c.isDigit = true) ∧ n = Nat.ofDigitChars 10 ds 0 ∧ n < UInt32.size := by
    rw [Option.filter_eq_some_iff, digitsValue?_eq_some_iff, decide_eq_true_eq, maxWord]
    have hsize : 0 < UInt32.size := by decide
    constructor
    · rintro ⟨⟨h₁, h₂, h₃⟩, h₄⟩
      exact ⟨h₁, h₂, h₃, by omega⟩
    · rintro ⟨h₁, h₂, h₃, h₄⟩
      exact ⟨⟨h₁, h₂, h₃⟩, by omega⟩
  simp only [readWord?, readNat?]
  split
  · next rest =>
    rw [hfilter]
    constructor
    · intro h
      exact ⟨rest, .inr rfl, h⟩
    · rintro ⟨ds, hw | hw, hds⟩
      · -- the digits would begin with the sign
        have := hds.2.1 '+' (hw ▸ List.mem_cons_self)
        exact absurd this (by decide)
      · rwa [(List.cons.inj hw).2]
  · next hsign =>
    rw [hfilter]
    constructor
    · intro h
      exact ⟨w, .inl rfl, h⟩
    · rintro ⟨ds, rfl | hw, hds⟩
      · exact hds
      · exact absurd hw (hsign ds)

namespace Term

theorem readValue_eq_ok_iff {lo hi : Nat} :
    readValue lo hi w = .ok n ↔ readWord? w = some n ∧ lo ≤ n ∧ n ≤ hi := by
  constructor
  · intro h
    exact ⟨readWord?_of_readValue h, bounds_of_readValue h⟩
  · rintro ⟨hw, hlo, hhi⟩
    rw [readValue, hw]
    simp only
    rw [if_neg (by omega)]

theorem readStep_eq_ok_iff : readStep k w = .ok n ↔ readWord? w = some n ∧ 1 ≤ n ∧ n ≤ k.max := by
  rw [readStep]
  cases hw : readWord? w with
  | none => simp
  | some m =>
    simp only [Option.some.injEq]
    split
    · simp only [reduceCtorEq, false_iff]
      omega
    · simp only [Except.ok.injEq]
      omega

theorem readRange_of_denotesSpan {step : Option Nat} (h : DenotesSpan k step.isSome w a b)
    (ha : k.min ≤ a) (hab : a ≤ b) (hb : b ≤ k.max) :
    readRange k step w = .ok (.progression a b (step.getD 1)) := by
  have hnumber (hw : readWord? w = some a) (ha' : a ≤ k.max) : readRange k step w =
      .ok (.progression a (if step.isSome ∧ a ≤ k.openEnd then k.openEnd else a) (step.getD 1)) := by
    have hcut : cutAt ['-'] w = none :=
      cutAt_of_not_mem (not_mem_of_readWord? (by decide) (by decide) hw)
    rw [readRange, if_neg (not_wildcard_of_readWord? hw), hcut]
    simp only [readValue_eq_ok_iff.2 ⟨hw, ha, ha'⟩]
    rfl
  cases h with
  | star => rw [readRange, if_pos (.inl rfl)]
  | question => rw [readRange, if_pos (.inr rfl)]
  | @range lo hi _ _ hlo hhi =>
    have hcut : cutAt ['-'] (lo ++ '-' :: hi) = some (lo, hi) :=
      cutAt_singleton (not_mem_of_readWord? (by decide) (by decide) hlo)
    rw [readRange, if_neg (not_wildcard_range lo hi), hcut]
    exact bind_eq_ok_iff.2 ⟨a, readValue_eq_ok_iff.2 ⟨hlo, ha, by omega⟩,
      bind_eq_ok_iff.2 ⟨b, readValue_eq_ok_iff.2 ⟨hhi, by omega, hb⟩, if_neg (by omega)⟩⟩
  | single hw hlt =>
    rw [hnumber hw hb, if_neg]
    rintro ⟨hs, hle⟩
    have := hlt hs
    omega
  | rest hw hs hle => rw [hnumber hw (by omega), if_pos ⟨hs, hle⟩]

theorem readProgression_eq_ok_iff : readProgression k w = .ok t ↔
    ∃ a b n, DenotesProgression k w a b n ∧ (k.min ≤ a ∧ a ≤ b ∧ b ≤ k.max) ∧ (1 ≤ n ∧ n ≤ k.max) ∧
      t = .progression a b n := by
  constructor
  · intro h
    obtain ⟨a, b, n, rfl, hbounds⟩ := isProgression_of_readProgression h
    have hd := (denotesProgression_iff h).2 rfl
    refine ⟨a, b, n, hd, hbounds, ?_, rfl⟩
    cases hd with
    | plain _ => exact ⟨Nat.le_refl 1, k.one_le_max⟩
    | stepped hs hn =>
      rw [readProgression_stepped hs] at h
      obtain ⟨m, hm, -⟩ := bind_eq_ok_iff.1 h
      obtain ⟨hm, hbounds⟩ := readStep_eq_ok_iff.1 hm
      rw [hn] at hm
      cases hm
      exact hbounds
  · rintro ⟨a, b, n, hd, ⟨ha, hab, hb⟩, hn, rfl⟩
    cases hd with
    | plain hs =>
      rw [readProgression, cutAt_of_not_mem (hs.not_mem (by decide) (by decide))]
      have hs : DenotesSpan k (none : Option Nat).isSome w a b := hs
      exact readRange_of_denotesSpan hs ha hab hb
    | stepped hs hds =>
      rw [readProgression_stepped hs]
      have hs : DenotesSpan k (some n).isSome _ a b := hs
      exact bind_eq_ok_iff.2 ⟨n, readStep_eq_ok_iff.2 ⟨hds, hn⟩,
        readRange_of_denotesSpan hs ha hab hb⟩

theorem ne_nil_of_readProgression (h : readProgression k w = .ok t) : w ≠ [] := by
  rintro rfl
  cases h

theorem read_eq_ok_iff (hk : k ≠ .dayOfWeek) : read k w = .ok t ↔
    readProgression k w = .ok t ∨ (k = .dayOfMonth ∧ w = ['L'] ∧ t = .lastDay) := by
  by_cases hm : k = .dayOfMonth
  · subst hm
    constructor
    · intro h
      rcases readDayOfMonth_cases h with ⟨hw, ht⟩ | hp
      · exact .inr ⟨rfl, hw, ht⟩
      · exact .inl hp
    · rintro (hp | ⟨-, rfl, rfl⟩)
      · have hl : w ≠ ['L'] := by
          rintro rfl
          exact not_mem_of_readProgression (c := 'L') (by decide) (by decide) hp (by simp)
        rw [read, if_neg (by simpa using ne_nil_of_readProgression hp), if_neg hl, hp]
      · rfl
  · simp only [hm, false_and, or_false]
    constructor
    · intro h
      rw [read.eq_def] at h
      split at h
      · simp at h
      · simpa [hm, hk] using h
    · intro hp
      rw [read.eq_def, if_neg (by simpa using ne_nil_of_readProgression hp)]
      simpa [hm, hk] using hp

end Term

theorem NumericSpan.denotes {stepped : Bool} (hk : k ≠ .dayOfWeek) (h : NumericSpan k w a b) :
    DenotesSpan k stepped w a b ∧ k.min ≤ a ∧ a ≤ b ∧ b ≤ k.max := by
  cases h with
  | star =>
    have hle := k.min_le_openEnd
    rw [← k.openEnd_eq_max hk]
    exact ⟨.star, Nat.le_refl _, hle, Nat.le_refl _⟩
  | range hlo hhi ha hab hb =>
    exact ⟨.range (readWord?_eq_some_iff.2 hlo) (readWord?_eq_some_iff.2 hhi), ha, hab, hb⟩

theorem NumericSpan.of_denotes {stepped : Bool} (hk : k ≠ .dayOfWeek) (hq : '?' ∉ w)
    (h : DenotesSpan k stepped w a b) (ha : k.min ≤ a) (hab : a ≤ b) (hb : b ≤ k.max) :
    NumericSpan k w a b ∨ IsNumeral w a ∧ b = if stepped then k.max else a := by
  cases h with
  | star => exact .inl (k.openEnd_eq_max hk ▸ .star)
  | question => simp at hq
  | range hlo hhi =>
    exact .inl (.range (readWord?_eq_some_iff.1 hlo) (readWord?_eq_some_iff.1 hhi) ha hab hb)
  | single hw hlt =>
    refine .inr ⟨readWord?_eq_some_iff.1 hw, ?_⟩
    split
    · next hs =>
      have := hlt hs
      rw [k.openEnd_eq_max hk] at this
      omega
    · rfl
  | rest hw hs hle => exact .inr ⟨readWord?_eq_some_iff.1 hw, by rw [if_pos hs, k.openEnd_eq_max hk]⟩

theorem numericPart_iff (hk : k ≠ .dayOfWeek) (hq : '?' ∉ w) : NumericPart k w a b n ↔
    DenotesProgression k w a b n ∧ (k.min ≤ a ∧ a ≤ b ∧ b ≤ k.max) ∧ (1 ≤ n ∧ n ≤ k.max) := by
  constructor
  · intro h
    cases h with
    | span h =>
      obtain ⟨hs, hbounds⟩ := h.denotes hk
      exact ⟨.plain hs, hbounds, Nat.le_refl 1, k.one_le_max⟩
    | number hw ha hb =>
      have hs : DenotesSpan k false w a a := .single (readWord?_eq_some_iff.2 hw) nofun
      exact ⟨.plain hs, ⟨ha, Nat.le_refl a, hb⟩, Nat.le_refl 1, k.one_le_max⟩
    | spanBy h hds hn hn' =>
      obtain ⟨hs, hbounds⟩ := h.denotes hk
      exact ⟨.stepped hs (readWord?_eq_some_iff.2 hds), hbounds, hn, hn'⟩
    | @numberBy w _ _ _ hw ha hb hds hn hn' =>
      have hs : DenotesSpan k true w a k.openEnd :=
        .rest (readWord?_eq_some_iff.2 hw) rfl (by rwa [k.openEnd_eq_max hk])
      rw [k.openEnd_eq_max hk] at hs
      exact ⟨.stepped hs (readWord?_eq_some_iff.2 hds), ⟨ha, hb, Nat.le_refl _⟩, hn, hn'⟩
  · rintro ⟨hd, ⟨ha, hab, hb⟩, hn, hn'⟩
    cases hd with
    | plain hs =>
      rcases NumericSpan.of_denotes hk hq hs ha hab hb with h | ⟨hw, rfl⟩
      · exact .span h
      · exact .number hw ha hb
    | stepped hs hds =>
      have hds := readWord?_eq_some_iff.1 hds
      have hq : '?' ∉ _ := fun hm => hq (List.mem_append_left _ hm)
      rcases NumericSpan.of_denotes hk hq hs ha hab hb with h | ⟨hw, rfl⟩
      · exact .spanBy h hds hn hn'
      · exact .numberBy hw ha hab hds hn hn'

theorem isPart_iff (hk : k ≠ .dayOfWeek) (hq : '?' ∉ w) :
    IsPart k w ↔ ∃ t, Term.read k w = .ok t := by
  simp only [IsPart, Term.read_eq_ok_iff hk, Term.readProgression_eq_ok_iff, numericPart_iff hk hq]
  constructor
  · rintro (⟨a, b, n, hd, hbounds, hn⟩ | hl)
    · exact ⟨.progression a b n, .inl ⟨a, b, n, hd, hbounds, hn, rfl⟩⟩
    · exact ⟨.lastDay, .inr ⟨hl.1, hl.2, rfl⟩⟩
  · rintro ⟨t, ⟨a, b, n, hd, hbounds, hn, -⟩ | hl⟩
    · exact .inl ⟨a, b, n, hd, hbounds, hn⟩
    · exact .inr ⟨hl.1, hl.2.1⟩

theorem partContains_iff (hk : k ≠ .dayOfWeek) (hq : '?' ∉ w) (h : Term.read k w = .ok t) :
    PartContains k w v ↔ Denotes k w v := by
  constructor
  · rintro ⟨a, b, n, i, hp, rfl, hb⟩
    refine ⟨a, b, n, ((numericPart_iff hk hq).1 hp).1, Nat.le_add_right _ _, hb, ?_⟩
    rw [Nat.add_sub_cancel_left]
    exact Nat.dvd_mul_left n i
  · rintro ⟨a, b, n, hd, ha, hb, i, hi⟩
    rcases (Term.read_eq_ok_iff hk).1 h with hp | ⟨-, rfl, -⟩
    · obtain rfl := (Term.denotesProgression_iff hp).1 hd
      obtain ⟨a', b', n', -, hbounds, hn, he⟩ := Term.readProgression_eq_ok_iff.1 hp
      cases he
      refine ⟨a, b, n, i, (numericPart_iff hk hq).2 ⟨hd, hbounds, hn⟩, ?_, hb⟩
      rw [Nat.mul_comm i n]
      omega
    · exact absurd (hd.not_mem (c := 'L') (by decide) (by decide)) (by simp)

theorem exists_mapM_read_iff {css : List (List Char)} :
    (∃ ts, css.mapM (Term.read k) = .ok ts) ↔ ∀ w ∈ css, ∃ t, Term.read k w = .ok t := by
  constructor
  · rintro ⟨ts, h⟩ w hw
    obtain ⟨t, -, ht⟩ := exists_term_of_mem_mapM h hw
    exact ⟨t, ht⟩
  · intro h
    induction css with
    | nil => exact ⟨[], rfl⟩
    | cons w css ih =>
      obtain ⟨t, ht⟩ := h w List.mem_cons_self
      obtain ⟨ts, hts⟩ := ih fun w' hw' => h w' (List.mem_cons_of_mem w hw')
      refine ⟨t :: ts, ?_⟩
      rw [List.mapM_cons, ht, hts]
      rfl

theorem exists_readTerms_iff (hq : cs = ['?'] → k.allowsQuestionMark = true) :
    (∃ ts, readTerms k cs = .ok ts) ↔ ∀ w ∈ cs.splitOn ',', ∃ t, Term.read k w = .ok t := by
  rw [← exists_mapM_read_iff]
  constructor
  · rintro ⟨ts, h⟩
    exact ⟨ts, readTerms_eq_mapM h⟩
  · rintro ⟨ts, h⟩
    have hne : cs ≠ [] := by
      rintro rfl
      cases h
    refine ⟨ts, ?_⟩
    rw [readTerms, if_neg (by simpa using hne), if_neg (by simpa using hq), h]

theorem Field.exists_parse_iff {text : String} :
    (∃ f, Field.parse k text = .ok f) ↔ ∃ ts, readTerms k (normalise k text.toList) = .ok ts := by
  constructor
  · rintro ⟨f, h⟩
    exact ⟨f.terms, toList_text_of_parse h ▸ f.terms_eq⟩
  · rintro ⟨ts, h⟩
    rw [Field.parse, Field.ofText, Field.ofNormal]
    split
    · exact ⟨_, rfl⟩
    · next he =>
      rw [h] at he
      cases he

theorem not_mem_of_isPart (hk : k ≠ .dayOfWeek) (hq : '?' ∉ w) (h : IsPart k w) : ',' ∉ w := by
  obtain ⟨t, ht⟩ := (isPart_iff hk hq).1 h
  rcases (Term.read_eq_ok_iff hk).1 ht with hp | ⟨-, rfl, -⟩
  · exact Term.not_mem_of_readProgression (by decide) (by decide) hp
  · decide

theorem listsParts_iff {parts : List (List Char)} (hk : k ≠ .dayOfWeek) (hq : '?' ∉ cs) :
    ListsParts k cs parts ↔
      parts = cs.splitOn ',' ∧ ∀ w ∈ cs.splitOn ',', ∃ t, Term.read k w = .ok t := by
  constructor
  · rintro ⟨hne, hjoined, hpart⟩
    have hq (w : List Char) (hw : w ∈ parts) : '?' ∉ w := not_mem_of_joined hjoined hq hw
    have hsplit : cs.splitOn ',' = parts := by
      rw [← hjoined]
      exact List.splitOn_intercalate ',' (fun w hw => not_mem_of_isPart hk (hq w hw) (hpart w hw)) hne
    rw [hsplit]
    exact ⟨rfl, fun w hw => (isPart_iff hk (hq w hw)).1 (hpart w hw)⟩
  · rintro ⟨rfl, hread⟩
    have hjoined : [','].intercalate (cs.splitOn ',') = cs := List.intercalate_splitOn ','
    refine ⟨List.splitOn_ne_nil ',' cs, hjoined, fun w hw => ?_⟩
    exact (isPart_iff hk (not_mem_of_joined hjoined hq hw)).2 (hread w hw)

theorem normalise_eq_trim (h : ∀ c ∈ cs, c.isAlpha = true → c = 'L') : normalise k cs = trim cs :=
  replaceWords_of_forall_isAlpha (by simp) fun c hc => h c (mem_of_mem_trim hc)

/-- A text without names and without a question mark is a field exactly if it lists parts, and the numbers
of the field are those that its parts contain. -/
theorem Field.parse_numeric {text : String} (hk : k ≠ .dayOfWeek) (hq : '?' ∉ text.toList)
    (hl : ∀ c ∈ text.toList, c.isAlpha = true → c = 'L') :
    ((∃ f, Field.parse k text = .ok f) ↔ ∃ parts, ListsParts k (trim text.toList) parts) ∧
      ∀ f parts, Field.parse k text = .ok f → ListsParts k (trim text.toList) parts →
        ∀ v, f.admits v = true ↔ ∃ w ∈ parts, PartContains k w v := by
  have hq : '?' ∉ trim text.toList := fun hm => hq (mem_of_mem_trim hm)
  constructor
  · have hnot : trim text.toList = ['?'] → k.allowsQuestionMark = true := by
      intro he
      simp [he] at hq
    rw [Field.exists_parse_iff, normalise_eq_trim hl, exists_readTerms_iff hnot]
    simp only [listsParts_iff hk hq, exists_eq_left]
  · intro f parts hf hparts v
    obtain ⟨rfl, hread⟩ := (listsParts_iff hk hq).1 hparts
    rw [f.admits_iff hk, ListDenotes, toList_text_of_parse hf, normalise_eq_trim hl]
    refine exists_congr fun w => and_congr_right fun hw => ?_
    obtain ⟨t, ht⟩ := hread w hw
    exact (partContains_iff hk (not_mem_of_joined hparts.joined hq hw) ht).symm

def someDays : String := " +5-10/2,*/15,L "

def partsOfSomeDays : List (List Char) := ["+5-10/2".toList, "*/15".toList, "L".toList]

theorem listsParts_someDays : ListsParts .dayOfMonth (trim someDays.toList) partsOfSomeDays := by
  have hnumeral {ds : List Char} {n : Nat} (h : readWord? ds = some n) : IsNumeral ds n :=
    readWord?_eq_some_iff.1 h
  have hfirst : IsNumeral "+5".toList 5 := hnumeral (by decide)
  have hlast : IsNumeral "10".toList 10 := hnumeral (by decide)
  have hspan : NumericSpan .dayOfMonth "+5-10".toList 5 10 :=
    .range hfirst hlast (by decide) (by decide) (by decide)
  refine ⟨by decide, by decide +kernel, fun w hw => ?_⟩
  simp only [partsOfSomeDays, List.mem_cons, List.not_mem_nil, or_false] at hw
  rcases hw with rfl | rfl | rfl
  · exact .inl ⟨5, 10, 2, .spanBy hspan (hnumeral (by decide)) (by decide) (by decide)⟩
  · exact .inl ⟨1, 31, 15, .spanBy .star (hnumeral (by decide)) (by decide) (by decide)⟩
  · exact .inr ⟨rfl, rfl⟩

theorem parse_numeric_someDays : FieldKind.dayOfMonth ≠ .dayOfWeek ∧ '?' ∉ someDays.toList ∧
    (∀ c ∈ someDays.toList, c.isAlpha = true → c = 'L') ∧
    ListsParts .dayOfMonth (trim someDays.toList) partsOfSomeDays ∧
    ∃ f, Field.parse .dayOfMonth someDays = .ok f ∧
      ∀ v, f.admits v = true ↔ ∃ w ∈ partsOfSomeDays, PartContains .dayOfMonth w v := by
  have hq : '?' ∉ someDays.toList := by decide +kernel
  have hletters : someDays.toList.all (fun c => !c.isAlpha || c == 'L') = true := by decide +kernel
  have hl : ∀ c ∈ someDays.toList, c.isAlpha = true → c = 'L' := by
    intro c hc ha
    simpa [ha] using List.all_eq_true.1 hletters c hc
  obtain ⟨hread, hadmits⟩ := Field.parse_numeric (k := .dayOfMonth) (by decide) hq hl
  obtain ⟨f, hf⟩ := hread.2 ⟨_, listsParts_someDays⟩
  exact ⟨by decide, hq, hl, listsParts_someDays, f, hf, hadmits f _ hf listsParts_someDays⟩

end Timetable
