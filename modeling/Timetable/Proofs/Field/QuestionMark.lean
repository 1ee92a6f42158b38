import Timetable.Proofs.Field.Numeric

/-! A lone `?` is looked for in the whole text only: an element takes `?` wherever it takes `*`. -/

namespace Timetable

open Text

inductive QuestionElement (k : FieldKind) : List Char → Prop where
  | alone : QuestionElement k ['?']
  | stepped {ds : List Char} {n : Nat} : IsNumeral ds n → 1 ≤ n → n ≤ k.max →
      QuestionElement k ('?' :: '/' :: ds)

structure LetsQuestionMarkIn (k : FieldKind) (cs : List Char) : Prop where
  ne_question : cs ≠ ['?']
  marked : ∃ w ∈ cs.splitOn ',', QuestionElement k w
  element : ∀ w ∈ cs.splitOn ',', QuestionElement k w ∨ IsPart k w

variable {k : FieldKind} {w cs : List Char} {a b n : Nat}

theorem QuestionElement.mem (h : QuestionElement k w) : '?' ∈ w := by
  cases h <;> exact List.mem_cons_self

theorem IsNumeral.not_mem_question (h : IsNumeral w n) : '?' ∉ w :=
  not_mem_of_readWord? (by decide) (by decide) (readWord?_eq_some_iff.2 h)

theorem NumericSpan.not_mem_question (h : NumericSpan k w a b) : '?' ∉ w := by
  cases h with
  | star => simp
  | range hlo hhi => simp [hlo.not_mem_question, hhi.not_mem_question]

theorem IsPart.not_mem_question (h : IsPart k w) : '?' ∉ w := by
  rcases h with ⟨a, b, n, h⟩ | ⟨-, rfl⟩
  · cases h with
    | span hs => exact hs.not_mem_question
    | number hw => exact hw.not_mem_question
    | spanBy hs hds => simp [hs.not_mem_question, hds.not_mem_question]
    | numberBy hw _ _ hds => simp [hw.not_mem_question, hds.not_mem_question]
  · simp

theorem DenotesSpan.eq_of_question {stepped : Bool} (hq : '?' ∈ w) (h : DenotesSpan k stepped w a b) :
    w = ['?'] := by
  have hword {v : List Char} {n : Nat} (hv : readWord? v = some n) : '?' ∉ v :=
    (readWord?_eq_some_iff.1 hv).not_mem_question
  cases h with
  | star => simp at hq
  | question => rfl
  | range hlo hhi => simp [hword hlo, hword hhi] at hq
  | single hw _ => exact absurd hq (hword hw)
  | rest hw _ _ => exact absurd hq (hword hw)

theorem questionElement_iff (hq : '?' ∈ w) : QuestionElement k w ↔
    ∃ a b n, DenotesProgression k w a b n ∧ (k.min ≤ a ∧ a ≤ b ∧ b ≤ k.max) ∧ 1 ≤ n ∧ n ≤ k.max := by
  have hwhole : k.min ≤ k.min ∧ k.min ≤ k.openEnd ∧ k.openEnd ≤ k.max :=
    ⟨Nat.le_refl _, k.min_le_openEnd, k.openEnd_le_max⟩
  constructor
  · intro h
    cases h with
    | alone => exact ⟨_, _, 1, .plain .question, hwhole, Nat.le_refl 1, k.one_le_max⟩
    | stepped hds hn hmax =>
      have hd := DenotesProgression.stepped (k := k) .question (readWord?_eq_some_iff.2 hds)
      exact ⟨_, _, _, hd, hwhole, hn, hmax⟩
  · rintro ⟨a, b, n, hd, -, hn, hmax⟩
    cases hd with
    | plain hs =>
      rw [hs.eq_of_question hq]
      exact .alone
    | @stepped v ds _ _ _ hs hds =>
      have hds := readWord?_eq_some_iff.1 hds
      have hmark : '?' ∈ v := by simpa [hds.not_mem_question] using hq
      rw [hs.eq_of_question hmark]
      exact .stepped hds hn hmax

theorem exists_read_iff_of_question (hk : k ≠ .dayOfWeek) (hq : '?' ∈ w) :
    (∃ t, Term.read k w = .ok t) ↔ QuestionElement k w := by
  have hlast : w ≠ ['L'] := by
    rintro rfl
    simp at hq
  simp only [Term.read_eq_ok_iff hk, Term.readProgression_eq_ok_iff, hlast, false_and, and_false, or_false,
    questionElement_iff hq]
  constructor
  · rintro ⟨t, a, b, n, hd, hbounds, hn, -⟩
    exact ⟨a, b, n, hd, hbounds, hn⟩
  · rintro ⟨a, b, n, hd, hbounds, hn⟩
    exact ⟨_, a, b, n, hd, hbounds, hn, rfl⟩

theorem exists_read_iff (hk : k ≠ .dayOfWeek) :
    (∃ t, Term.read k w = .ok t) ↔ QuestionElement k w ∨ IsPart k w := by
  by_cases hq : '?' ∈ w
  · have hpart : ¬ IsPart k w := fun h => h.not_mem_question hq
    simp only [exists_read_iff_of_question hk hq, hpart, or_false]
  · have hmark : ¬ QuestionElement k w := fun h => hq h.mem
    simp only [← isPart_iff hk hq, hmark, false_or]

theorem exists_readTerms_iff_letsQuestionMarkIn (hm : k ≠ .dayOfMonth) (hk : k ≠ .dayOfWeek)
    (hq : '?' ∈ cs) : (∃ ts, readTerms k cs = .ok ts) ↔ LetsQuestionMarkIn k cs := by
  by_cases hcs : cs = ['?']
  · have hallow : k.allowsQuestionMark = false := by
      cases k with
      | dayOfMonth => exact absurd rfl hm
      | dayOfWeek => exact absurd rfl hk
      | _ => rfl
    constructor
    · rintro ⟨ts, h⟩
      simp [readTerms, hcs, hallow] at h
    · exact fun h => absurd hcs h.ne_question
  · simp only [exists_readTerms_iff fun h => absurd h hcs, exists_read_iff hk]
    constructor
    · intro h
      obtain ⟨w, hw, hmark⟩ : ∃ w ∈ cs.splitOn ',', '?' ∈ w := exists_mem_splitOn hq (by decide)
      have hpart : ¬ IsPart k w := fun hp => hp.not_mem_question hmark
      exact ⟨hcs, ⟨w, hw, (h w hw).resolve_right hpart⟩, h⟩
    · exact fun h => h.element

theorem mem_normalise_of_mem {c : Char} (ha : c.isAlpha = false) (hb : isBlank c = false) (h : c ∈ cs) :
    c ∈ normalise k cs := mem_replaceWords_of_mem ha (mem_trim_of_mem hb h)

namespace Field

/-- Where days are not named, a text with a question mark is refused, except for a longer list in which
every mark has the place of a star. -/
theorem refused_iff_not_letsQuestionMarkIn {text : String} (hm : k ≠ .dayOfMonth) (hk : k ≠ .dayOfWeek)
    (hq : '?' ∈ text.toList) :
    (∀ f, Field.parse k text ≠ .ok f) ↔ ¬ LetsQuestionMarkIn k (normalise k text.toList) := by
  have hmark : '?' ∈ normalise k text.toList := mem_normalise_of_mem (by decide) (by decide) hq
  rw [← exists_readTerms_iff_letsQuestionMarkIn hm hk hmark, ← exists_parse_iff, not_exists]

theorem refused_marchToQuestionMark : FieldKind.month ≠ .dayOfMonth ∧ FieldKind.month ≠ .dayOfWeek ∧
    '?' ∈ "?,MAR-?".toList ∧ ∀ f, Field.parse .month "?,MAR-?" ≠ .ok f := by
  have hq : '?' ∈ "?,MAR-?".toList := by decide
  refine ⟨by decide, by decide, hq,
    (refused_iff_not_letsQuestionMarkIn (by decide) (by decide) hq).2 fun h => ?_⟩
  rcases h.element ['3', '-', '?'] (by decide +kernel) with he | hp
  · cases he
  · exact hp.not_mem_question (by decide)

theorem not_refused_everyFifthMinute : FieldKind.minute ≠ .dayOfMonth ∧ FieldKind.minute ≠ .dayOfWeek ∧
    '?' ∈ "?/5".toList ∧ ∃ f, Field.parse .minute "?/5" = .ok f :=
  ⟨by decide, by decide, by decide, _, rfl⟩

end Field

end Timetable
