import Timetable.Proofs.Field.Normal

/-! What the text of a field denotes, told by the form of its elements. -/

namespace Timetable

open Text Calendar

inductive DenotesSpan (k : FieldKind) (stepped : Bool) : List Char → Nat → Nat → Prop where
  | star : DenotesSpan k stepped ['*'] k.min k.openEnd
  | question : DenotesSpan k stepped ['?'] k.min k.openEnd
  | range {lo hi : List Char} {a b : Nat} : readWord? lo = some a → readWord? hi = some b →
      DenotesSpan k stepped (lo ++ '-' :: hi) a b
  | single {w : List Char} {a : Nat} : readWord? w = some a → (stepped = true → k.openEnd < a) →
      DenotesSpan k stepped w a a
  | rest {w : List Char} {a : Nat} : readWord? w = some a → stepped = true → a ≤ k.openEnd →
      DenotesSpan k stepped w a k.openEnd

inductive DenotesProgression (k : FieldKind) : List Char → Nat → Nat → Nat → Prop where
  | plain {w : List Char} {a b : Nat} : DenotesSpan k false w a b → DenotesProgression k w a b 1
  | stepped {w ds : List Char} {a b n : Nat} : DenotesSpan k true w a b → readWord? ds = some n →
      DenotesProgression k (w ++ '/' :: ds) a b n

variable {k : FieldKind} {w : List Char} {a b n v : Nat} {t : Term}

theorem not_mem_of_readWord? {c : Char} (hd : c.isDigit = false) (hp : c ≠ '+')
    (h : readWord? w = some n) : c ∉ w := by
  intro hm
  rcases isDigit_or_eq_plus_of_readWord? h c hm with hc | rfl
  · simp [hd] at hc
  · exact hp rfl

theorem DenotesSpan.not_mem {stepped : Bool} {c : Char} (hd : c.isDigit = false)
    (hc : c ∉ ['+', '*', '?', '-']) (h : DenotesSpan k stepped w a b) : c ∉ w := by
  simp only [List.mem_cons, List.not_mem_nil, or_false, not_or] at hc
  obtain ⟨hp, hs, hq, hm⟩ := hc
  cases h with
  | star => simpa using hs
  | question => simpa using hq
  | range h₁ h₂ => simp [not_mem_of_readWord? hd hp h₁, hm, not_mem_of_readWord? hd hp h₂]
  | single h _ => exact not_mem_of_readWord? hd hp h
  | rest h _ _ => exact not_mem_of_readWord? hd hp h

theorem DenotesProgression.not_mem {c : Char} (hd : c.isDigit = false)
    (hc : c ∉ ['+', '*', '?', '-', '/']) (h : DenotesProgression k w a b n) : c ∉ w := by
  simp only [List.mem_cons, List.not_mem_nil, or_false, not_or] at hc
  obtain ⟨hp, hs, hq, hm, hl⟩ := hc
  cases h with
  | plain h => exact h.not_mem hd (by simp [hp, hs, hq, hm])
  | stepped h hn =>
    have hspan := h.not_mem hd (c := c) (by simp [hp, hs, hq, hm])
    simp [hspan, hl, not_mem_of_readWord? hd hp hn]

theorem DenotesSpan.wildcard_or {stepped : Bool} (h : DenotesSpan k stepped w a b) (hab : a ≤ b)
    (k' : FieldKind) : (a = k.min ∧ DenotesSpan k' stepped w k'.min k'.openEnd) ∨
      ∃ b', a ≤ b' ∧ DenotesSpan k' stepped w a b' := by
  have hword (h : readWord? w = some a) : ∃ b', a ≤ b' ∧ DenotesSpan k' stepped w a b' := by
    by_cases hs : stepped = true ∧ a ≤ k'.openEnd
    · exact ⟨k'.openEnd, hs.2, .rest h hs.1 hs.2⟩
    · refine ⟨a, Nat.le_refl a, .single h fun hstep => ?_⟩
      exact Nat.lt_of_not_le fun hle => hs ⟨hstep, hle⟩
  cases h with
  | star => exact .inl ⟨rfl, .star⟩
  | question => exact .inl ⟨rfl, .question⟩
  | range h₁ h₂ => exact .inr ⟨b, hab, .range h₁ h₂⟩
  | single h _ => exact .inr (hword h)
  | rest h _ _ => exact .inr (hword h)

theorem DenotesProgression.wildcard_or (h : DenotesProgression k w a b n) (hab : a ≤ b)
    (k' : FieldKind) : (a = k.min ∧ DenotesProgression k' w k'.min k'.openEnd n) ∨
      ∃ b', a ≤ b' ∧ DenotesProgression k' w a b' n := by
  cases h with
  | plain h =>
    rcases h.wildcard_or hab k' with ⟨ha, hs⟩ | ⟨b', hb, hs⟩
    · exact .inl ⟨ha, .plain hs⟩
    · exact .inr ⟨b', hb, .plain hs⟩
  | stepped h hn =>
    rcases h.wildcard_or hab k' with ⟨ha, hs⟩ | ⟨b', hb, hs⟩
    · exact .inl ⟨ha, .stepped hs hn⟩
    · exact .inr ⟨b', hb, .stepped hs hn⟩

namespace Term

theorem readWord?_of_readValue {lo hi : Nat} (h : readValue lo hi w = .ok n) :
    readWord? w = some n := by
  rw [readValue] at h
  cases hw : readWord? w with
  | none => simp [hw] at h
  | some m =>
    simp only [hw] at h
    split at h
    · simp at h
    · cases h
      rfl

theorem readWord?_of_readStep (h : readStep k w = .ok n) : readWord? w = some n := by
  rw [readStep] at h
  cases hw : readWord? w with
  | none => simp [hw] at h
  | some m =>
    simp only [hw] at h
    split at h
    · simp at h
    · cases h
      rfl

theorem eq_of_readValue {lo hi m : Nat} (h : readValue lo hi w = .ok n) (hw : readWord? w = some m) :
    n = m := by
  rw [readWord?_of_readValue h] at hw
  exact Option.some.inj hw

theorem denotesSpan_of_readRange {step : Option Nat} (h : readRange k step w = .ok t) :
    ∃ a b, DenotesSpan k step.isSome w a b ∧ t = .progression a b (step.getD 1) := by
  rw [readRange] at h
  split at h
  · next hw =>
    cases h
    rcases hw with rfl | rfl
    · exact ⟨_, _, .star, rfl⟩
    · exact ⟨_, _, .question, rfl⟩
  · split at h
    · next lo hi hcut =>
      obtain ⟨a, ha, h⟩ := bind_eq_ok_iff.1 h
      obtain ⟨b, hb, h⟩ := bind_eq_ok_iff.1 h
      split at h
      · simp at h
      · cases h
        rw [append_of_cutAt_eq_some hcut, List.append_assoc, List.singleton_append]
        exact ⟨a, b, .range (readWord?_of_readValue ha) (readWord?_of_readValue hb), rfl⟩
    · obtain ⟨a, ha, h⟩ := bind_eq_ok_iff.1 h
      cases h
      have hw := readWord?_of_readValue ha
      by_cases hs : step.isSome = true ∧ a ≤ k.openEnd
      · exact ⟨a, k.openEnd, .rest hw hs.1 hs.2, by rw [if_pos hs]⟩
      · refine ⟨a, a, .single hw fun hstep => ?_, by rw [if_neg hs]⟩
        exact Nat.lt_of_not_le fun hle => hs ⟨hstep, hle⟩

theorem not_wildcard_of_readWord? (h : readWord? w = some n) : ¬ (w = ['*'] ∨ w = ['?']) := by
  rintro (rfl | rfl)
  · exact not_mem_of_readWord? (c := '*') (by decide) (by decide) h (by simp)
  · exact not_mem_of_readWord? (c := '?') (by decide) (by decide) h (by simp)

theorem not_wildcard_range (lo hi : List Char) :
    ¬ (lo ++ '-' :: hi = ['*'] ∨ lo ++ '-' :: hi = ['?']) := by
  rintro (he | he)
  · have : '-' ∈ ['*'] := he ▸ by simp
    simp at this
  · have : '-' ∈ ['?'] := he ▸ by simp
    simp at this

theorem readRange_of_readWord? {step : Option Nat} (hw : readWord? w = some a)
    (h : readRange k step w = .ok t) :
    t = .progression a (if step.isSome ∧ a ≤ k.openEnd then k.openEnd else a) (step.getD 1) := by
  have hcut : cutAt ['-'] w = none :=
    cutAt_of_not_mem (not_mem_of_readWord? (by decide) (by decide) hw)
  rw [readRange, if_neg (not_wildcard_of_readWord? hw), hcut] at h
  obtain ⟨m, hm, h⟩ := bind_eq_ok_iff.1 h
  cases h
  rw [eq_of_readValue hm hw]

theorem eq_of_denotesSpan {step : Option Nat} (hs : DenotesSpan k step.isSome w a b)
    (h : readRange k step w = .ok t) : t = .progression a b (step.getD 1) := by
  cases hs with
  | star =>
    rw [readRange, if_pos (by simp)] at h
    exact (Except.ok.inj h).symm
  | question =>
    rw [readRange, if_pos (by simp)] at h
    exact (Except.ok.inj h).symm
  | @range lo hi _ _ hlo hhi =>
    have hcut : cutAt ['-'] (lo ++ '-' :: hi) = some (lo, hi) :=
      cutAt_singleton (not_mem_of_readWord? (by decide) (by decide) hlo)
    rw [readRange, if_neg (not_wildcard_range lo hi), hcut] at h
    obtain ⟨m, hm, h⟩ := bind_eq_ok_iff.1 h
    obtain ⟨m', hm', h⟩ := bind_eq_ok_iff.1 h
    split at h
    · simp at h
    · cases h
      rw [eq_of_readValue hm hlo, eq_of_readValue hm' hhi]
  | single hw hlt =>
    rw [readRange_of_readWord? hw h, if_neg]
    rintro ⟨hstep, hle⟩
    have := hlt hstep
    omega
  | rest hw hstep hle => rw [readRange_of_readWord? hw h, if_pos ⟨hstep, hle⟩]

theorem readProgression_stepped {ds : List Char} (hs : DenotesSpan k true w a b) :
    readProgression k (w ++ '/' :: ds) = (readStep k ds >>= fun n => readRange k (some n) w) := by
  rw [readProgression, cutAt_singleton (hs.not_mem (by decide) (by decide))]

theorem denotesProgression_iff (h : readProgression k w = .ok t) :
    DenotesProgression k w a b n ↔ t = .progression a b n := by
  constructor
  · intro hd
    cases hd with
    | plain hs =>
      rw [readProgression, cutAt_of_not_mem (hs.not_mem (by decide) (by decide))] at h
      have hs : DenotesSpan k (none : Option Nat).isSome w a b := hs
      exact eq_of_denotesSpan hs h
    | stepped hs hn =>
      rw [readProgression_stepped hs] at h
      obtain ⟨m, hm, h⟩ := bind_eq_ok_iff.1 h
      have he := readWord?_of_readStep hm
      rw [hn] at he
      cases he
      have hs : DenotesSpan k (some n).isSome _ a b := hs
      exact eq_of_denotesSpan hs h
  · rintro rfl
    rw [readProgression] at h
    split at h
    · obtain ⟨_, _, hs, he⟩ := denotesSpan_of_readRange h
      cases he
      exact .plain hs
    · next hcut =>
      obtain ⟨m, hm, h⟩ := bind_eq_ok_iff.1 h
      obtain ⟨_, _, hs, he⟩ := denotesSpan_of_readRange h
      cases he
      rw [append_of_cutAt_eq_some hcut, List.append_assoc, List.singleton_append]
      exact .stepped hs (readWord?_of_readStep hm)

end Term

def Denotes (k : FieldKind) (w : List Char) (v : Nat) : Prop :=
  ∃ a b n, DenotesProgression k w a b n ∧ a ≤ v ∧ v ≤ b ∧ n ∣ v - a

theorem not_denotes_of_mem {c : Char} (hm : c ∈ w) (hd : c.isDigit = false)
    (hc : c ∉ ['+', '*', '?', '-', '/']) : ¬ Denotes k w v := by
  rintro ⟨a, b, n, h, -⟩
  exact h.not_mem hd hc hm

inductive DenotesDay (d : Date) : FieldKind → List Char → Prop where
  | dayOfMonth {w : List Char} : Denotes .dayOfMonth w d.day → DenotesDay d .dayOfMonth w
  | lastDay : d = d.lastOfMonth → DenotesDay d .dayOfMonth ['L']
  | weekday {w : List Char} {v : Nat} : Denotes .dayOfWeek w v → v % 7 = d.daysFromSunday →
      DenotesDay d .dayOfWeek w
  | lastWeekday {w : List Char} {v : Nat} : readWord? w = some v → v % 7 = d.daysFromSunday →
      d.lastOfMonth.day < d.day + 7 → DenotesDay d .dayOfWeek (w ++ ['L'])
  | nthWeekday {w ds : List Char} {v i : Nat} : readWord? w = some v → readWord? ds = some i →
      v % 7 = d.daysFromSunday → 7 * i < d.day + 7 → d.day ≤ 7 * i →
      DenotesDay d .dayOfWeek (w ++ '#' :: ds)

namespace Term

theorem contains_iff_of_readProgression (h : readProgression k w = .ok t) :
    t.contains v = true ↔ Denotes k w v := by
  constructor
  · intro hv
    obtain ⟨a, b, n, rfl, -⟩ := isProgression_of_readProgression h
    simp only [contains, Bool.and_eq_true, decide_eq_true_eq, beq_iff_eq] at hv
    exact ⟨a, b, n, (denotesProgression_iff h).2 rfl, hv.1.1, hv.1.2, Nat.dvd_of_mod_eq_zero hv.2⟩
  · rintro ⟨a, b, n, hp, ha, hb, hn⟩
    obtain rfl := (denotesProgression_iff h).1 hp
    simp [contains, ha, hb, Nat.mod_eq_zero_of_dvd hn]

theorem readDayOfWeek_cases (h : readDayOfWeek w = .ok t) :
    (∃ ds v, w = ds ++ ['L'] ∧ readWord? ds = some v ∧ t = .lastWeekday v) ∨
      (∃ ds es v i, w = ds ++ '#' :: es ∧ readWord? ds = some v ∧ readWord? es = some i ∧
        1 ≤ i ∧ t = .nthWeekday v i) ∨
      readProgression .dayOfWeek w = .ok t := by
  rw [readDayOfWeek] at h
  split at h
  · next ds hl =>
    obtain ⟨v, hv, rfl⟩ := map_eq_ok_iff.1 h
    exact .inl ⟨ds, v, eq_append_of_dropLast?_eq_some hl, readWord?_of_readValue hv, rfl⟩
  · split at h
    · next ds es hcut =>
      rw [readNth] at h
      obtain ⟨v, hv, h⟩ := bind_eq_ok_iff.1 h
      split at h
      · simp at h
      · next i hi =>
        split at h
        · next hb =>
          cases h
          have hw := append_of_cutAt_eq_some hcut
          rw [List.append_assoc, List.singleton_append] at hw
          exact .inr (.inl ⟨ds, es, v, i, hw, readWord?_of_readValue hv, hi, hb.1, rfl⟩)
        · simp at h
    · exact .inr (.inr h)

theorem readDayOfMonth_cases (h : read .dayOfMonth w = .ok t) :
    (w = ['L'] ∧ t = .lastDay) ∨ readProgression .dayOfMonth w = .ok t := by
  rw [read] at h
  split at h
  · simp at h
  · split at h
    · next hl =>
      cases h
      exact .inl ⟨hl, rfl⟩
    · exact .inr h

theorem readDayOfWeek_of_read (h : read .dayOfWeek w = .ok t) : readDayOfWeek w = .ok t := by
  rw [read] at h
  split at h
  · simp at h
  · exact h

theorem contains_iff (h : read k w = .ok t) : t.contains v = true ↔ Denotes k w v := by
  by_cases hm : k = .dayOfMonth
  · subst hm
    rcases readDayOfMonth_cases h with ⟨rfl, rfl⟩ | hp
    · simp [contains, not_denotes_of_mem (c := 'L') (List.mem_singleton.2 rfl) (by decide) (by decide)]
    · exact contains_iff_of_readProgression hp
  by_cases hw : k = .dayOfWeek
  · subst hw
    rcases readDayOfWeek_cases (readDayOfWeek_of_read h) with
      ⟨ds, n, rfl, -, rfl⟩ | ⟨ds, es, n, i, rfl, -, -, -, rfl⟩ | hp
    · simp [contains, not_denotes_of_mem (c := 'L') (w := ds ++ ['L']) (by simp) (by decide) (by decide)]
    · simp [contains, not_denotes_of_mem (c := '#') (w := ds ++ '#' :: es) (by simp) (by decide)
        (by decide)]
    · exact contains_iff_of_readProgression hp
  · rw [read.eq_def] at h
    split at h
    · simp at h
    · exact contains_iff_of_readProgression (by simpa [hm, hw] using h)

theorem containsDay_eq_false_of_readProgression {d : Date} (h : readProgression k w = .ok t) :
    t.containsDay d = false := by
  obtain ⟨a, b, n, rfl, -⟩ := isProgression_of_readProgression h
  rfl

theorem not_mem_of_readProgression {c : Char} (hd : c.isDigit = false)
    (hc : c ∉ ['+', '*', '?', '-', '/']) (h : readProgression k w = .ok t) : c ∉ w := by
  obtain ⟨a, b, n, rfl, -⟩ := isProgression_of_readProgression h
  exact ((denotesProgression_iff h).2 rfl).not_mem hd hc

theorem denotesDay_iff_of_dayOfMonth {d : Date} (h : read .dayOfMonth w = .ok t) :
    t.contains d.day = true ∨ t.containsDay d = true ↔ DenotesDay d .dayOfMonth w := by
  rw [contains_iff h]
  constructor
  · rintro (hn | hd)
    · exact .dayOfMonth hn
    · rcases readDayOfMonth_cases h with ⟨rfl, rfl⟩ | hp
      · exact .lastDay (by simpa [containsDay] using hd)
      · simp [containsDay_eq_false_of_readProgression hp] at hd
  · intro hd
    cases hd with
    | dayOfMonth hn => exact .inl hn
    | lastDay hl =>
      cases h
      exact .inr (by simpa [containsDay] using hl)

theorem denotesDay_of_containsDay {d : Date} (h : read .dayOfWeek w = .ok t)
    (hd : t.containsDay d = true) : DenotesDay d .dayOfWeek w := by
  rcases readDayOfWeek_cases (readDayOfWeek_of_read h) with
    ⟨ds, v, rfl, hv, rfl⟩ | ⟨ds, es, v, i, rfl, hv, hi, -, rfl⟩ | hp
  · simp only [containsDay, Bool.and_eq_true, beq_iff_eq, decide_eq_true_eq] at hd
    exact .lastWeekday hv hd.1 hd.2
  · simp only [containsDay, Bool.and_eq_true, beq_iff_eq] at hd
    obtain ⟨hm, he⟩ := hd
    have hday : 1 ≤ d.day := d.civil_valid.2.2.1
    exact .nthWeekday hv hi hm (by omega) (by omega)
  · simp [containsDay_eq_false_of_readProgression hp] at hd

theorem not_mem_nthWeekday {ds es : List Char} {i : Nat} (hv : readWord? ds = some v)
    (hi : readWord? es = some i) : 'L' ∉ ds ++ '#' :: es := by
  have hds := not_mem_of_readWord? (c := 'L') (by decide) (by decide) hv
  have hes := not_mem_of_readWord? (c := 'L') (by decide) (by decide) hi
  simp [hds, hes]

theorem eq_lastWeekday {ds : List Char} (h : read .dayOfWeek (ds ++ ['L']) = .ok t)
    (hv : readWord? ds = some v) : t = .lastWeekday v := by
  rcases readDayOfWeek_cases (readDayOfWeek_of_read h) with
    ⟨ds', v', hw, hv', rfl⟩ | ⟨ds', es, v', i, hw, hv', hi, -, -⟩ | hp
  · obtain ⟨rfl, -⟩ := List.append_inj' hw rfl
    rw [hv] at hv'
    cases hv'
    rfl
  · exact absurd (hw ▸ by simp) (not_mem_nthWeekday hv' hi)
  · exact absurd (by simp) (not_mem_of_readProgression (c := 'L') (by decide) (by decide) hp)

theorem eq_nthWeekday {ds es : List Char} {i : Nat}
    (h : read .dayOfWeek (ds ++ '#' :: es) = .ok t) (hv : readWord? ds = some v)
    (hi : readWord? es = some i) : t = .nthWeekday v i ∧ 1 ≤ i := by
  have hds := not_mem_of_readWord? (c := '#') (by decide) (by decide) hv
  rcases readDayOfWeek_cases (readDayOfWeek_of_read h) with
    ⟨ds', v', hw, -, -⟩ | ⟨ds', es', v', i', hw, hv', hi', hpos, rfl⟩ | hp
  · exact absurd (hw ▸ by simp) (not_mem_nthWeekday hv hi)
  · have hds' := not_mem_of_readWord? (c := '#') (by decide) (by decide) hv'
    have hcut : cutAt ['#'] (ds ++ '#' :: es) = some (ds, es) := cutAt_singleton hds
    rw [hw, cutAt_singleton hds'] at hcut
    cases hcut
    rw [hv] at hv'
    rw [hi] at hi'
    cases hv'
    cases hi'
    exact ⟨rfl, hpos⟩
  · exact absurd (by simp) (not_mem_of_readProgression (c := '#') (by decide) (by decide) hp)

theorem denotesDay_iff_of_dayOfWeek {d : Date} (h : read .dayOfWeek w = .ok t) :
    t.contains d.daysFromSunday = true ∨ (d.daysFromSunday = 0 ∧ t.contains 7 = true) ∨
      t.containsDay d = true ↔ DenotesDay d .dayOfWeek w := by
  have hlt : d.daysFromSunday < 7 := by
    simp only [Date.daysFromSunday]
    omega
  constructor
  · rintro (hn | ⟨hs, hn⟩ | hd)
    · exact .weekday ((contains_iff h).1 hn) (Nat.mod_eq_of_lt hlt)
    · exact .weekday ((contains_iff h).1 hn) hs.symm
    · exact denotesDay_of_containsDay h hd
  · intro hd
    cases hd with
    | @weekday _ v hn hv =>
      have hc := (contains_iff h).2 hn
      have hle : v ≤ 7 := (contains_bounds_of_read h hc).2
      by_cases h7 : v = 7
      · subst h7
        exact .inr (.inl ⟨hv.symm, hc⟩)
      · rw [Nat.mod_eq_of_lt (show v < 7 by omega)] at hv
        exact .inl (hv ▸ hc)
    | lastWeekday hv hm hl =>
      rw [eq_lastWeekday h hv]
      exact .inr (.inr (by simp [containsDay, hm, hl]))
    | @nthWeekday _ _ v i hv hi hm hlo hhi =>
      obtain ⟨rfl, hpos⟩ := eq_nthWeekday h hv hi
      have hday : 1 ≤ d.day := d.civil_valid.2.2.1
      have he : (d.day - 1) / 7 + 1 = i := by omega
      exact .inr (.inr (by simp [containsDay, hm, he]))

end Term

def ListDenotes (k : FieldKind) (cs : List Char) (v : Nat) : Prop :=
  ∃ w ∈ cs.splitOn ',', Denotes k w v

def ListDenotesDay (k : FieldKind) (cs : List Char) (d : Date) : Prop :=
  ∃ w ∈ cs.splitOn ',', DenotesDay d k w

namespace Field

theorem exists_term_iff (f : Field k) {p : Term → Prop} {q : List Char → Prop}
    (h : ∀ w t, Term.read k w = .ok t → (p t ↔ q w)) :
    (∃ t ∈ f.terms, p t) ↔ ∃ w ∈ f.text.toList.splitOn ',', q w := by
  have hmap := readTerms_eq_mapM f.terms_eq
  constructor
  · rintro ⟨t, ht, hp⟩
    obtain ⟨w, hw, hr⟩ := exists_read_of_mem_mapM hmap ht
    exact ⟨w, hw, (h w t hr).1 hp⟩
  · rintro ⟨w, hw, hq⟩
    obtain ⟨t, ht, hr⟩ := exists_term_of_mem_mapM hmap hw
    exact ⟨t, ht, (h w t hr).2 hq⟩

theorem any_contains_iff (f : Field k) (v : Nat) :
    f.terms.any (·.contains v) = true ↔ ListDenotes k f.text.toList v := by
  rw [List.any_eq_true]
  exact f.exists_term_iff fun w t h => Term.contains_iff h

theorem admits_iff (f : Field k) (hk : k ≠ .dayOfWeek) :
    f.admits v = true ↔ ListDenotes k f.text.toList v := by
  rw [← f.any_contains_iff, admits]
  simp [hk]

theorem admitsDay_iff_of_dayOfMonth (f : Field .dayOfMonth) (d : Date) :
    f.admitsDay d = true ↔ ListDenotesDay .dayOfMonth f.text.toList d := by
  rw [ListDenotesDay, ← f.exists_term_iff fun w t h => Term.denotesDay_iff_of_dayOfMonth (d := d) h]
  simp only [admitsDay, admits, Bool.or_eq_true, Bool.and_eq_true, List.any_eq_true, and_or_left,
    exists_or]
  simp

theorem admitsDay_iff_of_dayOfWeek (f : Field .dayOfWeek) (d : Date) :
    f.admitsDay d = true ↔ ListDenotesDay .dayOfWeek f.text.toList d := by
  rw [ListDenotesDay, ← f.exists_term_iff fun w t h => Term.denotesDay_iff_of_dayOfWeek (d := d) h]
  simp only [admitsDay, admits, Bool.or_eq_true, Bool.and_eq_true, beq_iff_eq, List.any_eq_true,
    and_or_left, exists_or, or_assoc, true_and]
  have hsunday : (∃ t ∈ f.terms, d.daysFromSunday = 0 ∧ t.contains 7 = true) ↔
      d.daysFromSunday = 0 ∧ ∃ t ∈ f.terms, t.contains 7 = true := by
    constructor
    · rintro ⟨t, ht, hs, hc⟩
      exact ⟨hs, t, ht, hc⟩
    · rintro ⟨hs, t, ht, hc⟩
      exact ⟨t, ht, hs, hc⟩
  rw [hsunday]

end Field

end Timetable
