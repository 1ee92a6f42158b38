import Timetable.Proofs.Duration.RoundTrip

/-! The amounts of a duration as they are written: numbers before the letters of their units. -/

namespace Timetable

open Text

namespace Duration

structure Measure where
  digits : List Char
  letter : Char
  ne_nil : digits ≠ []
  isDigit : ∀ c ∈ digits, c.isDigit = true
  value_le : Nat.ofDigitChars 10 digits 0 ≤ maxAmount

namespace Measure

def value (m : Measure) : Nat := Nat.ofDigitChars 10 m.digits 0

def text (m : Measure) : List Char := m.digits ++ [m.letter]

end Measure

def letters : Side → List Char
  | .calendar => ['Y', 'M', 'W', 'D', 'H', 'm', 'S']
  | .time => ['H', 'M', 'm', 'S']

def letterUnit (minutes : Bool) : Char → TimeUnit
  | 'Y' => .years
  | 'M' => if minutes then .minutes else .months
  | 'W' => .weeks
  | 'D' => .days
  | 'H' => .hours
  | 'S' => .seconds
  | _ => .minutes

/-- The amounts on one side of the `T`, where `M` means minutes behind it and directly after hours. -/
def measured (side : Side) (minutes : Bool) : List Measure → List Token
  | [] => []
  | m :: ms =>
    ⟨m.value, letterUnit minutes m.letter⟩ :: measured side (side = .time || m.letter = 'H') ms

def measuresText (ms : List Measure) : List Char := ms.flatMap Measure.text

def behindT : Option (List Measure) → List Char
  | none => []
  | some ms => 'T' :: measuresText ms

variable {side : Side} {previous : Option TimeUnit} {u : TimeUnit} {c : Char} {m : Measure}
  {ms : List Measure} {ts : List Token} {digits rest cs : List Char} {n : Nat}

theorem measuresText_cons : measuresText (m :: ms) = m.digits ++ m.letter :: measuresText ms := by
  simp [measuresText, Measure.text]

def minutesAfter (side : Side) (previous : Option TimeUnit) : Bool :=
  side = .time || previous = some .hours

theorem unitOf_eq_ok_iff : unitOf side previous c = .ok u ↔
    c ∈ letters side ∧ u = letterUnit (minutesAfter side previous) c := by
  constructor
  · intro h
    unfold unitOf at h
    cases side <;> split at h <;> simp_all [letters, letterUnit, minutesAfter] <;>
      split at h <;> simp_all
  · rintro ⟨hc, rfl⟩
    have hmonths : unitOf side previous 'M' =
        .ok (letterUnit (minutesAfter side previous) 'M') := by
      simp [unitOf, letterUnit, minutesAfter]
    cases side <;> simp only [letters, List.mem_cons, List.not_mem_nil, or_false] at hc
    · rcases hc with rfl | rfl | rfl | rfl | rfl | rfl | rfl <;> first | exact hmonths | rfl
    · rcases hc with rfl | rfl | rfl | rfl <;> first | exact hmonths | rfl

theorem readAmount_eq_ok_iff (hne : digits ≠ []) (hd : ∀ c ∈ digits, c.isDigit = true) :
    readAmount digits = .ok n ↔ n = Nat.ofDigitChars 10 digits 0 ∧ n ≤ maxAmount := by
  have hvalue : digitsValue? digits = some (Nat.ofDigitChars 10 digits 0) := by
    rw [digitsValue?, if_pos]
    simpa [hne] using hd
  have hread : readWord? digits = (some (Nat.ofDigitChars 10 digits 0)).filter (· ≤ maxWord) := by
    rw [readWord?, readNat?.eq_2 _ _ _, hvalue]
    rintro rest rfl
    exact absurd (hd '+' (by simp)) (by decide)
  have hmax : maxAmount ≤ maxWord := by decide
  rw [readAmount, hread, Option.filter_some]
  by_cases hw : Nat.ofDigitChars 10 digits 0 ≤ maxWord
  · by_cases ha : maxAmount < Nat.ofDigitChars 10 digits 0
    · simp [hw, ha]
      omega
    · simp [hw, ha, eq_comm]
      omega
  · simp [hw]
    omega

theorem isDigit_of_mem_letters (h : c ∈ letters side) : c.isDigit = false := by
  cases side <;> simp only [letters, List.mem_cons, List.not_mem_nil, or_false] at h
  · rcases h with rfl | rfl | rfl | rfl | rfl | rfl | rfl <;> decide
  · rcases h with rfl | rfl | rfl | rfl <;> decide

theorem minutesAfter_letterUnit {minutes : Bool} (h : c ∈ letters side) :
    minutesAfter side (some (letterUnit minutes c)) = (side = .time || c = 'H') := by
  cases side with
  | time => rfl
  | calendar =>
    simp only [letters, List.mem_cons, List.not_mem_nil, or_false] at h
    rcases h with rfl | rfl | rfl | rfl | rfl | rfl | rfl <;> first | rfl | cases minutes <;> rfl

theorem tokens_measure (hl : m.letter ∈ letters side)
    (ht : tokens side (some (letterUnit (minutesAfter side previous) m.letter)) [] rest = .ok ts) :
    tokens side previous [] (m.digits ++ m.letter :: rest) =
      .ok (⟨m.value, letterUnit (minutesAfter side previous) m.letter⟩ :: ts) := by
  have hn : readAmount m.digits = .ok m.value :=
    (readAmount_eq_ok_iff m.ne_nil m.isDigit).2 ⟨rfl, m.value_le⟩
  rw [tokens_digits m.isDigit, List.nil_append, tokens,
    if_neg (by simp [isDigit_of_mem_letters hl]), if_neg (by simp [m.ne_nil]), hn,
    unitOf_eq_ok_iff.2 ⟨hl, rfl⟩]
  simp only [bind, Except.bind, ht]
  rfl

theorem tokens_measuresText (hl : ∀ m ∈ ms, m.letter ∈ letters side)
    (hrest : ∀ previous, tokens side previous [] rest = .ok ts) (previous : Option TimeUnit) :
    tokens side previous [] (measuresText ms ++ rest) =
      .ok (measured side (minutesAfter side previous) ms ++ ts) := by
  induction ms generalizing previous with
  | nil => exact hrest previous
  | cons m ms ih =>
    have hm := hl m (by simp)
    have htail := ih (fun x hx => hl x (List.mem_cons_of_mem m hx))
      (some (letterUnit (minutesAfter side previous) m.letter))
    rw [minutesAfter_letterUnit hm] at htail
    rw [measuresText_cons, List.append_assoc, List.cons_append, tokens_measure hm htail]
    rfl

theorem tokens_text {time : Option (List Measure)} (hc : ∀ m ∈ ms, m.letter ∈ letters .calendar)
    (ht : ∀ m ∈ time.getD [], m.letter ∈ letters .time) :
    tokens .calendar none [] (measuresText ms ++ behindT time) =
      .ok (measured .calendar false ms ++ measured .time true (time.getD [])) := by
  apply tokens_measuresText hc
  intro previous
  cases time with
  | none => rfl
  | some ms =>
    have hnil : ∀ previous, tokens .time previous [] [] = .ok [] := fun _ => rfl
    have h := tokens_measuresText ht hnil previous
    rw [List.append_nil, List.append_nil] at h
    exact h

theorem exists_measures_of_tokens (h : tokens side previous digits cs = .ok ts)
    (hd : ∀ c ∈ digits, c.isDigit = true) : ∃ ms time,
      digits ++ cs = measuresText ms ++ behindT time ∧ (∀ m ∈ ms, m.letter ∈ letters side) ∧
      (∀ m ∈ time.getD [], m.letter ∈ letters .time) ∧ (side = .time → time = none) ∧
      ts = measured side (minutesAfter side previous) ms ++ measured .time true (time.getD []) := by
  -- by what is left of the text; a digit moves over to those that the reader holds
  induction cs generalizing side previous digits ts with
  | nil =>
    rw [tokens] at h
    split at h
    · next hnil =>
      cases h
      rw [List.isEmpty_iff.1 hnil]
      exact ⟨[], none, rfl, by simp, by simp, fun _ => rfl, rfl⟩
    · cases h
  | cons c cs ih =>
    rcases tokens_cons_cases h with ⟨hc, h⟩ | ⟨rfl, rfl, rfl, h⟩ | ⟨hne, n, u, us, hn, hu, hus, rfl⟩
    · obtain ⟨ms, time, htext, hrest⟩ := ih h (by simpa [or_imp, forall_and] using ⟨hd, hc⟩)
      rw [List.append_assoc, List.singleton_append] at htext
      exact ⟨ms, time, htext, hrest⟩
    · obtain ⟨ms, time, htext, hl, -, hnone, rfl⟩ := ih h (by simp)
      cases hnone rfl
      refine ⟨[], some ms, ?_, by simp, hl, ?_, List.append_nil _⟩
      · rw [List.nil_append, behindT, ← List.append_nil (measuresText ms)]
        exact congrArg _ htext
      · intro hside
        cases hside
    · obtain ⟨rfl, hle⟩ := (readAmount_eq_ok_iff hne hd).1 hn
      obtain ⟨hc, rfl⟩ := unitOf_eq_ok_iff.1 hu
      obtain ⟨ms, time, htext, hl, ht, hnone, rfl⟩ := ih hus (by simp)
      refine ⟨⟨digits, c, hne, hd, hle⟩ :: ms, time, ?_, ?_, ht, hnone, ?_⟩
      · rw [measuresText_cons, List.append_assoc, List.cons_append, ← htext]
        rfl
      · simpa [hc] using hl
      · rw [minutesAfter_letterUnit hc]
        rfl

def total : List Token → TimeUnit → Nat
  | [], _ => 0
  | t :: ts, u => (if t.unit = u then t.amount else 0) + total ts u

variable {d d' : Duration} {t : Token}

structure Adds (ts : List Token) (d d' : Duration) : Prop where
  amount : ∀ u, (d'.amount u).toNat = (d.amount u).toNat + total ts u
  reference : d'.reference = d.reference
  fromStart : d'.fromStart = d.fromStart
  event : d'.event = d.event

theorem addToken_eq_ok_iff : d.addToken t = .ok d' ↔
    (d.amount t.unit).toNat + t.amount ≤ maxAmount ∧
      d' = d.withAmount t.unit (UInt32.ofNat ((d.amount t.unit).toNat + t.amount)) := by
  rw [addToken]
  by_cases h : maxAmount < (d.amount t.unit).toNat + t.amount
  · simp only [if_pos h, reduceCtorEq, false_iff]
    rintro ⟨hle, -⟩
    omega
  · simp only [if_neg h, Except.ok.injEq]
    exact ⟨fun he => ⟨by omega, he.symm⟩, fun he => he.2.symm⟩

theorem adds_addToken (h : d.addToken t = .ok d') : Adds [t] d d' := by
  obtain ⟨hle, rfl⟩ := addToken_eq_ok_iff.1 h
  refine ⟨fun u => ?_, by simp, by simp, by simp⟩
  have hsize : maxAmount < UInt32.size := by decide
  rw [amount_withAmount, total]
  by_cases hu : u = t.unit
  · subst hu
    rw [if_pos rfl, if_pos rfl, UInt32.toNat_ofNat_of_lt' (by omega)]
    rfl
  · rw [if_neg hu, if_neg (Ne.symm hu)]
    rfl

theorem adds_of_foldlM (h : ts.foldlM addToken d = .ok d') : Adds ts d d' := by
  induction ts generalizing d with
  | nil =>
    cases h
    exact ⟨fun _ => rfl, rfl, rfl, rfl⟩
  | cons t ts ih =>
    rw [List.foldlM_cons] at h
    obtain ⟨e, he, h⟩ := bind_eq_ok_iff.1 h
    have hfirst := adds_addToken he
    have hrest := ih h
    refine ⟨fun u => ?_, hrest.reference.trans hfirst.reference,
      hrest.fromStart.trans hfirst.fromStart, hrest.event.trans hfirst.event⟩
    have hu := hfirst.amount u
    rw [total] at hu ⊢
    rw [hrest.amount, hu, total]
    omega

theorem exists_foldlM_addToken (h : ∀ u, (d.amount u).toNat + total ts u ≤ maxAmount) :
    ∃ d', ts.foldlM addToken d = .ok d' := by
  induction ts generalizing d with
  | nil => exact ⟨d, rfl⟩
  | cons t ts ih =>
    have ht := h t.unit
    rw [total, if_pos rfl] at ht
    obtain ⟨e, he⟩ : ∃ e, d.addToken t = .ok e := ⟨_, addToken_eq_ok_iff.2 ⟨by omega, rfl⟩⟩
    have hrest : ∀ u, (e.amount u).toNat + total ts u ≤ maxAmount := by
      intro u
      have hu := h u
      rw [total] at hu
      rw [(adds_addToken he).amount, total, total]
      omega
    obtain ⟨d', hd'⟩ := ih hrest
    exact ⟨d', by rw [List.foldlM_cons, he]; exact hd'⟩

end Duration

end Timetable
