import Timetable.Duration.Printer
import Timetable.Proofs.Duration.WellFormed

/-! The canonical text of a duration reads back as the duration. -/

namespace Timetable

open Text

namespace TimeUnit

def all : List TimeUnit := [years, months, weeks, days, hours, minutes, seconds]

def calendar : List TimeUnit := [years, months, weeks, days]

def clock : List TimeUnit := [hours, minutes, seconds]

end TimeUnit

namespace Duration

variable {side : Side} {previous : Option TimeUnit} {u : TimeUnit} {rest : List Char}
  {ts : List Token}

theorem tokens_digits {digits ds : List Char} (h : ∀ c ∈ ds, c.isDigit = true) :
    tokens side previous digits (ds ++ rest) = tokens side previous (digits ++ ds) rest := by
  induction ds generalizing digits with
  | nil => simp
  | cons c ds ih =>
    have hc : c.isDigit = true := h c (by simp)
    rw [List.cons_append, tokens, if_pos hc, ih fun x hx => h x (List.mem_cons_of_mem c hx)]
    simp

theorem readAmount_decimal {n : Nat} (h : n ≤ maxAmount) : readAmount (decimal n) = .ok n := by
  have hw : n ≤ maxWord := by
    have : maxAmount ≤ maxWord := by decide
    omega
  rw [readAmount, readWord?, readNat?_decimal hw]
  exact if_neg (by omega)

theorem tokens_amount {n : Nat} {letter : Char} (hn : n ≤ maxAmount)
    (hl : letter.isDigit = false) (hu : unitOf side previous letter = .ok u)
    (ht : tokens side (some u) [] rest = .ok ts) :
    tokens side previous [] (decimal n ++ letter :: rest) = .ok (⟨n, u⟩ :: ts) := by
  rw [tokens_digits fun c hc => isDigit_of_mem_decimal hc, List.nil_append, tokens,
    if_neg (by simp [hl]), if_neg (by simp [decimal_ne_nil]), readAmount_decimal hn, hu]
  simp only [bind, Except.bind, ht]
  rfl

def amountTokens (n : UInt32) (u : TimeUnit) : List Token := if n = 0 then [] else [⟨n.toNat, u⟩]

def tokensOf (d : Duration) (us : List TimeUnit) : List Token :=
  us.flatMap fun u => amountTokens (d.amount u) u

theorem tokens_amountText {n : UInt32} {letter : Char} (hn : n.toNat ≤ maxAmount)
    (hl : letter.isDigit = false) (hu : unitOf side previous letter = .ok u)
    (ht : tokens side (if n = 0 then previous else some u) [] rest = .ok ts) :
    tokens side previous [] (amountText n letter ++ rest) = .ok (amountTokens n u ++ ts) := by
  rw [amountText, amountTokens]
  by_cases h : n = 0
  · rw [if_pos h, if_pos h]
    rw [if_pos h] at ht
    exact ht
  · rw [if_neg h, if_neg h, List.append_assoc]
    rw [if_neg h] at ht
    exact tokens_amount hn hl hu ht

variable {d : Duration}

theorem tokens_calendarText (h : d.Sound)
    (ht : ∀ v, tokens .calendar v [] rest = .ok ts) :
    tokens .calendar none [] (d.calendarText ++ rest) =
      .ok (d.tokensOf TimeUnit.calendar ++ ts) := by
  have hdays (v : Option TimeUnit) := tokens_amountText (h.amount_le .days) (by decide)
    (show unitOf .calendar v 'D' = .ok .days from rfl) (ht _)
  have hweeks (v : Option TimeUnit) := tokens_amountText (h.amount_le .weeks) (by decide)
    (show unitOf .calendar v 'W' = .ok .weeks from rfl) (hdays _)
  have hmonths (v : Option TimeUnit) (hv : v ≠ some .hours) :=
    tokens_amountText (h.amount_le .months) (by decide)
      (show unitOf .calendar v 'M' = .ok .months by simp [unitOf, hv]) (hweeks _)
  have hyears := tokens_amountText (h.amount_le .years) (by decide)
    (show unitOf .calendar none 'Y' = .ok .years from rfl) (hmonths _ (by split <;> simp))
  simpa [calendarText, tokensOf, TimeUnit.calendar, amount] using hyears

theorem tokens_clockText (h : d.Sound)
    (hm : unitOf side (if d.hours = 0 then previous else some .hours)
      (if d.hasCalendarLength || d.hours != 0 then 'M' else 'm') = .ok .minutes) :
    tokens side previous [] d.clockText = .ok (d.tokensOf TimeUnit.clock) := by
  have hnil (v : Option TimeUnit) : tokens side v [] [] = .ok [] := rfl
  have hseconds (v : Option TimeUnit) := tokens_amountText (h.amount_le .seconds) (by decide)
    (show unitOf side v 'S' = .ok .seconds from rfl) (hnil _)
  have hminutes := tokens_amountText (h.amount_le .minutes) (by split <;> decide) hm (hseconds _)
  have hhours := tokens_amountText (h.amount_le .hours) (by decide)
    (show unitOf side previous 'H' = .ok .hours from rfl) hminutes
  simpa [clockText, tokensOf, TimeUnit.clock, amount] using hhours

theorem tokens_separator :
    tokens .calendar previous [] ('T' :: rest) = tokens .time previous [] rest := by
  rw [tokens, if_neg (by decide)]
  rfl

def zeroUnit (r : Reference) : TimeUnit := r.unit?.getD .seconds

def unitsTokens (d : Duration) : List Token :=
  if d.hasLength then d.tokensOf TimeUnit.all else [⟨0, zeroUnit d.reference⟩]

theorem tokens_unitsText (h : d.Sound) :
    tokens .calendar none [] d.unitsText = .ok d.unitsTokens := by
  have hall : d.tokensOf TimeUnit.all =
      d.tokensOf TimeUnit.calendar ++ d.tokensOf TimeUnit.clock := by
    simp [tokensOf, TimeUnit.all, TimeUnit.calendar, TimeUnit.clock]
  have hcalendar (hc : d.hasCalendarLength = false) : d.calendarText = [] ∧
      d.tokensOf TimeUnit.calendar = [] := by
    simp only [hasCalendarLength, Bool.or_eq_false_iff, bne_eq_false_iff_eq] at hc
    simp [calendarText, tokensOf, TimeUnit.calendar, amountText, amountTokens, amount, hc]
  have hclock (ht : d.hasTimeLength = false) : d.clockText = [] ∧
      d.tokensOf TimeUnit.clock = [] := by
    simp only [hasTimeLength, Bool.or_eq_false_iff, bne_eq_false_iff_eq] at ht
    simp [clockText, tokensOf, TimeUnit.clock, amountText, amountTokens, amount, ht]
  rw [unitsText, unitsTokens, hall]
  cases hc : d.hasCalendarLength with
  | true =>
    cases ht : d.hasTimeLength with
    | true =>
      simp only [hasLength, hc, ht, Bool.or_true, Bool.not_true, Bool.and_true, if_true]
      apply tokens_calendarText h
      intro v
      rw [tokens_separator]
      exact tokens_clockText h (by simp [unitOf, hc])
    | false =>
      obtain ⟨h₁, h₂⟩ := hclock ht
      simp only [hasLength, hc, ht, h₁, h₂]
      exact tokens_calendarText h fun v => rfl
  | false =>
    obtain ⟨h₁, h₂⟩ := hcalendar hc
    cases ht : d.hasTimeLength with
    | true =>
      simp only [hasLength, hc, ht, h₁, h₂, List.nil_append]
      apply tokens_clockText h
      by_cases hh : d.hours = 0 <;> simp [hc, hh, unitOf]
    | false =>
      simp only [hasLength, hc, ht]
      cases d.reference <;> rfl

theorem withAmount_amount (d : Duration) (u : TimeUnit) : d.withAmount u (d.amount u) = d := by
  cases u <;> rfl

theorem addToken_of_zero {e : Duration} {n : UInt32} (hn : n.toNat ≤ maxAmount)
    (he : e.amount u = 0) : e.addToken ⟨n.toNat, u⟩ = .ok (e.withAmount u n) := by
  simp only [addToken, he, UInt32.toNat_zero, Nat.zero_add]
  rw [if_neg (by omega)]
  simp

theorem foldlM_tokensOf {e : Duration} {us : List TimeUnit} (h : d.Sound) (hu : us.Nodup)
    (he : ∀ u ∈ us, e.amount u = 0) :
    (d.tokensOf us).foldlM addToken e =
      .ok (us.foldl (fun e u => e.withAmount u (d.amount u)) e) := by
  induction us generalizing e with
  | nil => rfl
  | cons u us ih =>
    rw [List.nodup_cons] at hu
    have he' : ∀ v ∈ us, (e.withAmount u (d.amount u)).amount v = 0 := by
      intro v hv
      rw [amount_withAmount, if_neg (by rintro rfl; exact hu.1 hv)]
      exact he v (List.mem_cons_of_mem u hv)
    have ih := ih hu.2 he'
    rw [tokensOf, List.flatMap_cons, ← tokensOf, amountTokens, List.foldl_cons, ← ih]
    split
    · next h0 =>
      have hw := withAmount_amount e u
      rw [he u (by simp)] at hw
      rw [h0, hw]
      rfl
    · rw [List.singleton_append, List.foldlM_cons, addToken_of_zero (h.amount_le u) (he u (by simp))]
      rfl

def leadingUnit (d : Duration) : TimeUnit :=
  (TimeUnit.all.find? fun u => d.amount u ≠ 0).getD (zeroUnit d.reference)

def largestCalendarUnit? (d : Duration) : Option TimeUnit :=
  TimeUnit.calendar.find? fun u => d.amount u ≠ 0

theorem tokensOf_eq_cons {us : List TimeUnit} (h : us.find? (fun u => d.amount u ≠ 0) = some u) :
    ∃ n ts, d.tokensOf us = ⟨n, u⟩ :: ts := by
  induction us with
  | nil => simp at h
  | cons v us ih =>
    rw [tokensOf, List.flatMap_cons, ← tokensOf, amountTokens]
    by_cases hv : d.amount v = 0
    · rw [List.find?_cons_of_neg (by simp [hv])] at h
      rw [if_pos hv]
      exact ih h
    · rw [List.find?_cons_of_pos (by simp [hv])] at h
      cases h
      exact ⟨_, _, by rw [if_neg hv]; rfl⟩

theorem unitsTokens_eq_cons (d : Duration) : ∃ n ts, d.unitsTokens = ⟨n, d.leadingUnit⟩ :: ts := by
  rw [unitsTokens, leadingUnit]
  cases hf : TimeUnit.all.find? fun u => d.amount u ≠ 0 with
  | some u =>
    have hl : d.hasLength = true := by
      rw [← Bool.not_eq_false, hasLength_eq_false_iff]
      intro h
      exact absurd (h u) (by simpa using List.find?_some hf)
    rw [if_pos hl]
    exact tokensOf_eq_cons hf
  | none =>
    have hl : d.hasLength = false := by
      rw [hasLength_eq_false_iff]
      intro u
      have := List.find?_eq_none.1 hf u (by cases u <;> simp [TimeUnit.all])
      simpa using this
    rw [if_neg (by simp [hl])]
    exact ⟨0, [], rfl⟩

def blank (fromStart : Bool) (u : TimeUnit) : Duration :=
  if fromStart then starting (referenceOf u) else ending (referenceOf u)

theorem amount_blank (fromStart : Bool) (u v : TimeUnit) : (blank fromStart u).amount v = 0 := by
  cases fromStart <;> cases v <;> rfl

theorem foldlM_unitsTokens (h : d.Sound) (u : TimeUnit) :
    d.unitsTokens.foldlM addToken (blank d.fromStart u) =
      .ok { d with reference := (blank d.fromStart u).reference, event := none } := by
  have hfold : (d.tokensOf TimeUnit.all).foldlM addToken (blank d.fromStart u) =
      .ok { d with reference := (blank d.fromStart u).reference, event := none } := by
    rw [foldlM_tokensOf h (by decide) fun v _ => amount_blank _ _ v]
    cases d.fromStart <;> simp [TimeUnit.all, withAmount, amount, blank, starting, ending]
  rw [unitsTokens]
  split
  · exact hfold
  · next hl =>
    have hd : ∀ v, d.amount v = 0 := hasLength_eq_false_iff.1 (by simpa using hl)
    have hnil : d.tokensOf TimeUnit.all = [] := by simp [tokensOf, amountTokens, hd]
    have hstep : (blank d.fromStart u).addToken ⟨0, zeroUnit d.reference⟩ =
        .ok (blank d.fromStart u) := by
      have hw := withAmount_amount (blank d.fromStart u) (zeroUnit d.reference)
      rw [amount_blank] at hw
      have h0 := addToken_of_zero (n := 0) (by decide) (amount_blank d.fromStart u (zeroUnit d.reference))
      rw [hw] at h0
      exact h0
    rw [hnil] at hfold
    rw [List.foldlM_cons, hstep]
    exact hfold

def unitsWord (d : Duration) : List Char := (if d.fromStart then 'S' else 'E') :: d.unitsText

def suffixWords (d : Duration) : List (List Char) :=
  match d.reference.letter? with
  | none => []
  | some c => if d.impliedReference? = some d.reference then [] else [[c]]

def eventWords (d : Duration) : List (List Char) :=
  match d.event with
  | none => []
  | some name => [['E', '['] ++ name.toList ++ [']']]

def clauseWords (d : Duration) : List (List Char) := d.suffixWords ++ d.eventWords

theorem canonicalText_eq (d : Duration) :
    d.canonicalText = d.unitsWord ++ d.clauseWords.flatMap (' ' :: ·) := by
  have hs : d.suffixText = d.suffixWords.flatMap (' ' :: ·) := by
    rw [suffixText, suffixWords]
    cases d.reference.letter? with
    | none => rfl
    | some c =>
      simp only
      split <;> rfl
  have he : d.eventText = d.eventWords.flatMap (' ' :: ·) := by
    rw [eventText, eventWords]
    cases d.event <;> simp
  rw [canonicalText, hs, he, clauseWords, List.flatMap_append, List.append_assoc]
  rfl

theorem isBlank_eq_false_of_mem_amountText {n : UInt32} {letter c : Char}
    (hl : isBlank letter = false) (h : c ∈ amountText n letter) : isBlank c = false := by
  rw [amountText] at h
  split at h
  · simp at h
  · rcases List.mem_append.1 h with h | h
    · exact isBlank_eq_false_of_isDigit (isDigit_of_mem_decimal h)
    · rw [List.mem_singleton.1 h]
      exact hl

theorem isBlank_eq_false_of_mem_unitsText {c : Char} (h : c ∈ d.unitsText) : isBlank c = false := by
  have hcalendar : c ∈ d.calendarText → isBlank c = false := by
    simp only [calendarText, List.mem_append]
    rintro (((h | h) | h) | h)
    all_goals exact isBlank_eq_false_of_mem_amountText (by decide) h
  have hclock : c ∈ d.clockText → isBlank c = false := by
    simp only [clockText, List.mem_append]
    rintro ((h | h) | h)
    · exact isBlank_eq_false_of_mem_amountText (by decide) h
    · exact isBlank_eq_false_of_mem_amountText (by split <;> decide) h
    · exact isBlank_eq_false_of_mem_amountText (by decide) h
  rw [unitsText] at h
  split at h
  · simp only [List.mem_cons, List.not_mem_nil, or_false] at h
    rcases h with rfl | rfl
    · decide
    · cases d.reference <;> decide
  · split at h
    · rcases List.mem_append.1 h with h | h
      · exact hcalendar h
      · rcases List.mem_cons.1 h with rfl | h
        · decide
        · exact hclock h
    · rcases List.mem_append.1 h with h | h
      · exact hcalendar h
      · exact hclock h

theorem isWord_unitsWord (d : Duration) : IsWord d.unitsWord := by
  refine ⟨by simp [unitsWord], ?_⟩
  intro c hc
  rcases List.mem_cons.1 hc with rfl | hc
  · split <;> decide
  · exact isBlank_eq_false_of_mem_unitsText hc

theorem exists_letter_of_mem_suffixWords {w : List Char} (h : w ∈ d.suffixWords) :
    ∃ c, d.reference.letter? = some c ∧ w = [c] := by
  rw [suffixWords] at h
  split at h
  · simp at h
  · next c hc =>
    split at h
    · simp at h
    · exact ⟨c, hc, List.mem_singleton.1 h⟩

theorem exists_name_of_mem_eventWords {w : List Char} (h : w ∈ d.eventWords) :
    ∃ name, d.event = some name ∧ w = 'E' :: '[' :: (name.toList ++ [']']) := by
  rw [eventWords] at h
  split at h
  · simp at h
  · next name he => exact ⟨name, he, List.mem_singleton.1 h⟩

theorem isWord_of_mem_suffixWords {w : List Char} (h : w ∈ d.suffixWords) : IsWord w := by
  obtain ⟨c, hc, rfl⟩ := exists_letter_of_mem_suffixWords h
  refine ⟨by simp, ?_⟩
  intro x hx
  obtain rfl := List.mem_singleton.1 hx
  cases hr : d.reference <;> rw [hr] at hc <;> cases hc <;> decide

theorem isWord_of_mem_eventWords (h : d.Sound) {w : List Char} (hw : w ∈ d.eventWords) :
    IsWord w := by
  obtain ⟨name, he, rfl⟩ := exists_name_of_mem_eventWords hw
  refine ⟨by simp, ?_⟩
  intro c hc
  simp only [List.mem_append, List.mem_cons, List.not_mem_nil, or_false] at hc
  rcases hc with rfl | rfl | hc | rfl
  · decide
  · decide
  · exact (h.event name he).2 c hc
  · decide

theorem isWord_of_mem_clauseWords (h : d.Sound) {w : List Char} (hw : w ∈ d.clauseWords) :
    IsWord w := by
  rcases List.mem_append.1 hw with hw | hw
  · exact isWord_of_mem_suffixWords hw
  · exact isWord_of_mem_eventWords h hw

theorem words_canonicalText (h : d.Sound) :
    words d.canonicalText = d.unitsWord :: d.clauseWords := by
  rw [canonicalText_eq, ← intercalate_cons_eq]
  apply words_intercalate
  intro w hw
  rcases List.mem_cons.1 hw with rfl | hw
  · exact d.isWord_unitsWord
  · exact isWord_of_mem_clauseWords h hw

theorem addClauses_eventWords {e : Duration} {suffixed : Bool} (h : d.Sound)
    (he : e.event = none) :
    e.addClauses suffixed d.eventWords = .ok { e with event := d.event } := by
  cases hd : d.event with
  | none =>
    rw [eventWords, hd, addClauses, ← he]
  | some name =>
    have hn : eventName? (['E', '['] ++ name.toList ++ [']']) = some name.toList :=
      dropLast?_append_singleton ']' name.toList
    have hne : name.toList.isEmpty = false := by
      rw [List.isEmpty_eq_false_iff]
      exact (h.event name hd).1
    simp only [eventWords, hd, addClauses, hn, hne, he, Option.isSome_none, Bool.false_eq_true,
      if_false, withEvent, String.ofList_toList]

theorem addClauses_words {e : Duration} (h : d.Sound) (he : e.event = none) :
    e.addClauses false d.clauseWords =
      .ok { e with
        reference := if d.suffixWords = [] then e.reference else d.reference
        event := d.event } := by
  rw [clauseWords, suffixWords]
  split
  · exact addClauses_eventWords h he
  · next c hc =>
    split
    · exact addClauses_eventWords h he
    · have hn : eventName? [c] = none := by
        rw [eventName?]
        intro rest heq
        simp at heq
      have hs : suffix? [c] = some d.reference := Reference.ofLetter?_eq_some_iff.2 hc
      simp only [List.singleton_append, addClauses, hn, hs, Bool.false_eq_true, if_false]
      exact addClauses_eventWords h he

theorem reference_blank (fromStart : Bool) (u : TimeUnit) :
    (blank fromStart u).reference =
      if (referenceOf u).isAnchored then referenceOf u
      else if fromStart then .start else .stop := by
  cases fromStart <;> cases u <;> rfl

theorem leadingUnit_eq (d : Duration) :
    d.leadingUnit = (d.largestCalendarUnit?.or (TimeUnit.clock.find? fun u => d.amount u ≠ 0)).getD
      (zeroUnit d.reference) := by
  rw [leadingUnit, largestCalendarUnit?, ← List.find?_append]
  rfl

theorem referenceOf_leadingUnit {r : Reference} (h : d.impliedReference? = some r) :
    referenceOf d.leadingUnit = r ∧ (referenceOf d.leadingUnit).isAnchored = true := by
  rw [impliedReference?] at h
  rw [leadingUnit]
  simp only [TimeUnit.all, List.find?_cons, amount]
  split at h
  · next hy =>
    cases h
    simp [hy, referenceOf, Reference.isAnchored, Reference.period?]
  next hy =>
  split at h
  · next hm =>
    cases h
    simp_all [referenceOf, Reference.isAnchored, Reference.period?]
  next hm =>
  split at h
  · next hw =>
    cases h
    simp_all [referenceOf, Reference.isAnchored, Reference.period?]
  next hw =>
  split at h
  · next hd =>
    cases h
    simp_all [referenceOf, Reference.isAnchored, Reference.period?]
  next hd =>
  split at h
  · simp at h
  · next ht =>
    have hclock : d.hours = 0 ∧ d.minutes = 0 ∧ d.seconds = 0 := by
      simpa [hasTimeLength, and_assoc] using ht
    have hall : ∀ n : UInt32, n = 0 → decide (n ≠ 0) = false := by simp
    simp only [hclock, Decidable.not_not.1 hy, Decidable.not_not.1 hm, Decidable.not_not.1 hw,
      Decidable.not_not.1 hd, hall 0 rfl]
    cases hr : d.reference <;> rw [hr] at h <;> cases h <;> exact ⟨rfl, rfl⟩

def reread (d : Duration) : Duration :=
  if d.reference.isAnchored then d
  else
    match d.largestCalendarUnit? with
    | some u => { d with reference := referenceOf u }
    | none => d

theorem isAnchored_referenceOf_iff : (referenceOf u).isAnchored = true ↔ u ∈ TimeUnit.calendar := by
  cases u <;> decide

theorem reference_blank_leadingUnit (h : d.Sound) (ha : d.reference.isAnchored = false) :
    { d with reference := (blank d.fromStart d.leadingUnit).reference } = d.reread := by
  have hlead := d.leadingUnit_eq
  rw [reread, if_neg (by simp [ha]), reference_blank]
  cases hu : d.largestCalendarUnit? with
  | some u =>
    rw [hu] at hlead
    have hm : u ∈ TimeUnit.calendar := List.mem_of_find?_eq_some hu
    simp only [Option.some_or, Option.getD_some] at hlead
    rw [hlead, if_pos (isAnchored_referenceOf_iff.2 hm)]
  | none =>
    rw [hu, Option.none_or] at hlead
    have hn : (referenceOf d.leadingUnit).isAnchored = false := by
      rw [hlead]
      cases hc : TimeUnit.clock.find? fun u => d.amount u ≠ 0 with
      | some u =>
        have hm := List.mem_of_find?_eq_some hc
        simp only [TimeUnit.clock, List.mem_cons, List.not_mem_nil, or_false] at hm
        rcases hm with rfl | rfl | rfl <;> rfl
      | none => cases hr : d.reference <;> simp [hr, Reference.isAnchored, Reference.period?] at ha <;> rfl
    have href : (if d.fromStart = true then Reference.start else .stop) = d.reference := by
      cases hr : d.reference <;> simp [hr, Reference.isAnchored, Reference.period?] at ha
      · rw [if_pos (h.start hr)]
      · rw [if_neg (by simp [h.stop hr])]
    rw [if_neg (by simp [hn]), href]

theorem reread_eq (h : d.Sound) :
    { d with reference := if d.suffixWords = [] then (blank d.fromStart d.leadingUnit).reference
                          else d.reference } = d.reread := by
  cases ha : d.reference.isAnchored with
  | false =>
    have hl : d.reference.letter? = none := by
      rw [Reference.isAnchored_iff_letter?] at ha
      simpa using ha
    have hw : d.suffixWords = [] := by rw [suffixWords, hl]
    rw [if_pos hw]
    exact reference_blank_leadingUnit h ha
  | true =>
    rw [reread, if_pos ha]
    rw [Reference.isAnchored_iff_letter?] at ha
    obtain ⟨c, hc⟩ := Option.isSome_iff_exists.1 ha
    by_cases hi : d.impliedReference? = some d.reference
    · obtain ⟨hr, hanchored⟩ := referenceOf_leadingUnit hi
      rw [reference_blank, if_pos hanchored, hr, ite_self]
    · have hw : d.suffixWords ≠ [] := by simp [suffixWords, hc, hi]
      rw [if_neg hw]

theorem something_reread (h : d.WellFormed) :
    (!d.reread.hasLength && d.reread.event.isNone && !d.reread.reference.isAnchored) = false := by
  have hd : (!d.hasLength && d.event.isNone && !d.reference.isAnchored) = false := by
    rcases h.something with hl | he | ha
    · simp [hl]
    · simp only [Option.isSome_iff_exists] at he
      obtain ⟨name, he⟩ := he
      simp [he]
    · simp [ha]
  rw [reread]
  split
  · exact hd
  · split
    · next u hu =>
      have hm : u ∈ TimeUnit.calendar := List.mem_of_find?_eq_some hu
      simp [isAnchored_referenceOf_iff.2 hm]
    · exact hd

theorem ofWords_canonical (h : d.WellFormed) (text : String) :
    ofWords d.fromStart d.unitsText d.clauseWords text = .ok d.reread := by
  obtain ⟨n, ts, htokens⟩ := d.unitsTokens_eq_cons
  have hfold := foldlM_unitsTokens h.toSound d.leadingUnit
  have hclauses : addClauses
      { d with reference := (blank d.fromStart d.leadingUnit).reference, event := none } false
      d.clauseWords = .ok d.reread := by
    rw [addClauses_words h.toSound rfl, ← reread_eq h.toSound]
  rw [htokens] at hfold
  rw [ofWords, tokens_unitsText h.toSound, htokens]
  simp only [bind, Except.bind]
  rw [← blank, hfold]
  simp only [hclauses]
  rw [something_reread h]
  rfl

theorem parse_canonical (h : d.WellFormed) : parse d.canonical = .ok d.reread := by
  have hread := ofWords_canonical h
  rw [parse, canonical, String.toList_ofList, ofText, words_canonicalText h.toSound, unitsWord]
  cases hs : d.fromStart with
  | true =>
    rw [hs] at hread
    exact hread _
  | false =>
    rw [hs] at hread
    exact hread _

theorem hasCalendarLength_iff :
    d.hasCalendarLength = true ↔ ∃ u, d.largestCalendarUnit? = some u := by
  rw [← Option.isSome_iff_exists, largestCalendarUnit?, List.find?_isSome]
  simp only [TimeUnit.calendar, List.mem_cons, List.not_mem_nil, or_false, exists_eq_or_imp,
    exists_eq_left, decide_eq_true_eq]
  simp only [hasCalendarLength, amount, Bool.or_eq_true, bne_iff_ne, or_assoc]

theorem reread_eq_self (h : d.reference.isAnchored = true ∨ d.hasCalendarLength = false) :
    d.reread = d := by
  rw [reread]
  split
  · rfl
  · next ha =>
    split
    · next u hu =>
      rcases h with h | h
      · exact absurd h ha
      · rw [hasCalendarLength_iff.2 ⟨u, hu⟩] at h
        cases h
    · rfl

/-- Every duration that is read is well-formed, and the text of a well-formed one reads back; an additive
one with a calendar length takes the reference point of its largest calendar unit. -/
theorem wellFormed_of_parse_and_parse_canonical :
    (∀ text d, parse text = .ok d → d.WellFormed) ∧
      ∀ d : Duration, d.WellFormed →
        (d.reference.isAnchored = true ∨ d.hasCalendarLength = false →
          parse d.canonical = .ok d) ∧
        (d.reference.isAnchored = false → d.hasCalendarLength = true →
          ∃ u, d.largestCalendarUnit? = some u ∧
            parse d.canonical = .ok { d with reference := referenceOf u }) := by
  refine ⟨fun text d => wellFormed_of_parse, fun d h => ⟨fun hd => ?_, fun ha hc => ?_⟩⟩
  · rw [parse_canonical h, reread_eq_self hd]
  · obtain ⟨u, hu⟩ := hasCalendarLength_iff.1 hc
    refine ⟨u, hu, ?_⟩
    rw [parse_canonical h, reread, if_neg (by simp [ha]), hu]

def untilDeployed : Duration :=
  { ending .month with days := 2, hours := 4, event := some "deploy" }

theorem wellFormed_untilDeployed : untilDeployed.WellFormed ∧
    parse "E2DT4H M E[deploy]" = .ok untilDeployed ∧
    parse untilDeployed.canonical = .ok untilDeployed ∧
    parse { untilDeployed with reference := .stop }.canonical =
      .ok { untilDeployed with reference := .day } := by
  have hread : parse "E2DT4H M E[deploy]" = .ok untilDeployed := by rfl
  have hw := wellFormed_of_parse_and_parse_canonical.1 _ _ hread
  have hw' : { untilDeployed with reference := .stop }.WellFormed :=
    ⟨⟨hw.amount_le, by decide, by decide, hw.event⟩, .inl (by decide)⟩
  refine ⟨hw, hread, (wellFormed_of_parse_and_parse_canonical.2 _ hw).1 (.inl rfl), ?_⟩
  obtain ⟨u, hu, hp⟩ := (wellFormed_of_parse_and_parse_canonical.2 _ hw').2 rfl rfl
  cases hu
  exact hp

end Duration

end Timetable
