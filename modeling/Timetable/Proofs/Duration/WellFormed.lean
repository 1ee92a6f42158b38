import Timetable.Expression
import Timetable.Proofs.Result
import Timetable.Proofs.Text.Words

namespace Timetable

open Text

theorem Reference.ofLetter?_ne {c : Char} {r : Reference} (h : Reference.ofLetter? c = some r) :
    r ≠ .start ∧ r ≠ .stop := by
  rw [Reference.ofLetter?_eq_some_iff] at h
  cases r <;> simp_all [Reference.letter?]

namespace Duration

structure Sound (d : Duration) : Prop where
  amount_le : ∀ u, (d.amount u).toNat ≤ maxAmount
  start : d.reference = .start → d.fromStart = true
  stop : d.reference = .stop → d.fromStart = false
  event : ∀ name, d.event = some name → IsWord name.toList

structure WellFormed (d : Duration) : Prop extends d.Sound where
  something : d.hasLength = true ∨ d.event.isSome = true ∨ d.reference.isAnchored = true

variable {d d' : Duration}

theorem sound_ending (u : TimeUnit) : (ending (referenceOf u)).Sound := by
  refine ⟨?_, ?_, ?_, by simp [ending]⟩
  · intro v
    cases v <;> simp [ending, amount]
  · cases u <;> simp [ending, referenceOf]
  · intro _
    rfl

theorem sound_starting (u : TimeUnit) : (starting (referenceOf u)).Sound := by
  refine ⟨?_, ?_, ?_, by simp [starting]⟩
  · intro v
    cases v <;> simp [starting, amount]
  · intro _
    rfl
  · cases u <;> simp [starting, referenceOf]

theorem Sound.withAmount (h : d.Sound) (u : TimeUnit) {n : UInt32} (hn : n.toNat ≤ maxAmount) :
    (d.withAmount u n).Sound := by
  refine ⟨?_, by simpa using h.start, by simpa using h.stop, by simpa using h.event⟩
  intro v
  rw [amount_withAmount]
  split
  · exact hn
  · exact h.amount_le v

theorem Sound.addToken {t : Token} (h : d.Sound) (ht : d.addToken t = .ok d') : d'.Sound := by
  simp only [Duration.addToken] at ht
  split at ht
  · simp at ht
  · next hle =>
    simp only [Except.ok.injEq] at ht
    rw [← ht]
    apply h.withAmount
    rw [UInt32.toNat_ofNat_of_lt' (by simp only [maxAmount, UInt32.size] at *; omega)]
    omega

theorem Sound.foldlM_addToken {ts : List Token} (h : d.Sound)
    (ht : ts.foldlM Duration.addToken d = .ok d') : d'.Sound := by
  induction ts generalizing d with
  | nil =>
    simp only [List.foldlM_nil] at ht
    cases ht
    exact h
  | cons t ts ih =>
    rw [List.foldlM_cons, bind_eq_ok_iff] at ht
    obtain ⟨e, he, ht⟩ := ht
    exact ih (h.addToken he) ht

theorem Sound.withReference {r : Reference} (h : d.Sound) (hr : r ≠ .start ∧ r ≠ .stop) :
    { d with reference := r }.Sound :=
  ⟨h.amount_le, fun he => absurd he hr.1, fun he => absurd he hr.2, h.event⟩

theorem Sound.withEvent {name : List Char} (h : d.Sound) (hn : name ≠ [])
    (hb : ∀ c ∈ name, isBlank c = false) : (d.withEvent (String.ofList name)).Sound := by
  refine ⟨h.amount_le, h.start, h.stop, ?_⟩
  intro n hn'
  simp only [Duration.withEvent, Option.some.injEq] at hn'
  rw [← hn', String.toList_ofList]
  exact ⟨hn, hb⟩

theorem tokens_cons_cases {side : Side} {previous : Option TimeUnit} {c : Char}
    {digits cs : List Char} {ts : List Token} (h : tokens side previous digits (c :: cs) = .ok ts) :
    (c.isDigit = true ∧ tokens side previous (digits ++ [c]) cs = .ok ts) ∨
    (digits = [] ∧ c = 'T' ∧ side = .calendar ∧ tokens .time previous [] cs = .ok ts) ∨
    (digits ≠ [] ∧ ∃ n u rest, readAmount digits = .ok n ∧ unitOf side previous c = .ok u ∧
      tokens side (some u) [] cs = .ok rest ∧ ts = ⟨n, u⟩ :: rest) := by
  rw [tokens] at h
  split at h
  · next hc => exact .inl ⟨hc, h⟩
  · split at h
    · next hnil =>
      split at h
      · next ht => exact .inr (.inl ⟨List.isEmpty_iff.1 hnil, ht.1, ht.2, h⟩)
      · cases h
    · next hne =>
      obtain ⟨n, hn, h⟩ := bind_eq_ok_iff.1 h
      obtain ⟨u, hu, h⟩ := bind_eq_ok_iff.1 h
      obtain ⟨rest, hrest, h⟩ := bind_eq_ok_iff.1 h
      cases h
      exact .inr (.inr ⟨by simpa using hne, n, u, rest, hn, hu, hrest, rfl⟩)

theorem eq_of_eventName? {word name : List Char} (h : eventName? word = some name) :
    word = 'E' :: '[' :: (name ++ [']']) := by
  simp only [eventName?] at h
  split at h
  · rw [eq_append_of_dropLast?_eq_some h]
  · cases h

theorem exists_letter_of_suffix? {word : List Char} {r : Reference} (h : suffix? word = some r) :
    ∃ c, word = [c] ∧ Reference.ofLetter? c = some r := by
  rw [suffix?.eq_def] at h
  split at h
  · next c => exact ⟨c, rfl, h⟩
  · cases h

theorem addClauses_cons_cases {suffixed : Bool} {word : List Char} {words : List (List Char)}
    (h : d.addClauses suffixed (word :: words) = .ok d') :
    (∃ name, eventName? word = some name ∧ name ≠ [] ∧ d.event = none ∧
      (d.withEvent (String.ofList name)).addClauses suffixed words = .ok d') ∨
    (∃ r, suffix? word = some r ∧ suffixed = false ∧
      addClauses { d with reference := r } true words = .ok d') := by
  rw [addClauses] at h
  split at h
  · next name hname =>
    split at h
    · cases h
    · next hne =>
      split at h
      · cases h
      · next he => exact .inl ⟨name, hname, by simpa using hne, by simpa using he, h⟩
  · split at h
    · cases h
    · next r hr =>
      split at h
      · cases h
      · next hsuffixed => exact .inr ⟨r, hr, by simpa using hsuffixed, h⟩

theorem Sound.addClauses {suffixed : Bool} {clauses : List (List Char)} (h : d.Sound)
    (hb : ∀ w ∈ clauses, ∀ c ∈ w, isBlank c = false)
    (hd : d.addClauses suffixed clauses = .ok d') : d'.Sound := by
  induction clauses generalizing d suffixed with
  | nil =>
    simp only [Duration.addClauses, Except.ok.injEq] at hd
    rw [← hd]
    exact h
  | cons word words ih =>
    have hb' : ∀ w ∈ words, ∀ c ∈ w, isBlank c = false :=
      fun w hw => hb w (List.mem_cons_of_mem word hw)
    rcases addClauses_cons_cases hd with ⟨name, hname, hne, -, hd⟩ | ⟨r, hr, -, hd⟩
    · refine ih (h.withEvent hne fun c hc => hb word List.mem_cons_self c ?_) hb' hd
      rw [eq_of_eventName? hname]
      simp [hc]
    · obtain ⟨c, -, hletter⟩ := exists_letter_of_suffix? hr
      exact ih (h.withReference (Reference.ofLetter?_ne hletter)) hb' hd

theorem wellFormed_of_ofWords {fromStart : Bool} {units : List Char} {clauses : List (List Char)}
    {text : String} (hb : ∀ w ∈ clauses, ∀ c ∈ w, isBlank c = false)
    (h : ofWords fromStart units clauses text = .ok d) : d.WellFormed := by
  rw [ofWords, bind_eq_ok_iff] at h
  obtain ⟨ts, -, h⟩ := h
  cases ts with
  | nil => simp at h
  | cons t ts =>
    simp only [bind_eq_ok_iff] at h
    obtain ⟨d₁, h₁, d₂, h₂, h⟩ := h
    have hblank : (if fromStart then starting (referenceOf t.unit)
        else ending (referenceOf t.unit)).Sound := by
      split
      · exact sound_starting t.unit
      · exact sound_ending t.unit
    have hs := (hblank.foldlM_addToken h₁).addClauses hb h₂
    split at h
    · simp at h
    · next hn =>
      simp only [Except.ok.injEq] at h
      rw [← h]
      refine ⟨hs, ?_⟩
      cases hl : d₂.hasLength with
      | true => exact .inl rfl
      | false =>
        cases he : d₂.event with
        | some name => exact .inr (.inl rfl)
        | none => exact .inr (.inr (by simpa [hl, he] using hn))

theorem wellFormed_of_parse {text : String} (h : parse text = .ok d) : d.WellFormed := by
  rw [parse, ofText] at h
  have hb : ∀ w ∈ words text.toList, ∀ c ∈ w, isBlank c = false :=
    fun w hw c hc => isBlank_eq_false_of_mem_words hw hc
  split at h
  · simp at h
  · next units clauses hw =>
    rw [hw] at hb
    exact wellFormed_of_ofWords (fun w hc => hb w (List.mem_cons_of_mem _ hc)) h
  · next units clauses hw =>
    rw [hw] at hb
    exact wellFormed_of_ofWords (fun w hc => hb w (List.mem_cons_of_mem _ hc)) h
  · simp at h

theorem WellFormed.approxSeconds? (h : d.WellFormed) :
    d.approxSeconds? = some d.approxSeconds := by
  have hyears := h.amount_le .years
  have hmonths := h.amount_le .months
  have hweeks := h.amount_le .weeks
  have hdays := h.amount_le .days
  have hhours := h.amount_le .hours
  have hminutes := h.amount_le .minutes
  have hseconds := h.amount_le .seconds
  simp only [amount, maxAmount] at hyears hmonths hweeks hdays hhours hminutes hseconds
  have hmax : maxLengthSeconds = 9223372036854775 := by decide
  rw [Duration.approxSeconds?, if_pos]
  rw [hmax, approxSeconds, approxDays, timeSeconds]
  omega

end Duration

namespace Engine

theorem evaluate_of_wellFormed {e : Engine} {d : Duration} {t : Calendar.Instant} (h : d.WellFormed) :
    e.evaluate d t = .ofOption (d.evaluate? e.timezone.zone t) := by
  rw [evaluate, h.approxSeconds?]

end Engine

end Timetable
