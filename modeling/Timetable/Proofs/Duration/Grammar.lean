import Timetable.Proofs.Duration.Measures

namespace Timetable

open Text

namespace Duration

variable {d d' : Duration} {event : Option (List Char)} {suffix : Option Reference}
  {word name : List Char} {r : Reference} {ws : List (List Char)} {suffixed : Bool}

def eventWord (name : List Char) : List Char := 'E' :: '[' :: (name ++ [']'])

def suffixWord (r : Reference) : List Char := r.letter?.toList

def laterWords (event : Option (List Char)) (suffix : Option Reference) : List (List Char) :=
  (event.map eventWord).toList ++ (suffix.map suffixWord).toList

theorem eventName?_eq_some_iff : eventName? word = some name ↔ word = eventWord name := by
  constructor
  · exact eq_of_eventName?
  · rintro rfl
    exact dropLast?_append_singleton ']' name

theorem suffix?_eq_some_iff : suffix? word = some r ↔ r.isAnchored = true ∧ word = suffixWord r := by
  constructor
  · intro h
    obtain ⟨c, rfl, hletter⟩ := exists_letter_of_suffix? h
    rw [Reference.ofLetter?_eq_some_iff] at hletter
    refine ⟨?_, ?_⟩
    · rw [Reference.isAnchored_iff_letter?, hletter]
      rfl
    · rw [suffixWord, hletter]
      rfl
  · rintro ⟨ha, rfl⟩
    cases r <;> first | rfl | cases ha

theorem eventName?_suffixWord (r : Reference) : eventName? (suffixWord r) = none := by
  cases r <;> rfl

structure Sayable (event : Option (List Char)) (suffix : Option Reference) : Prop where
  ne_nil : ∀ name, event = some name → name ≠ []
  isAnchored : ∀ r, suffix = some r → r.isAnchored = true

def saying (d : Duration) (event : Option (List Char)) (suffix : Option Reference) : Duration :=
  { d with
    event := (event.map String.ofList).or d.event
    reference := suffix.getD d.reference }

theorem addClauses_event (hne : name ≠ []) (he : d.event = none) :
    d.addClauses suffixed (eventWord name :: ws) =
      (d.withEvent (String.ofList name)).addClauses suffixed ws := by
  rw [addClauses, eventName?_eq_some_iff.2 rfl]
  simp [hne, he]

theorem addClauses_suffix (ha : r.isAnchored = true) :
    d.addClauses false (suffixWord r :: ws) = addClauses { d with reference := r } true ws := by
  rw [addClauses, eventName?_suffixWord, suffix?_eq_some_iff.2 ⟨ha, rfl⟩]
  rfl

theorem addClauses_of_perm (h : Sayable event suffix) (hp : ws.Perm (laterWords event suffix))
    (he : event.isSome = true → d.event = none) (hs : suffix.isSome = true → suffixed = false) :
    d.addClauses suffixed ws = .ok (d.saying event suffix) := by
  induction ws generalizing d suffixed event suffix with
  | nil =>
    have hnil := hp.nil_eq
    cases event with
    | some name => cases hnil
    | none =>
      cases suffix with
      | some r => cases hnil
      | none => rfl
  | cons w ws ih =>
    -- the first word is the event or the letter, and the rest says what is left of the two
    rcases List.mem_append.1 (hp.mem_iff.1 List.mem_cons_self) with hw | hw
    · cases event with
      | none => simp at hw
      | some name =>
        obtain rfl : w = eventWord name := by simpa using hw
        have hsay : Sayable none suffix := ⟨nofun, h.isAnchored⟩
        have hrest : ws.Perm (laterWords none suffix) := hp.cons_inv
        rw [addClauses_event (h.ne_nil name rfl) (he rfl)]
        exact ih hsay hrest nofun hs
    · cases suffix with
      | none => simp at hw
      | some r =>
        obtain rfl : w = suffixWord r := by simpa using hw
        have hsay : Sayable event none := ⟨h.ne_nil, nofun⟩
        have hrest : ws.Perm (laterWords event none) := (hp.trans List.perm_middle).cons_inv
        rw [hs rfl, addClauses_suffix (h.isAnchored r rfl)]
        exact ih hsay hrest he nofun

theorem exists_laterWords_of_addClauses (h : d.addClauses suffixed ws = .ok d') :
    ∃ event suffix, Sayable event suffix ∧ ws.Perm (laterWords event suffix) ∧
      (event.isSome = true → d.event = none) ∧ (suffix.isSome = true → suffixed = false) ∧
      d' = d.saying event suffix := by
  induction ws generalizing d suffixed with
  | nil =>
    cases h
    exact ⟨none, none, ⟨nofun, nofun⟩, .nil, nofun, nofun, rfl⟩
  | cons w ws ih =>
    rcases addClauses_cons_cases h with ⟨name, hname, hne, hd, hrest⟩ | ⟨r, hr, rfl, hrest⟩
    · obtain rfl := eventName?_eq_some_iff.1 hname
      obtain ⟨event, suffix, hsay, hp, he, hs, rfl⟩ := ih hrest
      obtain rfl : event = none := by
        cases event with
        | none => rfl
        | some _ => cases he rfl
      refine ⟨some name, suffix, ⟨?_, hsay.isAnchored⟩, hp.cons _, fun _ => hd, hs, rfl⟩
      rintro _ ⟨⟩
      exact hne
    · obtain ⟨ha, rfl⟩ := suffix?_eq_some_iff.1 hr
      obtain ⟨event, suffix, hsay, hp, he, hs, rfl⟩ := ih hrest
      obtain rfl : suffix = none := by
        cases suffix with
        | none => rfl
        | some _ => cases hs rfl
      refine ⟨event, some r, ⟨hsay.ne_nil, ?_⟩, ?_, he, fun _ => rfl, rfl⟩
      · rintro _ ⟨⟩
        exact ha
      · exact (hp.cons _).trans List.perm_middle.symm

structure Body where
  calendar : List Measure
  time : Option (List Measure)
  calendar_letters : ∀ m ∈ calendar, m.letter ∈ letters .calendar
  time_letters : ∀ m ∈ time.getD [], m.letter ∈ letters .time
  ne_nil : calendar ++ time.getD [] ≠ []

namespace Body

def text (b : Body) : List Char := measuresText b.calendar ++ behindT b.time

def tokens (b : Body) : List Token :=
  measured .calendar false b.calendar ++ measured .time true (b.time.getD [])

theorem tokens_text (b : Body) : Duration.tokens .calendar none [] b.text = .ok b.tokens :=
  Duration.tokens_text b.calendar_letters b.time_letters

theorem exists_tokens_eq_cons (b : Body) : ∃ t ts, b.tokens = t :: ts := by
  rw [← List.ne_nil_iff_exists_cons]
  intro h
  obtain ⟨hc, ht⟩ := List.append_eq_nil_iff.1 h
  have hnil {side : Side} {minutes : Bool} {ms : List Measure}
      (h : measured side minutes ms = []) : ms = [] := by
    cases ms with
    | nil => rfl
    | cons m ms => cases h
  exact b.ne_nil (by rw [hnil hc, hnil ht]; rfl)

end Body

theorem exists_body_of_tokens {units : List Char} {t : Token} {ts : List Token}
    (h : tokens .calendar none [] units = .ok (t :: ts)) :
    ∃ b : Body, units = b.text ∧ t :: ts = b.tokens := by
  obtain ⟨ms, time, htext, hc, ht, -, hts⟩ := exists_measures_of_tokens h (by simp)
  refine ⟨⟨ms, time, hc, ht, ?_⟩, htext, hts⟩
  intro hnil
  obtain ⟨rfl, hnone⟩ := List.append_eq_nil_iff.1 hnil
  rw [hnone] at hts
  cases hts

/-- A text that a duration can have: its letter, its amounts, and what may be said of its event and of
its reference point. -/
structure Form where
  fromStart : Bool
  body : Body
  event : Option (List Char)
  suffix : Option Reference
  sayable : Sayable event suffix
  total_le : ∀ u, total body.tokens u ≤ maxAmount

def calendarReference? : TimeUnit → Option Reference
  | .years => some .year
  | .months => some .month
  | .weeks => some .week
  | .days => some .day
  | .hours | .minutes | .seconds => none

theorem blank_reference (fromStart : Bool) (u : TimeUnit) :
    (blank fromStart u).reference =
      (calendarReference? u).getD (if fromStart then .start else .stop) := by
  cases fromStart <;> cases u <;> rfl

theorem blank_fromStart (fromStart : Bool) (u : TimeUnit) :
    (blank fromStart u).fromStart = fromStart := by
  cases fromStart <;> rfl

theorem blank_event (fromStart : Bool) (u : TimeUnit) : (blank fromStart u).event = none := by
  cases fromStart <;> rfl

theorem sound_blank (fromStart : Bool) (u : TimeUnit) : (blank fromStart u).Sound := by
  cases fromStart with
  | true => exact sound_starting u
  | false => exact sound_ending u

namespace Form

variable {f : Form}

def firstWord (f : Form) : List Char := (if f.fromStart then 'S' else 'E') :: f.body.text

def reference (f : Form) : Reference :=
  (f.suffix.or (f.body.tokens.head?.bind fun t => calendarReference? t.unit)).getD
    (if f.fromStart then .start else .stop)

def SaysSomething (f : Form) : Prop :=
  (∃ u, total f.body.tokens u ≠ 0) ∨ f.event.isSome = true ∨ f.reference.isAnchored = true

def Spells (f : Form) (text : String) : Prop :=
  ∃ later, words text.toList = f.firstWord :: later ∧ later.Perm (laterWords f.event f.suffix)

structure Means (f : Form) (d : Duration) : Prop where
  amount : ∀ u, (d.amount u).toNat = total f.body.tokens u
  reference : d.reference = f.reference
  fromStart : d.fromStart = f.fromStart
  event : d.event = f.event.map String.ofList

theorem Means.eq {d d' : Duration} (h : f.Means d) (h' : f.Means d') : d = d' := by
  have hamount (u : TimeUnit) : d.amount u = d'.amount u := by
    rw [← UInt32.toNat_inj, h.amount, h'.amount]
  have hreference := h.reference.trans h'.reference.symm
  have hfromStart := h.fromStart.trans h'.fromStart.symm
  have hevent := h.event.trans h'.event.symm
  obtain ⟨years, months, weeks, days, hours, minutes, seconds, r, b, n⟩ := d
  obtain rfl : years = _ := hamount .years
  obtain rfl : months = _ := hamount .months
  obtain rfl : weeks = _ := hamount .weeks
  obtain rfl : days = _ := hamount .days
  obtain rfl : hours = _ := hamount .hours
  obtain rfl : minutes = _ := hamount .minutes
  obtain rfl : seconds = _ := hamount .seconds
  subst hreference hfromStart hevent
  rfl

theorem Means.saysSomething_iff {d : Duration} (h : f.Means d) : f.SaysSomething ↔
    (!d.hasLength && d.event.isNone && !d.reference.isAnchored) = false := by
  have hlength : (∃ u, total f.body.tokens u ≠ 0) ↔ d.hasLength = true := by
    rw [← Bool.not_eq_false, hasLength_eq_false_iff, Classical.not_forall]
    refine exists_congr fun u => ?_
    rw [← h.amount, ne_eq, ← UInt32.toNat_inj]
    rfl
  have hevent : f.event.isSome = d.event.isSome := by
    rw [h.event]
    cases f.event <;> rfl
  rw [SaysSomething, hlength, hevent, ← h.reference]
  cases d.hasLength <;> cases d.event <;> cases d.reference.isAnchored <;> simp

theorem reference_eq {t : Token} {ts : List Token} (ht : f.body.tokens = t :: ts) :
    f.reference = f.suffix.getD (blank f.fromStart t.unit).reference := by
  rw [reference, ht, blank_reference]
  cases f.suffix <;> rfl

theorem means_saying {t : Token} {ts : List Token} {d : Duration} (ht : f.body.tokens = t :: ts)
    (h : Adds (t :: ts) (blank f.fromStart t.unit) d) : f.Means (d.saying f.event f.suffix) where
  amount u := by
    have hu := h.amount u
    rw [amount_blank, ← ht] at hu
    exact hu.trans (Nat.zero_add _)
  reference := by
    rw [reference_eq ht, ← h.reference]
    rfl
  fromStart := h.fromStart.trans (blank_fromStart ..)
  event := by
    rw [saying, h.event, blank_event, Option.or_none]

theorem exists_ofWords (f : Form) {later : List (List Char)} (text : String)
    (hp : later.Perm (laterWords f.event f.suffix)) (hs : f.SaysSomething) :
    ∃ d, ofWords f.fromStart f.body.text later text = .ok d ∧ f.Means d := by
  obtain ⟨t, ts, ht⟩ := f.body.exists_tokens_eq_cons
  have hle : ∀ u, ((blank f.fromStart t.unit).amount u).toNat + total (t :: ts) u ≤ maxAmount := by
    intro u
    rw [amount_blank, ← ht]
    exact (Nat.zero_add _).symm ▸ f.total_le u
  obtain ⟨d, hd⟩ := exists_foldlM_addToken hle
  have hadds := adds_of_foldlM hd
  have hmeans := means_saying ht hadds
  have hclauses : d.addClauses false later = .ok (d.saying f.event f.suffix) :=
    addClauses_of_perm f.sayable hp (fun _ => hadds.event.trans (blank_event ..)) fun _ => rfl
  refine ⟨_, ?_, hmeans⟩
  rw [ofWords]
  refine bind_eq_ok_iff.2 ⟨t :: ts, f.body.tokens_text.trans (by rw [ht]), ?_⟩
  refine bind_eq_ok_iff.2 ⟨d, hd, bind_eq_ok_iff.2 ⟨_, hclauses, ?_⟩⟩
  rw [hmeans.saysSomething_iff.1 hs]
  rfl

theorem exists_form_of_ofWords {fromStart : Bool} {units : List Char} {later : List (List Char)}
    {text : String} {d : Duration} (h : ofWords fromStart units later text = .ok d) :
    ∃ f : Form, f.firstWord = (if fromStart then 'S' else 'E') :: units ∧
      later.Perm (laterWords f.event f.suffix) ∧ f.SaysSomething ∧ f.Means d := by
  rw [ofWords, bind_eq_ok_iff] at h
  obtain ⟨ts, hts, h⟩ := h
  cases ts with
  | nil => cases h
  | cons t ts =>
    obtain ⟨b, rfl, ht⟩ := exists_body_of_tokens hts
    simp only [bind_eq_ok_iff] at h
    obtain ⟨d₁, h₁, d₂, h₂, h⟩ := h
    obtain ⟨event, suffix, hsay, hp, -, -, rfl⟩ := exists_laterWords_of_addClauses h₂
    have hadds : Adds (t :: ts) (blank fromStart t.unit) d₁ := adds_of_foldlM h₁
    have hle : ∀ u, total b.tokens u ≤ maxAmount := by
      intro u
      have hu := hadds.amount u
      rw [amount_blank, ht] at hu
      exact (Nat.zero_add _).symm.trans hu.symm ▸ ((sound_blank ..).foldlM_addToken h₁).amount_le u
    let f : Form := ⟨fromStart, b, event, suffix, hsay, hle⟩
    have hmeans : f.Means (d₁.saying event suffix) := means_saying ht.symm hadds
    split at h
    · cases h
    · next hs =>
      cases h
      exact ⟨f, rfl, hp, hmeans.saysSomething_iff.2 (by simpa using hs), hmeans⟩

end Form

theorem exists_parse {f : Form} {text : String} (h : f.Spells text) (hs : f.SaysSomething) :
    ∃ d, parse text = .ok d ∧ f.Means d := by
  obtain ⟨later, hw, hp⟩ := h
  obtain ⟨d, hd, hmeans⟩ := f.exists_ofWords (String.ofList (trim text.toList)) hp hs
  refine ⟨d, ?_, hmeans⟩
  rw [parse, ofText, hw, Form.firstWord]
  cases hf : f.fromStart <;> simpa [hf] using hd

theorem exists_form_of_parse {text : String} (h : parse text = .ok d) :
    ∃ f : Form, f.Spells text ∧ f.SaysSomething ∧ f.Means d := by
  rw [parse, ofText] at h
  split at h
  · cases h
  · next units later hw =>
    obtain ⟨f, hf, hp, hs, hm⟩ := Form.exists_form_of_ofWords h
    exact ⟨f, ⟨later, hw.trans (by rw [hf]; rfl), hp⟩, hs, hm⟩
  · next units later hw =>
    obtain ⟨f, hf, hp, hs, hm⟩ := Form.exists_form_of_ofWords h
    exact ⟨f, ⟨later, hw.trans (by rw [hf]; rfl), hp⟩, hs, hm⟩
  · cases h

theorem parse_eq_ok_iff_spells (text : String) :
    ((∃ d, parse text = .ok d) ↔ ∃ f : Form, f.Spells text ∧ f.SaysSomething) ∧
      ∀ d, parse text = .ok d ↔ ∃ f : Form, f.Spells text ∧ f.SaysSomething ∧ f.Means d := by
  refine ⟨⟨?_, ?_⟩, fun d => ⟨exists_form_of_parse, ?_⟩⟩
  · rintro ⟨d, hd⟩
    obtain ⟨f, hspells, hs, -⟩ := exists_form_of_parse hd
    exact ⟨f, hspells, hs⟩
  · rintro ⟨f, hspells, hs⟩
    obtain ⟨d, hd, -⟩ := exists_parse hspells hs
    exact ⟨d, hd⟩
  · rintro ⟨f, hspells, hs, hmeans⟩
    obtain ⟨d', hd', hmeans'⟩ := exists_parse hspells hs
    rw [hd', hmeans.eq hmeans']

example : (parse "E1M2H3MT4M Q").map (fun d => (d.months, d.hours, d.minutes, d.reference)) =
    .ok (1, 2, 7, .quarter) := by rfl

end Duration

end Timetable
