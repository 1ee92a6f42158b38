import Timetable.Expression
import Timetable.Proofs.Duration.WellFormed
import Timetable.Proofs.Field.Normal

namespace Timetable

open Text

theorem replaceWords_of_no_names {k : FieldKind} (hk : k.valueNames = []) (word cs : List Char) :
    replaceWords k word cs = word ++ cs := by
  have hv : ∀ w, valueOfName k w = w := by
    intro w
    rw [valueOfName, hk]
    rfl
  induction cs generalizing word with
  | nil => rw [replaceWords, hv, List.append_nil]
  | cons c cs ih =>
    rw [replaceWords]
    split
    · rw [ih, List.append_assoc, List.singleton_append]
    · rw [hv, ih, List.nil_append]

theorem text_of_readField {k : FieldKind} {f : Field k} {text : String} (hk : k.valueNames = [])
    (hb : ∀ c ∈ text.toList, isBlank c = false) (h : readField k text = .ok f) : f.text = text := by
  apply String.ext
  rw [toList_text_of_readField h, normalise, trim_of_forall hb, replaceWords_of_no_names hk,
    List.nil_append]

theorem Expression.schedule?_ofSchedule (s : Schedule) :
    (Expression.ofSchedule s).schedule? = some s := by
  rw [Expression.ofSchedule]
  split <;> rfl

namespace Schedule

variable {s s' : Schedule} {text : String}

theorem isBlank_eq_false_of_mem_map {cs : List Char} :
    ∀ w ∈ (words cs).map String.ofList, ∀ c ∈ w.toList, isBlank c = false := by
  intro w hw
  obtain ⟨v, hv, rfl⟩ := List.mem_map.1 hw
  rw [String.toList_ofList]
  exact fun c hc => isBlank_eq_false_of_mem_words hv hc

theorem fields_of_set? {p p' : Parts} {c : Clause} {value : String} (h : p.set? c value = .ok p') :
    p'.fields = p.fields := by
  cases c <;> simp only [Parts.set?] at h <;> split at h <;> cases h <;> rfl

theorem mem_fields_of_addWords {p p' : Parts} {inside : Bool} {ws : List (List Char)} {x : String}
    (h : p.addWords inside ws = .ok p') (hx : x ∈ p'.fields) :
    x ∈ p.fields ∨ ∃ w ∈ ws, x = String.ofList w := by
  induction ws generalizing p inside with
  | nil =>
    cases h
    exact .inl hx
  | cons w ws ih =>
    have htail : (∃ v ∈ ws, x = String.ofList v) → ∃ v ∈ w :: ws, x = String.ofList v :=
      fun ⟨v, hv, he⟩ => ⟨v, List.mem_cons_of_mem w hv, he⟩
    simp only [Parts.addWords] at h
    split at h
    · split at h
      · simp at h
      · split at h
        · simp at h
        · obtain ⟨q, hq, h⟩ := bind_eq_ok_iff.1 h
          rcases ih h with hm | hm
          · exact .inl (by rwa [fields_of_set? hq] at hm)
          · exact .inr (htail hm)
    · split at h
      · rcases ih h with hm | hm
        · exact .inl hm
        · exact .inr (htail hm)
      · rcases ih h with hm | hm
        · rcases List.mem_append.1 hm with hm | hm
          · exact .inl hm
          · exact .inr ⟨w, by simp, List.mem_singleton.1 hm⟩
        · exact .inr (htail hm)

theorem isBlank_eq_false_of_mem_fields {p : Parts} (hp : Parts.split text = .ok p) :
    ∀ x ∈ p.fields, ∀ c ∈ x.toList, isBlank c = false := by
  intro x hx
  rcases mem_fields_of_addWords hp hx with hx | ⟨w, hw, rfl⟩
  · simp at hx
  · rw [String.toList_ofList]
    exact fun c hc => isBlank_eq_false_of_mem_words hw hc

section
variable [TimezoneDatabase]

def TimezoneKnown (s : Schedule) : Prop :=
  ∀ z, s.timezone = some z → TimezoneDatabase.find? z.name = some z

structure ClausesReread (s : Schedule) : Prop where
  timezone : s.TimezoneKnown
  endOfDuration : ∀ d, s.endOfDuration = some d → Duration.parse d.canonical = .ok d

structure Sound (s : Schedule) : Prop where
  fields : s.special = none → s.second.isSome ∧ s.minute.isSome ∧ s.hour.isSome ∧
    s.dayOfMonth.isSome ∧ s.month.isSome ∧ s.dayOfWeek.isSome
  year : ∀ f, s.year = some f → looksLikeYears f.text.toList = true
  timezone : ∀ z, s.timezone = some z → TimezoneDatabase.find? z.name = some z
  endOfDuration : ∀ d, s.endOfDuration = some d → d.WellFormed

theorem sound_reboot : reboot.Sound := by
  constructor <;> simp [reboot]

theorem sound_of_ofFields {second minute hour dayOfMonth month dayOfWeek : String}
    (h : ofFields second minute hour dayOfMonth month dayOfWeek = .ok s) : s.Sound := by
  simp only [ofFields, bind_eq_ok_iff] at h
  obtain ⟨f₁, -, f₂, -, f₃, -, f₄, -, f₅, -, f₆, -, h⟩ := h
  cases h
  constructor <;> simp

theorem Sound.withWeekOfYear (h : s.Sound) (hs : s.withWeekOfYear text = .ok s') : s'.Sound := by
  obtain ⟨f, -, rfl⟩ := map_eq_ok_iff.1 hs
  exact ⟨h.fields, h.year, h.timezone, h.endOfDuration⟩

theorem Sound.withYear (h : s.Sound) (hb : ∀ c ∈ text.toList, isBlank c = false)
    (hl : looksLikeYears text.toList = true) (hs : s.withYear text = .ok s') : s'.Sound := by
  obtain ⟨f, hf, rfl⟩ := map_eq_ok_iff.1 hs
  refine ⟨h.fields, ?_, h.timezone, h.endOfDuration⟩
  intro g hg
  cases hg
  rw [text_of_readField rfl hb hf]
  exact hl

theorem Sound.withTrailing (h : s.Sound) (hb : ∀ c ∈ text.toList, isBlank c = false)
    (hs : s.withTrailing text = .ok s') : s'.Sound := by
  rw [Schedule.withTrailing] at hs
  split at hs
  · cases hs
    exact h
  · split at hs
    · next hl => exact h.withYear hb hl hs
    · exact h.withWeekOfYear hs

theorem find?_of_readTimezone {z : Timezone} (h : readTimezone text = .ok z) :
    TimezoneDatabase.find? text = some z := by
  rw [readTimezone] at h
  cases hf : TimezoneDatabase.find? text with
  | none => simp [hf] at h
  | some y => simpa [hf] using h

theorem Sound.withTimezone (h : s.Sound) (hs : s.withTimezone text = .ok s') : s'.Sound := by
  obtain ⟨z, hz, rfl⟩ := map_eq_ok_iff.1 hs
  refine ⟨h.fields, h.year, ?_, h.endOfDuration⟩
  intro y hy
  cases hy
  exact TimezoneDatabase.find?_name (find?_of_readTimezone hz)

theorem Sound.withEndOfDuration {d : Duration} (h : s.Sound) (hd : d.WellFormed) :
    (s.withEndOfDuration d).Sound := by
  refine ⟨h.fields, h.year, h.timezone, ?_⟩
  intro e he
  cases he
  exact hd

theorem sound_of_ofMacro (h : ofMacro text = .ok s) : s.Sound := by
  rw [ofMacro] at h
  split at h
  · simp at h
  · cases h
    exact sound_reboot
  · exact sound_of_ofFields h
  · simp at h

theorem sound_of_ofWords {ws : List String} (hb : ∀ w ∈ ws, ∀ c ∈ w.toList, isBlank c = false)
    (h : ofWords ws = .ok s) : s.Sound := by
  rw [ofWords.eq_def] at h
  split at h
  · simp at h
  · exact sound_of_ofFields h
  · exact sound_of_ofFields h
  · obtain ⟨s₀, h₀, h⟩ := bind_eq_ok_iff.1 h
    exact (sound_of_ofFields h₀).withTrailing (hb _ (by simp)) h
  · split at h
    · exact sound_of_ofMacro h
    · simp at h
  · simp at h

theorem sound_of_parseCron (h : parseCron text = .ok s) : s.Sound :=
  sound_of_ofWords isBlank_eq_false_of_mem_map h

theorem Sound.addEndOfDuration {duration : Option String} (h : s.Sound)
    (hs : s.addEndOfDuration duration = .ok s') : s'.Sound := by
  rw [Schedule.addEndOfDuration.eq_def] at hs
  split at hs
  · cases hs
    exact h
  · obtain ⟨d, hd, rfl⟩ := map_eq_ok_iff.1 hs
    exact h.withEndOfDuration (Duration.wellFormed_of_parse (mapError_eq_ok_iff.1 hd))

theorem sound_of_parseHybrid (h : parseHybrid text = .ok s) : s.Sound := by
  rw [parseHybrid] at h
  split at h
  · exact sound_of_parseCron h
  · obtain ⟨s₀, h₀, h⟩ := bind_eq_ok_iff.1 h
    exact (sound_of_parseCron h₀).addEndOfDuration h

theorem sound_of_parseExtended (h : parseExtended text = .ok s) : s.Sound := by
  obtain ⟨p, hp, h⟩ := bind_eq_ok_iff.1 h
  obtain ⟨s₁, h₁, h⟩ := bind_eq_ok_iff.1 h
  obtain ⟨s₂, h₂, h⟩ := bind_eq_ok_iff.1 h
  obtain ⟨s₃, h₃, h⟩ := bind_eq_ok_iff.1 h
  have hs₁ : s₁.Sound := sound_of_ofWords (isBlank_eq_false_of_mem_fields hp) h₁
  have hs₂ : s₂.Sound := by
    rw [addWeeks.eq_def] at h₂
    split at h₂
    · cases h₂
      exact hs₁
    · split at h₂
      · simp at h₂
      · exact hs₁.withWeekOfYear h₂
  have hs₃ : s₃.Sound := by
    rw [addTimezone.eq_def] at h₃
    split at h₃
    · cases h₃
      exact hs₂
    · exact hs₂.withTimezone h₃
  exact hs₃.addEndOfDuration h

end

end Schedule

namespace Expression

variable [TimezoneDatabase]

theorem sound_of_readSchedule {text : String} {s : Schedule} (h : readSchedule text = .ok s) :
    s.Sound := by
  rw [readSchedule] at h
  split at h
  · exact Schedule.sound_of_parseExtended h
  · split at h
    · exact Schedule.sound_of_parseHybrid h
    · exact Schedule.sound_of_parseCron h

theorem sound_of_parse {text : String} {e : Expression} {s : Schedule} (h : parse text = .ok e)
    (hs : e.schedule? = some s) : s.Sound := by
  rw [parse] at h
  have hread : ∀ text', (readSchedule text').map ofSchedule = .ok e → s.Sound := by
    intro text' h'
    obtain ⟨s', hr, rfl⟩ := map_eq_ok_iff.1 h'
    rw [schedule?_ofSchedule] at hs
    cases hs
    exact sound_of_readSchedule hr
  have hduration : ∀ text', ((Duration.parse text').mapError Error.duration).map duration = .ok e →
      s.Sound := by
    intro text' h'
    obtain ⟨d, -, rfl⟩ := map_eq_ok_iff.1 h'
    cases hs
  split at h
  · simp at h
  · split at h
    · exact hduration _ h
    · simp at h
  · split at h
    · exact hduration _ h
    · simp at h
  · exact hread _ h

end Expression

end Timetable
