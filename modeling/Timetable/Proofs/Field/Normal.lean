import Timetable.Proofs.Field.Values
import Timetable.Proofs.Text.Words
import Timetable.Schedule.Basic

namespace Timetable

open Text

def fieldSymbols : List Char := ['+', '*', '?', '-', '/', ',', 'L', '#']

def isFieldChar (c : Char) : Bool := c.isDigit || c ∈ fieldSymbols

variable {k : FieldKind} {cs : List Char}

theorem isFieldChar_of_isDigit {c : Char} (h : c.isDigit = true) : isFieldChar c = true := by
  simp [isFieldChar, h]

theorem isDigit_or_eq_plus_of_readWord? {n : Nat} (h : readWord? cs = some n) :
    ∀ c ∈ cs, c.isDigit = true ∨ c = '+' := by
  have hdigits : ∀ {ds : List Char} {m : Nat}, (digitsValue? ds).filter (· ≤ maxWord) = some m →
      ∀ c ∈ ds, c.isDigit = true := by
    intro ds m hm c hc
    have hv := (Option.filter_eq_some_iff.1 hm).1
    simp only [digitsValue?] at hv
    split at hv
    · next hall =>
      simp only [Bool.and_eq_true, List.all_eq_true] at hall
      exact hall.2 c hc
    · simp at hv
  simp only [readWord?, readNat?] at h
  split at h
  · intro c hc
    rcases List.mem_cons.1 hc with rfl | hc
    · exact .inr rfl
    · exact .inl (hdigits h c hc)
  · intro c hc
    exact .inl (hdigits h c hc)

theorem forall_isFieldChar_of_readWord? {n : Nat} (h : readWord? cs = some n) :
    ∀ c ∈ cs, isFieldChar c = true := by
  intro c hc
  rcases isDigit_or_eq_plus_of_readWord? h c hc with hd | rfl
  · exact isFieldChar_of_isDigit hd
  · decide

namespace Term

theorem forall_isFieldChar_of_readValue {lo hi n : Nat} (h : readValue lo hi cs = .ok n) :
    ∀ c ∈ cs, isFieldChar c = true := by
  rw [readValue] at h
  cases hw : readWord? cs with
  | none => simp [hw] at h
  | some m => exact forall_isFieldChar_of_readWord? hw

theorem forall_isFieldChar_of_readStep {n : Nat} (h : readStep k cs = .ok n) :
    ∀ c ∈ cs, isFieldChar c = true := by
  rw [readStep] at h
  cases hw : readWord? cs with
  | none => simp [hw] at h
  | some m => exact forall_isFieldChar_of_readWord? hw

theorem forall_isFieldChar_of_cutAt {c : Char} {before after : List Char}
    (hc : isFieldChar c = true) (h : cutAt [c] cs = some (before, after))
    (h₁ : ∀ x ∈ before, isFieldChar x = true) (h₂ : ∀ x ∈ after, isFieldChar x = true) :
    ∀ x ∈ cs, isFieldChar x = true := by
  rw [append_of_cutAt_eq_some h]
  intro x hx
  simp only [List.mem_append, List.mem_singleton] at hx
  rcases hx with (hx | rfl) | hx
  · exact h₁ x hx
  · exact hc
  · exact h₂ x hx

theorem forall_isFieldChar_of_readRange {step : Option Nat} {t : Term}
    (h : readRange k step cs = .ok t) : ∀ c ∈ cs, isFieldChar c = true := by
  rw [readRange] at h
  split at h
  · next hw =>
    rcases hw with rfl | rfl <;> exact List.all_eq_true.1 (by decide)
  · split at h
    · next lo hi hcut =>
      obtain ⟨a, ha, h⟩ := bind_eq_ok_iff.1 h
      obtain ⟨b, hb, -⟩ := bind_eq_ok_iff.1 h
      exact forall_isFieldChar_of_cutAt (by decide) hcut (forall_isFieldChar_of_readValue ha)
        (forall_isFieldChar_of_readValue hb)
    · obtain ⟨a, ha, -⟩ := bind_eq_ok_iff.1 h
      exact forall_isFieldChar_of_readValue ha

theorem forall_isFieldChar_of_readProgression {t : Term} (h : readProgression k cs = .ok t) :
    ∀ c ∈ cs, isFieldChar c = true := by
  rw [readProgression] at h
  split at h
  · exact forall_isFieldChar_of_readRange h
  · next range step hcut =>
    obtain ⟨n, hn, h⟩ := bind_eq_ok_iff.1 h
    exact forall_isFieldChar_of_cutAt (by decide) hcut (forall_isFieldChar_of_readRange h)
      (forall_isFieldChar_of_readStep hn)

theorem forall_isFieldChar_of_readDayOfWeek {t : Term} (h : readDayOfWeek cs = .ok t) :
    ∀ c ∈ cs, isFieldChar c = true := by
  rw [readDayOfWeek] at h
  split at h
  · next weekday hl =>
    obtain ⟨n, hn, -⟩ := map_eq_ok_iff.1 h
    rw [eq_append_of_dropLast?_eq_some hl]
    intro c hc
    rcases List.mem_append.1 hc with hc | hc
    · exact forall_isFieldChar_of_readValue hn c hc
    · rw [List.mem_singleton.1 hc]
      decide
  · split at h
    · next weekday nth hcut =>
      rw [readNth] at h
      obtain ⟨w, hw, h⟩ := bind_eq_ok_iff.1 h
      split at h
      · simp at h
      · next n hn =>
        exact forall_isFieldChar_of_cutAt (by decide) hcut (forall_isFieldChar_of_readValue hw)
          (forall_isFieldChar_of_readWord? hn)
    · exact forall_isFieldChar_of_readProgression h

theorem forall_isFieldChar_of_read {t : Term} (h : read k cs = .ok t) :
    ∀ c ∈ cs, isFieldChar c = true := by
  rw [read.eq_def] at h
  split at h
  · simp at h
  · split at h
    · split at h
      · next hl =>
        rw [hl]
        exact List.all_eq_true.1 (by decide)
      · exact forall_isFieldChar_of_readProgression h
    · exact forall_isFieldChar_of_readDayOfWeek h
    · exact forall_isFieldChar_of_readProgression h

end Term

theorem isBlank_eq_false_of_isFieldChar {c : Char} (h : isFieldChar c = true) :
    isBlank c = false := by
  simp only [isFieldChar, Bool.or_eq_true, decide_eq_true_eq] at h
  rcases h with h | h
  · exact isBlank_eq_false_of_isDigit h
  · have hall : fieldSymbols.all (fun x => !isBlank x) = true := by decide
    simpa using List.all_eq_true.1 hall c h

theorem eq_of_isFieldChar_of_isAlpha {c : Char} (h : isFieldChar c = true)
    (ha : c.isAlpha = true) : c = 'L' := by
  simp only [isFieldChar, Bool.or_eq_true, decide_eq_true_eq] at h
  rcases h with h | h
  · delta Char.isAlpha Char.isUpper Char.isLower at ha
    simp only [Char.isDigit, Bool.or_eq_true, Bool.and_eq_true, decide_eq_true_eq, ge_iff_le,
      UInt32.le_iff_toNat_le] at h ha
    have h₁ : c.val.toNat ≤ (57 : Nat) := h.2
    rcases ha with ⟨ha, -⟩ | ⟨ha, -⟩
    · have : (65 : Nat) ≤ c.val.toNat := ha
      omega
    · have : (97 : Nat) ≤ c.val.toNat := ha
      omega
  · have hall : fieldSymbols.all (fun x => !x.isAlpha || x == 'L') = true := by decide
    simpa [ha] using List.all_eq_true.1 hall c h

theorem valueOfName_of_forall {word : List Char} (h : ∀ c ∈ word, c = 'L') :
    valueOfName k word = word := by
  have hnames : k.valueNames.all (fun name => name.toList.any (· != 'L')) = true := by
    cases k <;> decide +kernel
  have hupper : word.map Char.toUpper = word := by
    conv => rhs; rw [← List.map_id word]
    apply List.map_congr_left
    intro c hc
    rw [h c hc]
    rfl
  have hnone : k.valueNames.idxOf? (String.ofList word) = none := by
    rw [List.idxOf?_eq_none_iff]
    intro hm
    obtain ⟨c, hc, hne⟩ := List.any_eq_true.1 (List.all_eq_true.1 hnames _ hm)
    rw [String.toList_ofList] at hc
    simp [h c hc] at hne
  rw [valueOfName, hupper, hnone]

theorem replaceWords_of_forall_isAlpha {word : List Char} (hw : ∀ c ∈ word, c = 'L')
    (h : ∀ c ∈ cs, c.isAlpha = true → c = 'L') : replaceWords k word cs = word ++ cs := by
  induction cs generalizing word with
  | nil => rw [replaceWords, valueOfName_of_forall hw, List.append_nil]
  | cons c cs ih =>
    have hcs : ∀ x ∈ cs, x.isAlpha = true → x = 'L' := fun x hx => h x (List.mem_cons_of_mem c hx)
    rw [replaceWords]
    split
    · next ha =>
      have hc := h c List.mem_cons_self ha
      rw [ih _ hcs, List.append_assoc, List.singleton_append]
      intro x hx
      rcases List.mem_append.1 hx with hx | hx
      · exact hw x hx
      · rw [List.mem_singleton.1 hx, hc]
    · rw [valueOfName_of_forall hw, ih (by simp) hcs, List.nil_append]

theorem replaceWords_of_forall {word : List Char} (hw : ∀ c ∈ word, c = 'L')
    (h : ∀ c ∈ cs, isFieldChar c = true) : replaceWords k word cs = word ++ cs :=
  replaceWords_of_forall_isAlpha hw fun c hc => eq_of_isFieldChar_of_isAlpha (h c hc)

theorem mem_replaceWords_of_mem {c : Char} {word : List Char} (ha : c.isAlpha = false) (h : c ∈ cs) :
    c ∈ replaceWords k word cs := by
  induction cs generalizing word with
  | nil => simp at h
  | cons x xs ih =>
    rw [replaceWords]
    split
    · next hx =>
      rcases List.mem_cons.1 h with rfl | h
      · simp [ha] at hx
      · exact ih h
    · rcases List.mem_cons.1 h with rfl | h
      · simp
      · simp [ih h]

namespace Field

theorem forall_isFieldChar (f : Field k) : ∀ c ∈ f.text.toList, isFieldChar c = true := by
  intro c hc
  rcases eq_true_or_mem_splitOnP (· == ',') hc with he | ⟨ds, hd, hc⟩
  · rw [eq_of_beq he]
    decide
  · obtain ⟨t, -, ht⟩ := exists_term_of_mem_mapM (readTerms_eq_mapM f.terms_eq) hd
    exact Term.forall_isFieldChar_of_read ht c hc

theorem isBlank_eq_false (f : Field k) : ∀ c ∈ f.text.toList, isBlank c = false :=
  fun c hc => isBlank_eq_false_of_isFieldChar (f.forall_isFieldChar c hc)

theorem text_ne_nil (f : Field k) : f.text.toList ≠ [] := by
  have h := f.terms_eq
  intro hn
  rw [hn, readTerms] at h
  simp at h

theorem normalise_text (f : Field k) : normalise k f.text.toList = f.text.toList := by
  rw [normalise, trim_of_forall f.isBlank_eq_false]
  exact replaceWords_of_forall (by simp) f.forall_isFieldChar

theorem ofNormal_text (f : Field k) : ofNormal k f.text.toList = .ok f := by
  have h := f.terms_eq
  rw [ofNormal]
  split
  · next terms ht =>
    rw [h] at ht
    cases ht
    congr 1
    cases f
    simp
  · next e he =>
    rw [h] at he
    cases he

theorem readField_text (f : Field k) : readField k f.text = .ok f := by
  rw [readField, parse, ofText, f.normalise_text, f.ofNormal_text]
  rfl

end Field

theorem toList_text_of_parse {f : Field k} {text : String} (h : Field.parse k text = .ok f) :
    f.text.toList = normalise k text.toList := by
  rw [Field.parse, Field.ofText, Field.ofNormal] at h
  split at h
  · cases h
    exact String.toList_ofList
  · cases h

theorem toList_text_of_readField {f : Field k} {text : String} (h : readField k text = .ok f) :
    f.text.toList = normalise k text.toList := by
  rw [readField, mapError_eq_ok_iff] at h
  exact toList_text_of_parse h

end Timetable
