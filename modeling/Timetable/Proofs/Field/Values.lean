import Timetable.Field.Parser
import Timetable.Proofs.Result

namespace Timetable

namespace Term

theorem bounds_of_readValue {lo hi n : Nat} {cs : List Char} (h : readValue lo hi cs = .ok n) :
    lo ≤ n ∧ n ≤ hi := by
  rw [readValue] at h
  cases hw : Text.readWord? cs with
  | none => simp [hw] at h
  | some m =>
    simp only [hw] at h
    split at h
    · simp at h
    · cases h
      omega

def IsProgression (k : FieldKind) (t : Term) : Prop :=
  ∃ start stop step, t = .progression start stop step ∧ k.min ≤ start ∧ start ≤ stop ∧ stop ≤ k.max

theorem isProgression_of_readRange {k : FieldKind} {step : Option Nat} {cs : List Char} {t : Term}
    (h : readRange k step cs = .ok t) : IsProgression k t := by
  have ho := k.openEnd_le_max
  rw [readRange] at h
  split at h
  · cases h
    exact ⟨_, _, _, rfl, Nat.le_refl _, k.min_le_openEnd, ho⟩
  · split at h
    · obtain ⟨a, ha, h⟩ := bind_eq_ok_iff.1 h
      obtain ⟨b, hb, h⟩ := bind_eq_ok_iff.1 h
      split at h
      · simp at h
      · cases h
        exact ⟨_, _, _, rfl, (bounds_of_readValue ha).1, by omega, (bounds_of_readValue hb).2⟩
    · obtain ⟨a, ha, h⟩ := bind_eq_ok_iff.1 h
      cases h
      have hv := bounds_of_readValue ha
      refine ⟨_, _, _, rfl, hv.1, ?_, ?_⟩ <;> split <;> omega

theorem isProgression_of_readProgression {k : FieldKind} {cs : List Char} {t : Term}
    (h : readProgression k cs = .ok t) : IsProgression k t := by
  rw [readProgression] at h
  split at h
  · exact isProgression_of_readRange h
  · obtain ⟨n, -, h⟩ := bind_eq_ok_iff.1 h
    exact isProgression_of_readRange h

theorem contains_bounds {k : FieldKind} {t : Term} {v : Nat} (h : IsProgression k t)
    (hv : t.contains v = true) : k.min ≤ v ∧ v ≤ k.max := by
  obtain ⟨start, stop, step, rfl, h₁, h₂, h₃⟩ := h
  simp only [contains, Bool.and_eq_true, decide_eq_true_eq] at hv
  omega

theorem contains_bounds_of_readDayOfWeek {cs : List Char} {t : Term} {v : Nat}
    (h : readDayOfWeek cs = .ok t) (hv : t.contains v = true) : v ≤ 7 := by
  rw [readDayOfWeek] at h
  split at h
  · obtain ⟨n, -, rfl⟩ := map_eq_ok_iff.1 h
    simp [contains] at hv
  · split at h
    · obtain ⟨n, -, h⟩ := bind_eq_ok_iff.1 h
      split at h
      · simp at h
      · split at h
        · cases h
          simp [contains] at hv
        · simp at h
    · exact (contains_bounds (isProgression_of_readProgression h) hv).2

theorem contains_bounds_of_read {k : FieldKind} {cs : List Char} {t : Term} {v : Nat}
    (h : read k cs = .ok t) (hv : t.contains v = true) : k.min ≤ v ∧ v ≤ k.max := by
  rw [read.eq_def] at h
  split at h
  · simp at h
  · split at h
    · split at h
      · cases h
        simp [contains] at hv
      · exact contains_bounds (isProgression_of_readProgression h) hv
    · exact ⟨Nat.zero_le _, contains_bounds_of_readDayOfWeek h hv⟩
    · exact contains_bounds (isProgression_of_readProgression h) hv

theorem isProgression_of_read {k : FieldKind} {cs : List Char} {t : Term} (hm : k ≠ .dayOfMonth)
    (hw : k ≠ .dayOfWeek) (h : read k cs = .ok t) : IsProgression k t := by
  rw [read.eq_def] at h
  split at h
  · simp at h
  · split at h
    · exact absurd rfl hm
    · exact absurd rfl hw
    · exact isProgression_of_readProgression h

end Term

theorem exists_read_of_mem_mapM {k : FieldKind} {css : List (List Char)} {ts : List Term}
    (h : css.mapM (Term.read k) = .ok ts) {t : Term} (ht : t ∈ ts) :
    ∃ cs ∈ css, Term.read k cs = .ok t := by
  induction css generalizing ts with
  | nil =>
    cases h
    simp at ht
  | cons cs css ih =>
    rw [List.mapM_cons] at h
    obtain ⟨u, hr, h⟩ := bind_eq_ok_iff.1 h
    obtain ⟨us, hs, h⟩ := bind_eq_ok_iff.1 h
    cases h
    rcases List.mem_cons.1 ht with rfl | ht
    · exact ⟨cs, by simp, hr⟩
    · obtain ⟨ds, hd, hu⟩ := ih hs ht
      exact ⟨ds, by simp [hd], hu⟩

theorem exists_term_of_mem_mapM {k : FieldKind} {css : List (List Char)} {ts : List Term}
    (h : css.mapM (Term.read k) = .ok ts) {cs : List Char} (hc : cs ∈ css) :
    ∃ t ∈ ts, Term.read k cs = .ok t := by
  induction css generalizing ts with
  | nil => simp at hc
  | cons ds css ih =>
    rw [List.mapM_cons] at h
    obtain ⟨t, ht, h⟩ := bind_eq_ok_iff.1 h
    obtain ⟨us, hs, h⟩ := bind_eq_ok_iff.1 h
    cases h
    rcases List.mem_cons.1 hc with rfl | hc
    · exact ⟨t, by simp, ht⟩
    · obtain ⟨u, hu, hr⟩ := ih hs hc
      exact ⟨u, by simp [hu], hr⟩

theorem readTerms_eq_mapM {k : FieldKind} {cs : List Char} {ts : List Term}
    (h : readTerms k cs = .ok ts) : (cs.splitOn ',').mapM (Term.read k) = .ok ts := by
  rw [readTerms] at h
  split at h
  · simp at h
  · split at h
    · simp at h
    · exact h

namespace Field
variable {k : FieldKind} {f : Field k} {v w x : Nat}

theorem exists_read_of_mem_terms (f : Field k) {t : Term} (ht : t ∈ f.terms) :
    ∃ cs, Term.read k cs = .ok t := by
  obtain ⟨cs, -, h⟩ := exists_read_of_mem_mapM (readTerms_eq_mapM f.terms_eq) ht
  exact ⟨cs, h⟩

theorem terms_ne_nil (f : Field k) : f.terms ≠ [] := by
  have h := readTerms_eq_mapM f.terms_eq
  intro hn
  rw [hn] at h
  cases hs : f.text.toList.splitOn ',' with
  | nil => exact List.splitOn_ne_nil _ _ hs
  | cons cs css =>
    rw [hs, List.mapM_cons] at h
    obtain ⟨u, -, h⟩ := bind_eq_ok_iff.1 h
    obtain ⟨us, -, h⟩ := bind_eq_ok_iff.1 h
    cases h

theorem bounds_of_admits (h : f.admits v = true) : k.min ≤ v ∧ v ≤ k.max := by
  simp only [admits, Bool.or_eq_true, List.any_eq_true, Bool.and_eq_true, beq_iff_eq] at h
  rcases h with ⟨t, ht, hv⟩ | ⟨⟨rfl, rfl⟩, -⟩
  · obtain ⟨cs, hr⟩ := f.exists_read_of_mem_terms ht
    exact Term.contains_bounds_of_read hr hv
  · decide

theorem exists_admits (f : Field k) (hm : k ≠ .dayOfMonth) (hw : k ≠ .dayOfWeek) :
    ∃ v, f.admits v = true := by
  obtain ⟨t, ht⟩ := List.exists_mem_of_ne_nil _ f.terms_ne_nil
  obtain ⟨cs, hr⟩ := f.exists_read_of_mem_terms ht
  obtain ⟨start, stop, step, rfl, -, h, -⟩ := Term.isProgression_of_read hm hw hr
  refine ⟨start, ?_⟩
  simp only [admits, Bool.or_eq_true, List.any_eq_true]
  exact .inl ⟨_, ht, by simp [Term.contains, h]⟩

theorem admits_eq_false_of_next?_eq_some (h : f.next? v = some w) (hv : v ≤ x) (hw : x < w) :
    f.admits x = false := by
  rw [next?, List.find?_range'_eq_some] at h
  by_cases hx : k.min ≤ x
  · simpa using h.2.2 x (by omega) hw
  · rw [← Bool.not_eq_true]
    exact fun ha => hx (bounds_of_admits ha).1

theorem admits_eq_false_of_next?_eq_none (h : f.next? v = none) (hv : v ≤ x) :
    f.admits x = false := by
  rw [next?, List.find?_range'_eq_none] at h
  rw [← Bool.not_eq_true]
  intro ha
  have hb := bounds_of_admits ha
  have hn := h x (by omega) (by omega)
  simp [ha] at hn

theorem admits_eq_false_of_le_of_lt_next? (h : f.admits v = false) (hn : f.next? (v + 1) = some w)
    (hv : v ≤ x) (hw : x < w) : f.admits x = false := by
  by_cases he : x = v
  · rw [he]
    exact h
  · exact admits_eq_false_of_next?_eq_some hn (by omega) hw

theorem admits_eq_false_of_le_of_next?_eq_none (h : f.admits v = false)
    (hn : f.next? (v + 1) = none) (hv : v ≤ x) : f.admits x = false := by
  by_cases he : x = v
  · rw [he]
    exact h
  · exact admits_eq_false_of_next?_eq_none hn (by omega)

theorem admits_eq_false_of_prev?_eq_some (h : f.prev? v = some w) (hw : w < x) (hv : x ≤ v) :
    f.admits x = false := by
  rw [← Bool.not_eq_true]
  intro ha
  have hb := bounds_of_admits ha
  have hp := List.pairwise_reverse.2 (List.pairwise_lt_range' (s := k.min) (n := min v k.max + 1 - k.min))
  have hm : x ∈ (List.range' k.min (min v k.max + 1 - k.min)).reverse := by
    rw [List.mem_reverse, List.mem_range'_1]
    omega
  rcases eq_or_rel_of_find?_eq_some hp h hm ha with rfl | hlt <;> omega

theorem admits_eq_false_of_prev?_eq_none (h : f.prev? v = none) (hv : x ≤ v) :
    f.admits x = false := by
  rw [← Bool.not_eq_true]
  intro ha
  have hb := bounds_of_admits ha
  have hm : x ∈ (List.range' k.min (min v k.max + 1 - k.min)).reverse := by
    rw [List.mem_reverse, List.mem_range'_1]
    omega
  exact absurd ha (List.find?_eq_none.1 h x hm)

theorem admits_eq_false_of_le_of_gt_prev? (h : f.admits v = false) (hn : f.prev? (v - 1) = some w)
    (hw : w < x) (hv : x ≤ v) : f.admits x = false := by
  by_cases he : x = v
  · rw [he]
    exact h
  · exact admits_eq_false_of_prev?_eq_some hn hw (by omega)

theorem admits_eq_false_of_le_of_prev?_eq_none (h : f.admits v = false)
    (hn : f.prev? (v - 1) = none) (hv : x ≤ v) : f.admits x = false := by
  by_cases he : x = v
  · rw [he]
    exact h
  · exact admits_eq_false_of_prev?_eq_none hn (by omega)

end Field

end Timetable
