import Timetable.Proofs.Field.Numeric

/-! Every reader of a field takes a numeral as a whole, whatever its sign and its leading zeros. -/

namespace Timetable

open Text

def isNumeralChar (c : Char) : Bool := c.isDigit || c == '+'

inductive Respelled : List Char → List Char → Prop where
  | intro {p w w' s : List Char} {v : Nat} : (∀ c ∈ p.getLast?, isNumeralChar c = false) →
      (∀ c ∈ s.head?, isNumeralChar c = false) → readWord? w = some v → readWord? w' = some v →
      Respelled (p ++ w ++ s) (p ++ w' ++ s)

variable {k : FieldKind} {c : Char} {w x y : List Char} {v : Nat}

theorem forall_getLast?_right {P : Char → Prop} (h : ∀ c ∈ (x ++ y).getLast?, P c) :
    ∀ c ∈ y.getLast?, P c := by
  intro c hc
  rw [Option.mem_def] at hc
  exact h c (by simp [List.getLast?_append, hc])

theorem forall_head?_left {P : Char → Prop} (h : ∀ c ∈ (x ++ y).head?, P c) : ∀ c ∈ x.head?, P c := by
  intro c hc
  rw [Option.mem_def] at hc
  exact h c (by simp [hc])

theorem isNumeralChar_eq_false_iff : isNumeralChar c = false ↔ c.isDigit = false ∧ c ≠ '+' := by
  simp [isNumeralChar]

theorem not_mem_numeral (hc : isNumeralChar c = false) (h : readWord? w = some v) : c ∉ w :=
  not_mem_of_readWord? (isNumeralChar_eq_false_iff.1 hc).1 (isNumeralChar_eq_false_iff.1 hc).2 h

theorem readWord?_eq_none_of_mem (hc : isNumeralChar c = false) (hm : c ∈ w) : readWord? w = none := by
  cases h : readWord? w with
  | none => rfl
  | some n => exact absurd hm (not_mem_numeral hc h)

theorem exists_append_digit_of_readWord? (h : readWord? w = some v) :
    ∃ u d, w = u ++ [d] ∧ d.isDigit = true := by
  obtain ⟨ds, hw, hne, hdigits, -⟩ := readWord?_eq_some_iff.1 h
  obtain ⟨es, d, rfl⟩ := List.eq_nil_or_concat ds |>.resolve_left hne
  have hd : d.isDigit = true := hdigits d (by simp)
  rcases hw with rfl | rfl
  · exact ⟨es, d, by simp, hd⟩
  · exact ⟨'+' :: es, d, by simp, hd⟩

namespace Respelled

theorem symm (h : Respelled x y) : Respelled y x := by
  cases h with
  | intro hp hs hw hw' => exact .intro hp hs hw' hw

theorem exists_digit (h : Respelled x y) : ∃ d ∈ x, d.isDigit = true := by
  cases h with
  | intro hp hs hw hw' =>
    obtain ⟨u, d, rfl, hd⟩ := exists_append_digit_of_readWord? hw
    exact ⟨d, by simp, hd⟩

theorem ne_of_forall {xs : List Char} (h : Respelled x y) (hxs : ∀ c ∈ xs, c.isDigit = false) :
    x ≠ xs := by
  rintro rfl
  obtain ⟨d, hm, hd⟩ := h.exists_digit
  simp [hxs d hm] at hd

theorem isEmpty_eq_false (h : Respelled x y) : x.isEmpty = false :=
  List.isEmpty_eq_false_iff.2 (h.ne_of_forall (by simp))

theorem readWord?_eq (h : Respelled x y) : readWord? x = readWord? y := by
  cases h with
  | @intro p w w' s v hp hs hw hw' =>
    -- what stands beside the numeral makes neither text a numeral
    rcases List.eq_nil_or_concat p with rfl | ⟨p, c, rfl⟩
    · cases s with
      | nil => simp [hw, hw']
      | cons c s =>
        have hc : isNumeralChar c = false := hs c rfl
        rw [readWord?_eq_none_of_mem hc (by simp), readWord?_eq_none_of_mem hc (by simp)]
    · have hc : isNumeralChar c = false := hp c (by simp)
      rw [readWord?_eq_none_of_mem hc (by simp), readWord?_eq_none_of_mem hc (by simp)]

theorem cutAt_cases (hc : isNumeralChar c = false) (h : Respelled x y) :
    (cutAt [c] x = none ∧ cutAt [c] y = none) ∨
      (∃ a a' b, cutAt [c] x = some (a, b) ∧ cutAt [c] y = some (a', b) ∧ Respelled a a') ∨
      ∃ a b b', cutAt [c] x = some (a, b) ∧ cutAt [c] y = some (a, b') ∧ Respelled b b' := by
  cases h with
  | @intro p w w' s v hp hs hw hw' =>
    have hcw := not_mem_numeral hc hw
    have hcw' := not_mem_numeral hc hw'
    by_cases hcp : c ∈ p
    · obtain ⟨p₁, p₂, rfl, hp₁⟩ := List.eq_append_cons_of_mem hcp
      have hp₂ := forall_getLast?_right (x := p₁ ++ [c]) (by simpa using hp)
      refine .inr (.inr ⟨p₁, p₂ ++ w ++ s, p₂ ++ w' ++ s, ?_, ?_, .intro hp₂ hs hw hw'⟩)
      · simpa using (cutAt_singleton hp₁ : cutAt [c] (p₁ ++ c :: (p₂ ++ w ++ s)) = _)
      · simpa using (cutAt_singleton hp₁ : cutAt [c] (p₁ ++ c :: (p₂ ++ w' ++ s)) = _)
    · by_cases hcs : c ∈ s
      · obtain ⟨s₁, s₂, rfl, hs₁⟩ := List.eq_append_cons_of_mem hcs
        refine .inr (.inl ⟨p ++ w ++ s₁, p ++ w' ++ s₁, s₂, ?_, ?_,
          .intro hp (forall_head?_left hs) hw hw'⟩)
        · have hbefore : c ∉ p ++ w ++ s₁ := by simp [hcp, hcw, hs₁]
          simpa using (cutAt_singleton hbefore : cutAt [c] (p ++ w ++ s₁ ++ c :: s₂) = _)
        · have hbefore : c ∉ p ++ w' ++ s₁ := by simp [hcp, hcw', hs₁]
          simpa using (cutAt_singleton hbefore : cutAt [c] (p ++ w' ++ s₁ ++ c :: s₂) = _)
      · exact .inl ⟨cutAt_of_not_mem (by simp [hcp, hcw, hcs]), cutAt_of_not_mem (by simp [hcp, hcw', hcs])⟩

theorem dropLast?_cases (hc : isNumeralChar c = false) (h : Respelled x y) :
    (dropLast? c x = none ∧ dropLast? c y = none) ∨
      ∃ a a', dropLast? c x = some a ∧ dropLast? c y = some a' ∧ Respelled a a' := by
  cases h with
  | @intro p w w' s v hp hs hw hw' =>
    rcases List.eq_nil_or_concat s with rfl | ⟨s, d, rfl⟩
    · have hlast {u : List Char} (hu : readWord? u = some v) : dropLast? c (p ++ u ++ []) = none := by
        obtain ⟨u, d, rfl, hd⟩ := exists_append_digit_of_readWord? hu
        have hne : d ≠ c := by
          rintro rfl
          simp [isNumeralChar, hd] at hc
        rw [dropLast?, if_neg (by simpa using hne)]
      exact .inl ⟨hlast hw, hlast hw'⟩
    · rw [List.concat_eq_append] at hs ⊢
      have hassoc (u : List Char) : p ++ u ++ (s ++ [d]) = p ++ u ++ s ++ [d] := by simp
      rw [hassoc, hassoc]
      by_cases hd : d = c
      · subst hd
        exact .inr ⟨p ++ w ++ s, p ++ w' ++ s, dropLast?_append_singleton .., dropLast?_append_singleton ..,
          .intro hp (forall_head?_left hs) hw hw'⟩
      · left
        constructor <;> rw [dropLast?, if_neg (by simpa using hd)]

end Respelled

namespace Term

variable {t : Term} {step : Option Nat} {lo hi n : Nat}

theorem readValue_respelled (h : Respelled x y) (hx : readValue lo hi x = .ok n) :
    readValue lo hi y = .ok n := by
  rw [readValue_eq_ok_iff] at hx ⊢
  rwa [← h.readWord?_eq]

theorem readStep_respelled (h : Respelled x y) (hx : readStep k x = .ok n) : readStep k y = .ok n := by
  rw [readStep_eq_ok_iff] at hx ⊢
  rwa [← h.readWord?_eq]

theorem not_wildcard_of_respelled (h : Respelled x y) : ¬ (x = ['*'] ∨ x = ['?']) := by
  rintro (hx | hx)
  · exact h.ne_of_forall (by simp) hx
  · exact h.ne_of_forall (by simp) hx

theorem readRange_respelled (h : Respelled x y) (hx : readRange k step x = .ok t) :
    readRange k step y = .ok t := by
  rw [readRange, if_neg (not_wildcard_of_respelled h)] at hx
  rw [readRange, if_neg (not_wildcard_of_respelled h.symm)]
  rcases h.cutAt_cases (c := '-') (by decide) with
    ⟨hcx, hcy⟩ | ⟨a, a', b, hcx, hcy, ha⟩ | ⟨a, b, b', hcx, hcy, hb⟩
  · rw [hcx] at hx
    rw [hcy]
    obtain ⟨n, hn, hx⟩ := bind_eq_ok_iff.1 hx
    exact bind_eq_ok_iff.2 ⟨n, readValue_respelled h hn, hx⟩
  · rw [hcx] at hx
    rw [hcy]
    obtain ⟨n, hn, hx⟩ := bind_eq_ok_iff.1 hx
    exact bind_eq_ok_iff.2 ⟨n, readValue_respelled ha hn, hx⟩
  · rw [hcx] at hx
    rw [hcy]
    obtain ⟨n, hn, hx⟩ := bind_eq_ok_iff.1 hx
    obtain ⟨m, hm, hx⟩ := bind_eq_ok_iff.1 hx
    exact bind_eq_ok_iff.2 ⟨n, hn, bind_eq_ok_iff.2 ⟨m, readValue_respelled hb hm, hx⟩⟩

theorem readProgression_respelled (h : Respelled x y) (hx : readProgression k x = .ok t) :
    readProgression k y = .ok t := by
  rw [readProgression] at hx ⊢
  rcases h.cutAt_cases (c := '/') (by decide) with
    ⟨hcx, hcy⟩ | ⟨a, a', b, hcx, hcy, ha⟩ | ⟨a, b, b', hcx, hcy, hb⟩
  · rw [hcx] at hx
    rw [hcy]
    exact readRange_respelled h hx
  · rw [hcx] at hx
    rw [hcy]
    obtain ⟨n, hn, hx⟩ := bind_eq_ok_iff.1 hx
    exact bind_eq_ok_iff.2 ⟨n, hn, readRange_respelled ha hx⟩
  · rw [hcx] at hx
    rw [hcy]
    obtain ⟨n, hn, hx⟩ := bind_eq_ok_iff.1 hx
    exact bind_eq_ok_iff.2 ⟨n, readStep_respelled hb hn, hx⟩

theorem readNth_eq_ok_iff {element weekday nth : List Char} : readNth element weekday nth = .ok t ↔
    ∃ v n, readValue 0 7 weekday = .ok v ∧ readWord? nth = some n ∧ (1 ≤ n ∧ n ≤ 5) ∧
      t = .nthWeekday v n := by
  rw [readNth, bind_eq_ok_iff]
  refine exists_congr fun v => ?_
  cases hn : readWord? nth with
  | none => simp
  | some n =>
    by_cases hb : 1 ≤ n ∧ n ≤ 5
    · simp [hb, eq_comm]
    · simp [hb]

theorem readDayOfWeek_respelled (h : Respelled x y) (hx : readDayOfWeek x = .ok t) :
    readDayOfWeek y = .ok t := by
  rw [readDayOfWeek] at hx ⊢
  rcases h.dropLast?_cases (c := 'L') (by decide) with ⟨hlx, hly⟩ | ⟨a, a', hlx, hly, ha⟩
  · rw [hlx] at hx
    rw [hly]
    rcases h.cutAt_cases (c := '#') (by decide) with
      ⟨hcx, hcy⟩ | ⟨a, a', b, hcx, hcy, ha⟩ | ⟨a, b, b', hcx, hcy, hb⟩
    · rw [hcx] at hx
      rw [hcy]
      exact readProgression_respelled h hx
    · simp only [hcx, readNth_eq_ok_iff] at hx
      simp only [hcy, readNth_eq_ok_iff]
      obtain ⟨v, n, hv, hn⟩ := hx
      exact ⟨v, n, readValue_respelled ha hv, hn⟩
    · simp only [hcx, readNth_eq_ok_iff] at hx
      simp only [hcy, readNth_eq_ok_iff]
      rwa [← hb.readWord?_eq]
  · simp only [hlx, map_eq_ok_iff] at hx
    simp only [hly, map_eq_ok_iff]
    obtain ⟨v, hv, ht⟩ := hx
    exact ⟨v, readValue_respelled ha hv, ht⟩

theorem read_respelled (h : Respelled x y) (hx : read k x = .ok t) : read k y = .ok t := by
  by_cases hk : k = .dayOfWeek
  · subst hk
    rw [read, h.symm.isEmpty_eq_false]
    exact readDayOfWeek_respelled h (readDayOfWeek_of_read hx)
  · rw [read_eq_ok_iff hk] at hx ⊢
    rcases hx with hx | ⟨-, hx, -⟩
    · exact .inl (readProgression_respelled h hx)
    · exact absurd hx (h.ne_of_forall (by simp))

end Term

theorem exists_splitOn_append (p : List Char) : ∃ us p', ',' ∉ p' ∧ (∃ q, p = q ++ p') ∧
    ∀ zs, (p ++ zs).splitOn ',' = us ++ (p' ++ zs).splitOn ',' := by
  by_cases hm : ',' ∈ p
  · obtain ⟨as, bs, hrev, has⟩ := List.eq_append_cons_of_mem (List.mem_reverse.2 hm)
    have hp : p = bs.reverse ++ ',' :: as.reverse := by
      rw [← List.reverse_reverse p, hrev]
      simp
    refine ⟨bs.reverse.splitOn ',', as.reverse, by simpa using has, ⟨bs.reverse ++ [','], by simp [hp]⟩,
      fun zs => ?_⟩
    rw [hp, List.append_assoc, List.cons_append, splitOn_append_cons]
  · exact ⟨[], p, hm, ⟨[], rfl⟩, fun zs => rfl⟩

theorem exists_splitOn_cons (s : List Char) : ∃ s' vs, (∃ r, s = s' ++ r) ∧
    ∀ zs, ',' ∉ zs → (zs ++ s).splitOn ',' = (zs ++ s') :: vs := by
  by_cases hm : ',' ∈ s
  · obtain ⟨as, bs, rfl, has⟩ := List.eq_append_cons_of_mem hm
    refine ⟨as, bs.splitOn ',', ⟨',' :: bs, rfl⟩, fun zs hz => ?_⟩
    rw [← List.append_assoc, splitOn_append_cons, splitOn_of_not_mem (by simp [hz, has]), List.singleton_append]
  · exact ⟨s, [], ⟨[], by simp⟩, fun zs hz => splitOn_of_not_mem (by simp [hz, hm])⟩

theorem Respelled.splitOn_cases (h : Respelled x y) : ∃ us a b vs,
    x.splitOn ',' = us ++ a :: vs ∧ y.splitOn ',' = us ++ b :: vs ∧ Respelled a b := by
  cases h with
  | @intro p w w' s v hp hs hw hw' =>
    obtain ⟨us, p', hp', ⟨q, rfl⟩, hbefore⟩ := exists_splitOn_append p
    obtain ⟨s', vs, ⟨r, rfl⟩, hafter⟩ := exists_splitOn_cons s
    have hsplit {u : List Char} (hu : readWord? u = some v) :
        (q ++ p' ++ u ++ (s' ++ r)).splitOn ',' = us ++ (p' ++ u ++ s') :: vs := by
      have hu : ',' ∉ u := not_mem_numeral (by decide) hu
      have hcomma : ',' ∉ p' ++ u := by simp [hp', hu]
      rw [List.append_assoc, hbefore, ← List.append_assoc, hafter _ hcomma]
    exact ⟨us, _, _, vs, hsplit hw, hsplit hw',
      .intro (forall_getLast?_right hp) (forall_head?_left hs) hw hw'⟩

theorem readTerms_respelled {ts : List Term} (h : Respelled x y) (hx : readTerms k x = .ok ts) :
    readTerms k y = .ok ts := by
  obtain ⟨us, a, b, vs, hsx, hsy, hab⟩ := h.splitOn_cases
  have hmap := readTerms_eq_mapM hx
  rw [hsx, List.mapM_append, List.mapM_cons] at hmap
  obtain ⟨us', hus, hmap⟩ := bind_eq_ok_iff.1 hmap
  obtain ⟨vs', hvs, hts⟩ := bind_eq_ok_iff.1 hmap
  obtain ⟨t, ht, hvs⟩ := bind_eq_ok_iff.1 hvs
  have hquestion : y ≠ ['?'] := h.symm.ne_of_forall (by simp)
  rw [readTerms, h.symm.isEmpty_eq_false, if_neg Bool.false_ne_true, if_neg (fun hq => hquestion hq.1), hsy, List.mapM_append,
    List.mapM_cons]
  exact bind_eq_ok_iff.2 ⟨us', hus, bind_eq_ok_iff.2 ⟨vs', bind_eq_ok_iff.2
    ⟨t, Term.read_respelled hab ht, hvs⟩, hts⟩⟩

end Timetable
