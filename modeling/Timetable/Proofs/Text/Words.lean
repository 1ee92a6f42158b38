import Timetable.Text.Blank

/-! A text that words make up with single blanks between them gives those words back. -/

namespace Timetable.Text

theorem eq_false_of_mem_splitOnP {α : Type} {p : α → Bool} {xs w : List α} {c : α}
    (hw : w ∈ xs.splitOnP p) (hc : c ∈ w) : p c = false := by
  induction xs generalizing w with
  | nil =>
    simp only [List.splitOnP_nil, List.mem_singleton] at hw
    simp [hw] at hc
  | cons x xs ih =>
    rw [List.splitOnP_cons_eq_if_modifyHead] at hw
    split at hw
    · rcases List.mem_cons.1 hw with rfl | hw
      · simp at hc
      · exact ih hw hc
    · next hx =>
      cases hs : xs.splitOnP p with
      | nil => exact absurd hs (List.splitOnP_ne_nil p xs)
      | cons v vs =>
        rw [hs] at hw ih
        simp only [List.modifyHead_cons, List.mem_cons] at hw
        rcases hw with rfl | hw
        · rcases List.mem_cons.1 hc with rfl | hc
          · simpa using hx
          · exact ih (by simp) hc
        · exact ih (List.mem_cons_of_mem v hw) hc

theorem eq_true_or_mem_splitOnP {α : Type} (p : α → Bool) {xs : List α} {c : α} (hc : c ∈ xs) :
    p c = true ∨ ∃ w ∈ xs.splitOnP p, c ∈ w := by
  induction xs with
  | nil => simp at hc
  | cons x xs ih =>
    rw [List.splitOnP_cons_eq_if_modifyHead]
    split
    · next hx =>
      rcases List.mem_cons.1 hc with rfl | hc
      · exact .inl hx
      · exact (ih hc).imp_right fun ⟨w, hw, h⟩ => ⟨w, List.mem_cons_of_mem _ hw, h⟩
    · cases hs : xs.splitOnP p with
      | nil => exact absurd hs (List.splitOnP_ne_nil p xs)
      | cons v vs =>
        rw [hs] at ih
        rw [List.modifyHead_cons]
        rcases List.mem_cons.1 hc with rfl | hc
        · exact .inr ⟨c :: v, by simp, by simp⟩
        · rcases ih hc with h | ⟨w, hw, h⟩
          · exact .inl h
          · rcases List.mem_cons.1 hw with rfl | hw
            · exact .inr ⟨x :: w, by simp, by simp [h]⟩
            · exact .inr ⟨w, List.mem_cons_of_mem _ hw, h⟩

theorem exists_mem_splitOn {cs : List Char} {x c : Char} (hc : c ∈ cs) (hne : c ≠ x) :
    ∃ w ∈ cs.splitOn x, c ∈ w :=
  (eq_true_or_mem_splitOnP (· == x) hc).resolve_left (by simpa using hne)

theorem splitOn_of_not_mem {cs : List Char} {x : Char} (h : x ∉ cs) : cs.splitOn x = [cs] :=
  List.splitOnP_eq_singleton fun c hc => by
    rw [beq_eq_false_iff_ne]
    rintro rfl
    exact h hc

theorem splitOn_append_cons (x : Char) (as bs : List Char) :
    (as ++ x :: bs).splitOn x = as.splitOn x ++ bs.splitOn x :=
  List.splitOnP_append_cons _ _ (beq_self_eq_true x)

theorem isBlank_eq_false_of_mem_words {cs w : List Char} {c : Char} (h : w ∈ words cs)
    (hc : c ∈ w) : isBlank c = false :=
  eq_false_of_mem_splitOnP (List.mem_filter.1 h).1 hc

theorem isBlank_eq_false_of_bounds {c : Char} (h₁ : 0x20 < c.val.toNat) (h₂ : c.val.toNat < 0x85) :
    isBlank c = false := by
  simp only [isBlank, Char.toNat, Bool.or_eq_false_iff, Bool.and_eq_false_iff,
    decide_eq_false_iff_not, beq_eq_false_iff_ne]
  omega

theorem isBlank_eq_false_of_isDigit {c : Char} (h : c.isDigit = true) : isBlank c = false := by
  simp only [Char.isDigit, Bool.and_eq_true, decide_eq_true_eq, ge_iff_le, UInt32.le_iff_toNat_le] at h
  have h₁ : (48 : Nat) ≤ c.val.toNat := h.1
  have h₂ : c.val.toNat ≤ (57 : Nat) := h.2
  apply isBlank_eq_false_of_bounds <;> omega

theorem isAlpha_of_isAlpha_toUpper {c : Char} (h : c.toUpper.isAlpha = true) : c.isAlpha = true := by
  delta Char.toUpper at h
  split at h
  next hlower =>
    delta Char.isAlpha Char.isLower
    simpa using .inr hlower
  next => exact h

theorem isBlank_eq_false_of_isAlpha {c : Char} (h : c.isAlpha = true) : isBlank c = false := by
  delta Char.isAlpha Char.isUpper Char.isLower at h
  simp only [Bool.or_eq_true, Bool.and_eq_true, decide_eq_true_eq, ge_iff_le,
    UInt32.le_iff_toNat_le] at h
  rcases h with h | h
  · have h₁ : (65 : Nat) ≤ c.val.toNat := h.1
    have h₂ : c.val.toNat ≤ (90 : Nat) := h.2
    apply isBlank_eq_false_of_bounds <;> omega
  · have h₁ : (97 : Nat) ≤ c.val.toNat := h.1
    have h₂ : c.val.toNat ≤ (122 : Nat) := h.2
    apply isBlank_eq_false_of_bounds <;> omega

theorem trimEnd_cons (c : Char) (cs : List Char) :
    trimEnd (c :: cs) =
      if isBlank c && (trimEnd cs).isEmpty then [] else c :: trimEnd cs := by
  rw [trimEnd, List.foldr_cons, ← trimEnd]

theorem trimEnd_of_forall {cs : List Char} (h : ∀ c ∈ cs, isBlank c = false) : trimEnd cs = cs := by
  induction cs with
  | nil => rfl
  | cons c cs ih =>
    rw [trimEnd_cons, ih fun x hx => h x (List.mem_cons_of_mem c hx), h c (by simp)]
    rfl

theorem trim_of_forall {cs : List Char} (h : ∀ c ∈ cs, isBlank c = false) : trim cs = cs := by
  have hd : cs.dropWhile isBlank = cs := by
    cases cs with
    | nil => rfl
    | cons c cs => rw [List.dropWhile_cons_of_neg (by simp [h c (by simp)])]
  rw [trim, hd, trimEnd_of_forall h]

def IsWord (w : List Char) : Prop := w ≠ [] ∧ ∀ c ∈ w, isBlank c = false

theorem isWord_of_mem_words {cs w : List Char} (h : w ∈ words cs) : IsWord w :=
  ⟨by simpa using (List.mem_filter.1 h).2, fun _ hc => isBlank_eq_false_of_mem_words h hc⟩

theorem intercalate_cons_eq (w : List Char) (ws : List (List Char)) :
    [' '].intercalate (w :: ws) = w ++ ws.flatMap (' ' :: ·) := by
  induction ws generalizing w with
  | nil => simp
  | cons v ws ih => rw [List.intercalate_cons_cons, ih v]; simp

theorem mem_intercalate {ws : List (List Char)} {c : Char} (h : c ∈ [' '].intercalate ws) :
    c = ' ' ∨ ∃ w ∈ ws, c ∈ w := by
  cases ws with
  | nil => simp at h
  | cons w ws =>
    rw [intercalate_cons_eq, List.mem_append] at h
    rcases h with h | h
    · exact .inr ⟨w, by simp, h⟩
    · obtain ⟨v, hv, h⟩ := List.mem_flatMap.1 h
      rcases List.mem_cons.1 h with h | h
      · exact .inl h
      · exact .inr ⟨v, List.mem_cons_of_mem w hv, h⟩

theorem mem_intercalate_of_mem {sep w : List Char} {ws : List (List Char)} {c : Char} (hw : w ∈ ws)
    (hc : c ∈ w) : c ∈ sep.intercalate ws := by
  induction ws with
  | nil => cases hw
  | cons v ws ih =>
    cases ws with
    | nil =>
      rw [List.intercalate_singleton]
      exact List.mem_singleton.1 hw ▸ hc
    | cons v' ws =>
      rw [List.intercalate_cons_cons, List.mem_append, List.mem_append]
      rcases List.mem_cons.1 hw with rfl | hw
      · exact .inl (.inl hc)
      · exact .inr (ih hw)

theorem not_mem_of_joined {sep w cs : List Char} {parts : List (List Char)} {c : Char}
    (h : sep.intercalate parts = cs) (hc : c ∉ cs) (hw : w ∈ parts) : c ∉ w :=
  fun hm => hc (h ▸ mem_intercalate_of_mem hw hm)

theorem mem_of_mem_splitOn {cs w : List Char} {x c : Char} (hw : w ∈ cs.splitOn x) (hc : c ∈ w) : c ∈ cs :=
  Decidable.byContradiction fun h => not_mem_of_joined (List.intercalate_splitOn x) h hw hc

theorem intercalate_append_singleton {ws : List (List Char)} (h : ws ≠ []) (w : List Char) :
    [' '].intercalate (ws ++ [w]) = [' '].intercalate ws ++ ' ' :: w := by
  cases ws with
  | nil => exact absurd rfl h
  | cons v ws =>
    rw [List.cons_append, intercalate_cons_eq, intercalate_cons_eq, List.flatMap_append,
      List.flatMap_singleton, List.append_assoc]

theorem intercalate_append_flatMap (ws : List (List Char)) (w : List Char) (vs : List (List Char)) :
    [' '].intercalate (ws ++ [w ++ vs.flatMap (' ' :: ·)]) = [' '].intercalate (ws ++ w :: vs) := by
  cases ws with
  | nil => rw [List.nil_append, List.nil_append, List.intercalate_singleton, intercalate_cons_eq]
  | cons u us =>
    rw [List.cons_append, List.cons_append, intercalate_cons_eq, intercalate_cons_eq,
      List.flatMap_append, List.flatMap_append, List.flatMap_singleton, List.flatMap_cons,
      List.cons_append]

theorem words_intercalate {ws : List (List Char)} (h : ∀ w ∈ ws, IsWord w) :
    words ([' '].intercalate ws) = ws := by
  induction ws with
  | nil => exact words_nil
  | cons w ws ih =>
    obtain ⟨hne, hb⟩ := h w (by simp)
    have ih := ih fun v hv => h v (List.mem_cons_of_mem w hv)
    cases ws with
    | nil => rw [List.intercalate_singleton, words_of_forall hne hb]
    | cons v ws =>
      rw [List.intercalate_cons_cons, List.append_assoc, List.singleton_append,
        words_append_blank (by decide), words_of_forall hne hb, ih, List.singleton_append]

theorem trimEnd_append {xs ys : List Char} (hy : ys ≠ []) (h : trimEnd ys = ys) :
    trimEnd (xs ++ ys) = xs ++ ys := by
  induction xs with
  | nil => exact h
  | cons x xs ih =>
    have hne : (xs ++ ys).isEmpty = false := by simp [hy]
    rw [List.cons_append, trimEnd_cons, ih, hne, Bool.and_false]
    rfl

theorem trim_intercalate {ws : List (List Char)} (h : ∀ w ∈ ws, IsWord w) :
    trim ([' '].intercalate ws) = [' '].intercalate ws := by
  have hend : trimEnd ([' '].intercalate ws) = [' '].intercalate ws := by
    induction ws with
    | nil => rfl
    | cons w ws ih =>
      have hw := h w (by simp)
      have ih := ih fun v hv => h v (List.mem_cons_of_mem w hv)
      cases ws with
      | nil => rw [List.intercalate_singleton, trimEnd_of_forall hw.2]
      | cons v ws =>
        rw [List.intercalate_cons_cons]
        refine trimEnd_append ?_ ih
        rw [intercalate_cons_eq]
        simp [(h v (by simp)).1]
  rw [trim]
  cases ws with
  | nil => rfl
  | cons w ws =>
    obtain ⟨hne, hb⟩ := h w (by simp)
    cases w with
    | nil => exact absurd rfl hne
    | cons c cs =>
      rw [List.intercalate_cons_cons_left] at hend ⊢
      rw [List.dropWhile_cons_of_neg (by simp [hb c (by simp)]), hend]

variable {w cs ds : List Char}

theorem words_of_blank (h : ∀ c ∈ cs, isBlank c = true) : words cs = [] := by
  induction cs with
  | nil => exact words_nil
  | cons c cs ih =>
    rw [words_cons_blank (h c (by simp))]
    exact ih fun x hx => h x (List.mem_cons_of_mem c hx)

theorem words_blank_append (h : ∀ c ∈ ds, isBlank c = true) (cs : List Char) :
    words (ds ++ cs) = words cs := by
  induction ds with
  | nil => rfl
  | cons d ds ih =>
    rw [List.cons_append, words_cons_blank (h d (by simp))]
    exact ih fun x hx => h x (List.mem_cons_of_mem d hx)

theorem words_append_of_blank (h : ∀ c ∈ ds, isBlank c = true) (cs : List Char) :
    words (cs ++ ds) = words cs := by
  cases ds with
  | nil => rw [List.append_nil]
  | cons d ds =>
    rw [words_append_blank (h d (by simp)),
      words_of_blank fun x hx => h x (List.mem_cons_of_mem d hx), List.append_nil]

theorem words_append_of_forall (hne : w ≠ []) (hw : ∀ c ∈ w, isBlank c = false) (cs : List Char) :
    words (w ++ cs) =
      (w ++ cs.takeWhile (!isBlank ·)) :: words (cs.dropWhile (!isBlank ·)) := by
  have hword : ∀ c ∈ w ++ cs.takeWhile (!isBlank ·), isBlank c = false := by
    intro c hc
    rcases List.mem_append.1 hc with hc | hc
    · exact hw c hc
    · simpa using List.all_eq_true.1 List.all_takeWhile c hc
  have hsplit : w ++ cs = (w ++ cs.takeWhile (!isBlank ·)) ++ cs.dropWhile (!isBlank ·) := by
    rw [List.append_assoc, List.takeWhile_append_dropWhile]
  have hne : w ++ cs.takeWhile (!isBlank ·) ≠ [] := by simp [hne]
  rw [hsplit]
  cases hd : cs.dropWhile (!isBlank ·) with
  | nil => rw [List.append_nil, words_of_forall hne hword, words_nil]
  | cons c rest =>
    have hc : isBlank c = true := by
      have := List.head?_dropWhile_not (!isBlank ·) cs
      simpa [hd] using this
    rw [words_append_blank hc, words_of_forall hne hword, words_cons_blank hc, List.singleton_append]

theorem words_of_takeWhile (h : cs.takeWhile (!isBlank ·) ≠ []) :
    words cs = cs.takeWhile (!isBlank ·) :: words (cs.dropWhile (!isBlank ·)) := by
  cases cs with
  | nil => simp at h
  | cons c cs =>
    cases hc : isBlank c with
    | true => simp [hc] at h
    | false =>
      have hwords := words_append_of_forall (w := [c]) (by simp) (by simpa using hc) cs
      rwa [List.takeWhile_cons_of_pos (by simp [hc]), List.dropWhile_cons_of_pos (by simp [hc])]

theorem exists_append_word (cs : List Char) : ∃ us w, cs = us ++ w ∧ (∀ c ∈ w, isBlank c = false) ∧
    ∀ ds, words (us ++ ds) = words us ++ words ds := by
  suffices h : (∀ c ∈ cs, isBlank c = false) ∨
      ∃ us b w, cs = us ++ b :: w ∧ isBlank b = true ∧ ∀ c ∈ w, isBlank c = false by
    rcases h with h | ⟨us, b, w, rfl, hb, hw⟩
    · exact ⟨[], cs, rfl, h, fun ds => by simp⟩
    · refine ⟨us ++ [b], w, by simp, hw, fun ds => ?_⟩
      rw [List.append_assoc, List.singleton_append, words_append_blank hb, words_append_blank hb,
        words_nil, List.append_nil]
  induction cs with
  | nil => exact .inl (by simp)
  | cons c cs ih =>
    rcases ih with h | ⟨us, b, w, rfl, hb, hw⟩
    · cases hc : isBlank c with
      | true => exact .inr ⟨[], c, cs, rfl, hc, h⟩
      | false => exact .inl (by simpa [hc] using h)
    · exact .inr ⟨c :: us, b, w, rfl, hb, hw⟩

theorem mem_words_of_mem {c : Char} (hc : isBlank c = false) (h : c ∈ cs) :
    ∃ w ∈ words cs, c ∈ w := by
  rcases eq_true_or_mem_splitOnP isBlank h with hb | ⟨w, hw, hm⟩
  · simp [hc] at hb
  · exact ⟨w, List.mem_filter.2 ⟨hw, by simp [List.ne_nil_of_mem hm]⟩, hm⟩

theorem eq_trimEnd_append (cs : List Char) :
    ∃ bs, cs = trimEnd cs ++ bs ∧ ∀ c ∈ bs, isBlank c = true := by
  induction cs with
  | nil => exact ⟨[], rfl, by simp⟩
  | cons c cs ih =>
    obtain ⟨bs, hbs, hb⟩ := ih
    rw [trimEnd_cons]
    split
    · next h =>
      simp only [Bool.and_eq_true, List.isEmpty_iff] at h
      rw [h.2, List.nil_append] at hbs
      rw [hbs]
      exact ⟨c :: bs, rfl, by simpa [h.1] using hb⟩
    · exact ⟨bs, by rw [List.cons_append, ← hbs], hb⟩

theorem eq_append_trim_append (cs : List Char) : ∃ as bs, cs = as ++ trim cs ++ bs ∧
    (∀ c ∈ as, isBlank c = true) ∧ ∀ c ∈ bs, isBlank c = true := by
  obtain ⟨bs, hbs, hb⟩ := eq_trimEnd_append (cs.dropWhile isBlank)
  refine ⟨cs.takeWhile isBlank, bs, ?_, ?_, hb⟩
  · rw [trim, List.append_assoc, ← hbs, List.takeWhile_append_dropWhile]
  · exact fun c hc => List.all_eq_true.1 List.all_takeWhile c hc

theorem mem_of_mem_trim {c : Char} (h : c ∈ trim cs) : c ∈ cs := by
  obtain ⟨as, bs, hcs, -⟩ := eq_append_trim_append cs
  rw [hcs]
  simp [h]

theorem mem_trim_of_mem {c : Char} (hc : isBlank c = false) (h : c ∈ cs) : c ∈ trim cs := by
  obtain ⟨as, bs, hcs, has, hbs⟩ := eq_append_trim_append cs
  rw [hcs, List.mem_append, List.mem_append] at h
  rcases h with (h | h) | h
  · simp [has c h] at hc
  · exact h
  · simp [hbs c h] at hc

theorem trimEnd_append_cons {c : Char} (hc : isBlank c = false) (cs ds : List Char) :
    trimEnd (cs ++ c :: ds) = cs ++ c :: trimEnd ds := by
  induction cs with
  | nil => rw [List.nil_append, List.nil_append, trimEnd_cons, hc, Bool.false_and, if_neg Bool.false_ne_true]
  | cons x cs ih => simp [trimEnd_cons, ih]

theorem trim_around (hw : IsWord w) (cs ds : List Char) :
    trim (cs ++ w ++ ds) = cs.dropWhile isBlank ++ w ++ trimEnd ds := by
  obtain ⟨hne, hb⟩ := hw
  have hdrop : (cs ++ (w ++ ds)).dropWhile isBlank = cs.dropWhile isBlank ++ (w ++ ds) := by
    cases w with
    | nil => exact absurd rfl hne
    | cons c w =>
      rw [List.dropWhile_append, List.cons_append, List.dropWhile_cons_of_neg (by simp [hb c (by simp)])]
      split
      · next he => rw [List.isEmpty_iff.1 he, List.nil_append]
      · rfl
  obtain ⟨u, c, rfl⟩ : ∃ u c, w = u ++ [c] :=
    (List.eq_nil_or_concat w).resolve_left hne |>.imp fun u ⟨c, h⟩ => ⟨c, h ▸ List.concat_eq_append⟩
  rw [trim, List.append_assoc, hdrop]
  simpa using trimEnd_append_cons (hb c (by simp)) (cs.dropWhile isBlank ++ u) ds

@[simp] theorem words_trim (cs : List Char) : words (trim cs) = words cs := by
  obtain ⟨as, bs, he, ha, hb⟩ := eq_append_trim_append cs
  conv => rhs; rw [he]
  rw [words_append_of_blank hb, words_blank_append ha]

theorem isBlank_eq_false_of_trim {c : Char} (h : trim cs = c :: ds) : isBlank c = false := by
  rw [trim] at h
  cases hd : cs.dropWhile isBlank with
  | nil => rw [hd] at h; cases h
  | cons x xs =>
    have hx : isBlank x = false := by simpa [hd] using List.head?_dropWhile_not isBlank cs
    rw [hd, trimEnd_cons, hx] at h
    rw [← (List.cons.inj h).1]
    exact hx

theorem trim_of_words {ws : List (List Char)} (h : words cs = w :: ws) :
    ∃ rest, trim cs = w ++ rest := by
  rw [← words_trim] at h
  cases ht : trim cs with
  | nil => rw [ht, words_nil] at h; cases h
  | cons c ds =>
    have hc := isBlank_eq_false_of_trim ht
    rw [ht, words_of_takeWhile (by simp [hc])] at h
    rw [← (List.cons.inj h).1]
    exact ⟨_, List.takeWhile_append_dropWhile.symm⟩

theorem words_append_of_words {c : Char} {ws : List (List Char)} (h : words cs = (c :: w) :: ws)
    (rest : List Char) : ∃ w' ws', words (cs ++ rest) = (c :: w') :: ws' := by
  have hmem : c :: w ∈ words cs := by simp [h]
  have hc := isBlank_eq_false_of_mem_words hmem List.mem_cons_self
  obtain ⟨ds, hd⟩ := trim_of_words h
  obtain ⟨as, bs, he, ha, -⟩ := eq_append_trim_append cs
  rw [hd] at he
  have hhead : cs ++ rest = as ++ ([c] ++ (w ++ ds ++ bs ++ rest)) := by rw [he]; simp
  rw [hhead, words_blank_append ha, words_append_of_forall (by simp) (by simpa using hc)]
  exact ⟨_, _, rfl⟩

theorem takeWhile_dropWhile (cs : List Char) :
    (cs.dropWhile (!isBlank ·)).takeWhile (!isBlank ·) = [] := by
  cases hd : cs.dropWhile (!isBlank ·) with
  | nil => rfl
  | cons c rest =>
    have hc : isBlank c = true := by simpa [hd] using List.head?_dropWhile_not (!isBlank ·) cs
    rw [List.takeWhile_cons_of_neg (by simp [hc])]

theorem words_of_takeWhile_eq_nil (hne : w ≠ []) (hw : ∀ c ∈ w, isBlank c = false)
    (h : cs.takeWhile (!isBlank ·) = []) : words (w ++ cs) = w :: words cs := by
  have hcs : cs.dropWhile (!isBlank ·) = cs := by
    have hsplit := List.takeWhile_append_dropWhile (p := (!isBlank ·)) (l := cs)
    rwa [h, List.nil_append] at hsplit
  rw [words_append_of_forall hne hw, h, hcs, List.append_nil]

theorem exists_append_of_words_eq_cons {vs : List (List Char)} (h : words cs = w :: vs) :
    ∃ as after, cs = as ++ w ++ after ∧ (∀ c ∈ as, isBlank c = true) ∧ words after = vs ∧
      after.takeWhile (!isBlank ·) = [] := by
  have hblank : ∀ c ∈ cs.takeWhile isBlank, isBlank c = true :=
    fun c hc => List.all_eq_true.1 List.all_takeWhile c hc
  have hsplit := List.takeWhile_append_dropWhile (p := isBlank) (l := cs)
  rw [← hsplit, words_blank_append hblank] at h
  cases hd : cs.dropWhile isBlank with
  | nil => simp [hd] at h
  | cons c rest =>
    have hc : isBlank c = false := by simpa [hd] using List.head?_dropWhile_not isBlank cs
    rw [hd, words_of_takeWhile (by simp [hc])] at h
    obtain ⟨hw, hvs⟩ := List.cons.inj h
    refine ⟨cs.takeWhile isBlank, _, ?_, hblank, hvs, takeWhile_dropWhile _⟩
    rw [← hw, List.append_assoc, List.takeWhile_append_dropWhile, ← hd, hsplit]

theorem exists_append_of_words {us vs : List (List Char)} (h : words cs = us ++ w :: vs) :
    ∃ before after, cs = before ++ w ++ after ∧ words before = us ∧ words after = vs ∧
      after.takeWhile (!isBlank ·) = [] := by
  induction us generalizing cs with
  | nil =>
    obtain ⟨as, after, rfl, has, hvs, hafter⟩ := exists_append_of_words_eq_cons h
    exact ⟨as, after, rfl, words_of_blank has, hvs, hafter⟩
  | cons u us ih =>
    have hu : IsWord u := isWord_of_mem_words (h.symm ▸ List.mem_cons_self : u ∈ words cs)
    obtain ⟨as, rest, rfl, has, hrest, hhead⟩ := exists_append_of_words_eq_cons h
    obtain ⟨before, after, rfl, hus, hvs, hafter⟩ := ih hrest
    have hbefore : before.takeWhile (!isBlank ·) = [] := by
      cases before with
      | nil => rfl
      | cons c before => simpa [List.takeWhile_cons] using hhead
    refine ⟨as ++ (u ++ before), after, by simp, ?_, hvs, hafter⟩
    rw [words_blank_append has, words_of_takeWhile_eq_nil hu.1 hu.2 hbefore, hus]

end Timetable.Text
