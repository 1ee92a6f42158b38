namespace Timetable.Text

def cutAt (pat : List Char) : List Char → Option (List Char × List Char)
  | [] => if pat.isEmpty then some ([], []) else none
  | c :: cs =>
    if pat.isPrefixOf (c :: cs) then some ([], (c :: cs).drop pat.length)
    else (cutAt pat cs).map fun (before, after) => (c :: before, after)

def dropLast? (c : Char) (cs : List Char) : Option (List Char) :=
  if cs.getLast? = some c then some cs.dropLast else none

theorem append_of_cutAt_eq_some {pat cs before after : List Char}
    (h : cutAt pat cs = some (before, after)) : cs = before ++ pat ++ after := by
  induction cs generalizing before with
  | nil =>
    simp only [cutAt] at h
    split at h <;> simp_all
  | cons c cs ih =>
    simp only [cutAt] at h
    split at h
    · next hp =>
      simp only [Option.some.injEq, Prod.mk.injEq] at h
      obtain ⟨rfl, rfl⟩ := h
      exact (List.prefix_iff_eq_append.1 (List.isPrefixOf_iff_prefix.1 hp)).symm
    · obtain ⟨⟨b, a⟩, hb, he⟩ := Option.map_eq_some_iff.1 h
      simp only [Prod.mk.injEq] at he
      obtain ⟨rfl, rfl⟩ := he
      simp [ih hb]

theorem cutAt_of_not_mem {c : Char} {pat cs : List Char} (h : c ∉ cs) :
    cutAt (c :: pat) cs = none := by
  induction cs with
  | nil => rfl
  | cons x cs ih =>
    simp only [List.mem_cons, not_or] at h
    have hp : (c :: pat).isPrefixOf (x :: cs) = false := by simp [List.isPrefixOf, h.1]
    rw [cutAt, hp, ih h.2]
    rfl

theorem cutAt_append {c : Char} {pat before after : List Char} (h : c ∉ before) :
    cutAt (c :: pat) (before ++ c :: pat ++ after) = some (before, after) := by
  induction before with
  | nil =>
    have hp : (c :: pat).isPrefixOf (c :: (pat ++ after)) = true := by
      rw [List.isPrefixOf_iff_prefix, ← List.cons_append]
      exact List.prefix_append _ _
    rw [List.nil_append, List.cons_append, cutAt, if_pos hp]
    simp
  | cons x before ih =>
    simp only [List.mem_cons, not_or] at h
    have hp : ∀ rest, (c :: pat).isPrefixOf (x :: rest) = false := by
      intro rest
      simp [List.isPrefixOf, h.1]
    rw [List.cons_append, List.cons_append, cutAt, hp, ih h.2]
    rfl

theorem cutAt_singleton {c : Char} {before after : List Char} (h : c ∉ before) :
    cutAt [c] (before ++ c :: after) = some (before, after) := by
  have hcut : cutAt [c] (before ++ [c] ++ after) = some (before, after) := cutAt_append h
  rwa [List.append_assoc, List.singleton_append] at hcut

theorem cutAt_append_of_last {c : Char} {pat before after : List Char} (hb : c ∉ before)
    (hp : c ∉ pat) :
    cutAt (pat ++ [c]) (before ++ (pat ++ [c]) ++ after) = some (before, after) := by
  induction before with
  | nil =>
    have hpre : (pat ++ [c]).isPrefixOf (pat ++ [c] ++ after) = true :=
      List.isPrefixOf_iff_prefix.2 (List.prefix_append _ _)
    rw [List.nil_append]
    cases hs : pat ++ [c] with
    | nil => simp at hs
    | cons x xs =>
      rw [hs] at hpre
      rw [List.cons_append, cutAt, ← List.cons_append, if_pos hpre, List.drop_left]
  | cons x before ih =>
    simp only [List.mem_cons, not_or] at hb
    have hpre : (pat ++ [c]).isPrefixOf (x :: (before ++ (pat ++ [c]) ++ after)) = false := by
      rw [Bool.eq_false_iff, ne_eq, List.isPrefixOf_iff_prefix]
      intro hpre
      have hlong : x :: (before ++ pat) <+: x :: (before ++ (pat ++ [c]) ++ after) :=
        ⟨c :: after, by simp⟩
      have hshort := List.prefix_of_prefix_length_le hpre hlong (by simp)
      have hmem : c ∈ x :: (before ++ pat) := hshort.subset (by simp)
      simp [hb.1, hb.2, hp] at hmem
    rw [List.cons_append, List.cons_append, cutAt, hpre, ih hb.2]
    rfl

theorem eq_append_of_dropLast?_eq_some {c : Char} {cs r : List Char} (h : dropLast? c cs = some r) :
    cs = r ++ [c] := by
  simp only [dropLast?] at h
  split at h
  · next hl =>
    obtain ⟨ys, rfl⟩ := List.getLast?_eq_some_iff.1 hl
    simp_all
  · simp at h

@[simp] theorem dropLast?_append_singleton (c : Char) (r : List Char) :
    dropLast? c (r ++ [c]) = some r := by
  simp [dropLast?]

end Timetable.Text
