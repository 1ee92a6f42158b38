namespace Timetable

section
variable {ε α β : Type}

theorem isOk_iff_exists {x : Except ε α} : x.isOk = true ↔ ∃ a, x = .ok a := by
  cases x <;> simp [Except.isOk, Except.toBool]

theorem bind_eq_ok_iff {x : Except ε α} {f : α → Except ε β} {b : β} :
    (x >>= f) = .ok b ↔ ∃ a, x = .ok a ∧ f a = .ok b := by
  cases x with
  | error e => simp [bind, Except.bind]
  | ok a => simp [bind, Except.bind]

theorem map_eq_ok_iff {x : Except ε α} {f : α → β} {b : β} :
    x.map f = .ok b ↔ ∃ a, x = .ok a ∧ f a = b := by
  cases x <;> simp [Except.map]

theorem mapError_eq_ok_iff {ε' : Type} {x : Except ε α} {f : ε → ε'} {a : α} :
    x.mapError f = .ok a ↔ x = .ok a := by
  cases x with
  | error e =>
    constructor
    · intro h
      cases h
    · intro h
      cases h
  | ok b =>
    constructor
    · intro h
      cases h
      rfl
    · intro h
      cases h
      rfl

end

theorem eq_or_rel_of_find?_eq_some {α : Type} {r : α → α → Prop} {p : α → Bool} {xs : List α}
    {a x : α} (hr : xs.Pairwise r) (h : xs.find? p = some a) (hx : x ∈ xs) (hp : p x = true) :
    x = a ∨ r a x := by
  induction xs with
  | nil => simp at hx
  | cons y ys ih =>
    rw [List.pairwise_cons] at hr
    cases hy : p y with
    | true =>
      rw [List.find?_cons_of_pos hy] at h
      cases h
      rcases List.mem_cons.1 hx with rfl | hx
      · exact .inl rfl
      · exact .inr (hr.1 x hx)
    | false =>
      rw [List.find?_cons_of_neg (by simp [hy])] at h
      rcases List.mem_cons.1 hx with rfl | hx
      · simp [hy] at hp
      · exact ih hr.2 h hx

end Timetable
