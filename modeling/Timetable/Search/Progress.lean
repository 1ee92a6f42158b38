import Timetable.Search.Move

namespace Timetable.Plan

open Calendar

variable {p : Plan} {t u : Int}

theorem lt_of_nextYear_eq_jump (h : p.nextYear (dateOf t).civil.year = .jump u) : t < u := by
  rw [nextYear] at h
  split at h
  · simp at h
  · split at h
    · simp at h
    · obtain ⟨d, hd, rfl⟩ := Move.exists_of_toDate_eq_jump h
      obtain ⟨y, hy, hc⟩ := Option.bind_eq_some_iff.1 hd
      have hle := Field.le_of_next?_eq_some hy
      obtain ⟨rfl, hv, -⟩ := Date.eq_toDate_of_ofCivil?_eq_some hc
      apply lt_secondAt_of_number_lt
      have h₁ := yearStart_le_of_le (y := (dateOf t).civil.year + 1) (z := y) (by omega)
      have h₂ := (dateOf t).number_lt_yearStart_succ
      have h₃ := Civil.yearStart_le_toDate hv
      simp only at h₃
      omega

theorem lt_of_nextMonth_eq_jump (h : p.nextMonth (dateOf t).civil = .jump u) : t < u := by
  rw [nextMonth] at h
  split at h
  · next m hm =>
    obtain ⟨d, hc, rfl⟩ := Move.exists_of_toDate_eq_jump h
    obtain ⟨rfl, hv, -⟩ := Date.eq_toDate_of_ofCivil?_eq_some hc
    exact lt_secondAt_of_number_lt
      ((dateOf t).number_lt_of_month_lt (Field.le_of_next?_eq_some hm) hv.2.1) _ _ _
  · obtain ⟨d, hc, rfl⟩ := Move.exists_of_toDate_eq_jump h
    obtain ⟨rfl, hv, -⟩ := Date.eq_toDate_of_ofCivil?_eq_some hc
    apply lt_secondAt_of_number_lt
    have h₂ := (dateOf t).number_lt_yearStart_succ
    have h₃ := Civil.yearStart_le_toDate hv
    simp only at h₃
    omega

theorem lt_of_toDate_addDays_eq_jump
    (h : Move.toDate ((dateOf t).addDays? 1) 0 0 0 = .jump u) : t < u := by
  obtain ⟨d, hd, rfl⟩ := Move.exists_of_toDate_eq_jump h
  obtain ⟨rfl, -⟩ := Date.eq_addDays_of_addDays?_eq_some hd
  exact lt_secondAt_of_number_lt (by simp only [Date.addDays]; omega) _ _ _

theorem lt_of_nextHour_eq_jump (h : p.nextHour t = .jump u) : t < u := by
  rw [nextHour] at h
  split at h
  · next k hk =>
    have hle := Field.le_of_next?_eq_some hk
    have := secondAt_dateOf t
    have := minuteOf_lt t
    have := secondOf_lt t
    obtain rfl := Move.jump.inj h
    simp only [secondAt] at *
    omega
  · exact lt_of_toDate_addDays_eq_jump h

theorem lt_of_nextMinute_eq_jump (h : p.nextMinute t = .jump u) : t < u := by
  have := secondAt_dateOf t
  have := minuteOf_lt t
  have := secondOf_lt t
  rw [nextMinute] at h
  split at h
  · next k hk =>
    have hle := Field.le_of_next?_eq_some hk
    obtain rfl := Move.jump.inj h
    simp only [secondAt] at *
    omega
  · obtain rfl := Move.eq_of_toSecond_eq_jump h
    simp only [secondAt] at *
    omega

theorem lt_of_nextSecond_eq_jump (h : p.nextSecond t = .jump u) : t < u := by
  have := secondAt_dateOf t
  have := secondOf_lt t
  rw [nextSecond] at h
  split at h
  · next k hk =>
    have hle := Field.le_of_next?_eq_some hk
    obtain rfl := Move.jump.inj h
    simp only [secondAt] at *
    omega
  · obtain rfl := Move.eq_of_toSecond_eq_jump h
    simp only [secondAt] at *
    omega

theorem lt_of_forward_eq_jump (h : p.forward t = .jump u) : t < u := by
  simp only [forward] at h
  split at h
  · exact lt_of_nextYear_eq_jump h
  split at h
  · exact lt_of_nextMonth_eq_jump h
  split at h
  · exact lt_of_toDate_addDays_eq_jump h
  split at h
  · exact lt_of_nextHour_eq_jump h
  split at h
  · exact lt_of_nextMinute_eq_jump h
  split at h
  · exact lt_of_nextSecond_eq_jump h
  · simp at h

theorem lt_of_prevYear_eq_jump (h : p.prevYear (dateOf t).civil.year = .jump u) : u < t := by
  rw [prevYear] at h
  split at h
  · simp at h
  · split at h
    · simp at h
    · obtain ⟨d, hd, rfl⟩ := Move.exists_of_toDate_eq_jump h
      obtain ⟨y, hy, hc⟩ := Option.bind_eq_some_iff.1 hd
      have hle := Field.le_of_prev?_eq_some hy
      obtain ⟨rfl, hv, -⟩ := Date.eq_toDate_of_ofCivil?_eq_some hc
      apply secondAt_lt_of_number_lt
      have h₁ := yearStart_le_of_le (y := (y : Int) + 1) (z := (dateOf t).civil.year) (by omega)
      have h₂ := (dateOf t).yearStart_le_number
      have h₃ := Civil.toDate_lt_yearStart_succ hv
      simp only at h₃
      omega

theorem lt_of_prevMonth_eq_jump (h : p.prevMonth (dateOf t).civil = .jump u) : u < t := by
  simp only [prevMonth] at h
  obtain ⟨d, hd, rfl⟩ := Move.exists_of_toDate_eq_jump h
  obtain ⟨e, he, rfl⟩ := Option.map_eq_some_iff.1 hd
  apply secondAt_lt_of_number_lt
  split at he
  · next m hm =>
    have hle := Field.le_of_prev?_eq_some hm
    obtain ⟨rfl, hv, -⟩ := Date.eq_toDate_of_ofCivil?_eq_some he
    have := (dateOf t).civil_valid.1
    exact (dateOf t).lastOfMonth_lt_of_month_lt hv (by omega)
  · obtain ⟨rfl, hv, -⟩ := Date.eq_toDate_of_ofCivil?_eq_some he
    have h₁ := Civil.lastOfMonth_lt_yearStart_succ hv
    have h₂ := (dateOf t).yearStart_le_number
    simp only [Int.sub_add_cancel] at h₁
    omega

theorem lt_of_toDate_subDay_eq_jump
    (h : Move.toDate ((dateOf t).addDays? (-1)) 23 59 59 = .jump u) : u < t := by
  obtain ⟨d, hd, rfl⟩ := Move.exists_of_toDate_eq_jump h
  obtain ⟨rfl, -⟩ := Date.eq_addDays_of_addDays?_eq_some hd
  exact secondAt_lt_of_number_lt (by simp only [Date.addDays]; omega)

theorem lt_of_below_eq_some {k : FieldKind} {f : Field k} {v w : Nat} (h : below f v = some w) :
    w < v := by
  rw [below] at h
  split at h
  · simp at h
  · have := Field.le_of_prev?_eq_some h; omega

theorem lt_of_prevHour_eq_jump (h : p.prevHour t = .jump u) : u < t := by
  have := secondAt_dateOf t
  rw [prevHour] at h
  split at h
  · next k hk =>
    have := lt_of_below_eq_some hk
    obtain rfl := Move.jump.inj h
    simp only [secondAt] at *
    omega
  · exact lt_of_toDate_subDay_eq_jump h

theorem lt_of_prevMinute_eq_jump (h : p.prevMinute t = .jump u) : u < t := by
  have := secondAt_dateOf t
  rw [prevMinute] at h
  split at h
  · next k hk =>
    have := lt_of_below_eq_some hk
    obtain rfl := Move.jump.inj h
    simp only [secondAt] at *
    omega
  · obtain rfl := Move.eq_of_toSecond_eq_jump h
    simp only [secondAt] at *
    omega

theorem lt_of_prevSecond_eq_jump (h : p.prevSecond t = .jump u) : u < t := by
  have := secondAt_dateOf t
  rw [prevSecond] at h
  split at h
  · next k hk =>
    have := lt_of_below_eq_some hk
    obtain rfl := Move.jump.inj h
    simp only [secondAt] at *
    omega
  · obtain rfl := Move.eq_of_toSecond_eq_jump h
    simp only [secondAt] at *
    omega

theorem lt_of_backward_eq_jump (h : p.backward t = .jump u) : u < t := by
  simp only [backward] at h
  split at h
  · exact lt_of_prevYear_eq_jump h
  split at h
  · exact lt_of_prevMonth_eq_jump h
  split at h
  · exact lt_of_toDate_subDay_eq_jump h
  split at h
  · exact lt_of_prevHour_eq_jump h
  split at h
  · exact lt_of_prevMinute_eq_jump h
  split at h
  · exact lt_of_prevSecond_eq_jump h
  · simp at h

end Timetable.Plan
