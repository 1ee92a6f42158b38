import Timetable.Proofs.Search.Backward
import Timetable.Proofs.Search.Forward

namespace Timetable

open Calendar

namespace Calendar

variable {t v : Int} {d : Date}

theorem sameHour_of_lastHour (ht : latestSecond - 3600 < t) (ht' : t ≤ latestSecond)
    (hv : latestSecond - 3600 < v) (hv' : v ≤ latestSecond) :
    dateOf v = dateOf t ∧ hourOf v = hourOf t := by
  rw [dateOf_eq_iff]
  simp only [latestSecond, dayStart, Date.latest, hourOf, secondsPerDay] at *
  omega

theorem sameHour_of_firstHour (ht : earliestSecond ≤ t) (ht' : t < earliestSecond + 3600)
    (hv : earliestSecond ≤ v) (hv' : v < earliestSecond + 3600) :
    dateOf v = dateOf t ∧ hourOf v = hourOf t := by
  rw [dateOf_eq_iff]
  simp only [earliestSecond, dayStart, Date.earliest, hourOf, secondsPerDay] at *
  omega

theorem secondAt_le_latestSecond (hd : d.InRange) {h m s : Nat} (hh : h < 24) (hm : m < 60)
    (hs : s < 60) : secondAt d h m s ≤ latestSecond := by
  have := hd.2
  simp only [secondAt, latestSecond, dayStart, secondsPerDay]
  omega

theorem earliestSecond_le_secondAt (hd : d.InRange) (h m s : Nat) :
    earliestSecond ≤ secondAt d h m s := by
  have := hd.1
  simp only [secondAt, earliestSecond, dayStart, secondsPerDay]
  omega

end Calendar

namespace Move

def StaysInside (m : Move) : Prop :=
  m ≠ stuck ∧ ∀ u, m = jump u → earliestSecond ≤ u ∧ u ≤ latestSecond

theorem staysInside_here : here.StaysInside := by
  constructor
  · simp
  · intro u h
    cases h

theorem staysInside_toSecond (t : Int) : (toSecond t).StaysInside := by
  rw [toSecond]
  split
  · next ht =>
    refine ⟨by simp, fun u h => ?_⟩
    obtain rfl := jump.inj h
    exact ht
  · simp [StaysInside]

theorem staysInside_secondAt {d : Date} (hd : d.InRange) {h m s : Nat} (hh : h < 24) (hm : m < 60)
    (hs : s < 60) : (jump (secondAt d h m s)).StaysInside := by
  refine ⟨by simp, fun u hu => ?_⟩
  obtain rfl := jump.inj hu
  exact ⟨earliestSecond_le_secondAt hd h m s, secondAt_le_latestSecond hd hh hm hs⟩

end Move

namespace Plan

variable {p : Plan} {t u v : Int} {α : Type} {accept : Int → Option α} {first last : Int}

def LeavesAhead (p : Plan) (t : Int) : Prop :=
  (∃ v, latestSecond - 3600 < v ∧ v ≤ latestSecond ∧ p.admits v = true) ∧
    ∀ v, t ≤ v → v ≤ latestSecond → p.admits v = false

def LeavesBehind (p : Plan) (t : Int) : Prop :=
  (∃ v, earliestSecond ≤ v ∧ v < earliestSecond + 3600 ∧ p.admits v = true) ∧
    ∀ v, earliestSecond ≤ v → v ≤ t → p.admits v = false

theorem forward_of_sameHour (hd : dateOf v = dateOf t) (hh : hourOf v = hourOf t)
    (hv : p.admits v = true) :
    p.forward t = .here ∨ p.forward t = p.nextMinute t ∨ p.forward t = p.nextSecond t := by
  simp only [admits, admitsDate, Date.year, Date.month, hd, hh, Bool.and_eq_true] at hv
  obtain ⟨⟨⟨⟨⟨hy, hm⟩, hday⟩, hhour⟩, -⟩, -⟩ := hv
  simp only [forward, hy, hm, hday, hhour, Bool.not_true, Bool.false_eq_true, if_false]
  repeat' split
  all_goals simp

theorem backward_of_sameHour (hd : dateOf v = dateOf t) (hh : hourOf v = hourOf t)
    (hv : p.admits v = true) :
    p.backward t = .here ∨ p.backward t = p.prevMinute t ∨ p.backward t = p.prevSecond t := by
  simp only [admits, admitsDate, Date.year, Date.month, hd, hh, Bool.and_eq_true] at hv
  obtain ⟨⟨⟨⟨⟨hy, hm⟩, hday⟩, hhour⟩, -⟩, -⟩ := hv
  simp only [backward, hy, hm, hday, hhour, Bool.not_true, Bool.false_eq_true, if_false]
  repeat' split
  all_goals simp

theorem staysInside_nextMinute (p : Plan) (hr : (dateOf t).InRange) :
    (p.nextMinute t).StaysInside := by
  rw [nextMinute]
  split
  · next m hm =>
    have hb := (Field.bounds_of_admits (Field.admits_of_next?_eq_some hm)).2
    exact Move.staysInside_secondAt hr (hourOf_lt t) (Nat.lt_succ_of_le hb) (by decide)
  · exact Move.staysInside_toSecond _

theorem staysInside_nextSecond (p : Plan) (hr : (dateOf t).InRange) :
    (p.nextSecond t).StaysInside := by
  rw [nextSecond]
  split
  · next s hs =>
    have hb := (Field.bounds_of_admits (Field.admits_of_next?_eq_some hs)).2
    exact Move.staysInside_secondAt hr (hourOf_lt t) (minuteOf_lt t) (Nat.lt_succ_of_le hb)
  · exact Move.staysInside_toSecond _

theorem staysInside_prevMinute (p : Plan) (hr : (dateOf t).InRange) :
    (p.prevMinute t).StaysInside := by
  rw [prevMinute]
  split
  · next m hm =>
    have hlt := Nat.lt_trans (lt_of_below_eq_some hm) (minuteOf_lt t)
    exact Move.staysInside_secondAt hr (hourOf_lt t) hlt (by decide)
  · exact Move.staysInside_toSecond _

theorem staysInside_prevSecond (p : Plan) (hr : (dateOf t).InRange) :
    (p.prevSecond t).StaysInside := by
  rw [prevSecond]
  split
  · next s hs =>
    have hlt := Nat.lt_trans (lt_of_below_eq_some hs) (secondOf_lt t)
    exact Move.staysInside_secondAt hr (hourOf_lt t) (minuteOf_lt t) hlt
  · exact Move.staysInside_toSecond _

theorem staysInside_forward (h₁ : latestSecond - 3600 < t) (h₂ : t ≤ latestSecond)
    (hv : latestSecond - 3600 < v) (hv' : v ≤ latestSecond) (hadm : p.admits v = true) :
    (p.forward t).StaysInside := by
  have hrange : earliestSecond ≤ latestSecond - 3600 := by decide
  have hr := inRange_dateOf (by omega) h₂
  obtain ⟨hd, hh⟩ := sameHour_of_lastHour h₁ h₂ hv hv'
  rcases forward_of_sameHour hd hh hadm with h | h | h
  · rw [h]
    exact Move.staysInside_here
  · rw [h]
    exact p.staysInside_nextMinute hr
  · rw [h]
    exact p.staysInside_nextSecond hr

theorem staysInside_backward (h₁ : earliestSecond ≤ t) (h₂ : t < earliestSecond + 3600)
    (hv : earliestSecond ≤ v) (hv' : v < earliestSecond + 3600) (hadm : p.admits v = true) :
    (p.backward t).StaysInside := by
  have hrange : earliestSecond + 3600 ≤ latestSecond := by decide
  have hr := inRange_dateOf h₁ (by omega)
  obtain ⟨hd, hh⟩ := sameHour_of_firstHour h₁ h₂ hv hv'
  rcases backward_of_sameHour hd hh hadm with h | h | h
  · rw [h]
    exact Move.staysInside_here
  · rw [h]
    exact p.staysInside_prevMinute hr
  · rw [h]
    exact p.staysInside_prevSecond hr

theorem admits_eq_false_of_seekForward_eq_outOfRange (h₁ : earliestSecond ≤ t)
    (hl : last ≤ latestSecond) (hfar : latestSecond ≤ t + longestSearch)
    (ha : ∀ v, t ≤ v → v ≤ last → accept v ≠ none)
    (h : p.seekForward accept last t = .outOfRange) (hv : t ≤ v) (hv' : v ≤ latestSecond) :
    p.admits v = false := by
  fun_induction seekForward p accept last t with
  | case1 t hlt => cases h
  | case2 t hge hf a hacc => cases h
  | case3 t hge hf hn hlt ih => exact absurd hn (ha t (Int.le_refl t) (by omega))
  | case4 t hge hf hn hlt => exact absurd hn (ha t (Int.le_refl t) (by omega))
  | case5 t hge u hf ih =>
    have hu := lt_of_forward_eq_jump hf
    rcases Int.lt_or_le v u with hlt | hle
    · exact admits_eq_false_of_forward_passes h₁ (by omega) hv (by omega) (by rw [hf]; exact hlt)
    · exact ih (by omega) (by omega) (fun w hw => ha w (by omega)) h hle
  | case6 t hge hf => cases h
  | case7 t hge hf =>
    exact admits_eq_false_of_forward_passes h₁ (by omega) hv (by omega) (by rw [hf]; exact hv')

theorem admits_eq_false_of_seekBackward_eq_outOfRange (h₂ : t ≤ latestSecond)
    (hf : earliestSecond ≤ first) (ha : ∀ v, first ≤ v → v ≤ t → accept v ≠ none)
    (h : p.seekBackward accept first t = .outOfRange) (hv : earliestSecond ≤ v) (hv' : v ≤ t) :
    p.admits v = false := by
  fun_induction seekBackward p accept first t with
  | case1 t hlt => cases h
  | case2 t hge hb a hacc => cases h
  | case3 t hge hb hn hlt ih => exact absurd hn (ha t (by omega) (Int.le_refl t))
  | case4 t hge hb hn hlt => exact absurd hn (ha t (by omega) (Int.le_refl t))
  | case5 t hge u hb ih =>
    have hu := lt_of_backward_eq_jump hb
    rcases Int.lt_or_le u v with hlt | hle
    · exact admits_eq_false_of_backward_passes (by omega) h₂ hv' (by rw [hb]; exact hlt)
    · exact ih (by omega) (fun w hw hw' => ha w hw (by omega)) h hle
  | case6 t hge hb => cases h
  | case7 t hge hb =>
    exact admits_eq_false_of_backward_passes (by omega) h₂ hv' (by rw [hb]; exact hv)

theorem seekForward_ne_exhausted (h₁ : latestSecond - 3600 < t) (h₂ : t ≤ latestSecond)
    (ha : ∀ v, t ≤ v → v ≤ latestSecond → accept v ≠ none) (hv : latestSecond - 3600 < v)
    (hv' : v ≤ latestSecond) (hadm : p.admits v = true) :
    p.seekForward accept latestSecond t ≠ .exhausted := by
  fun_induction seekForward p accept latestSecond t with
  | case1 t hlt => omega
  | case2 t hge hf a hacc =>
    intro h
    cases h
  | case3 t hge hf hn hlt ih => exact absurd hn (ha t (Int.le_refl t) h₂)
  | case4 t hge hf hn hlt =>
    intro h
    cases h
  | case5 t hge u hf ih =>
    have hu := lt_of_forward_eq_jump hf
    have hle := ((staysInside_forward h₁ h₂ hv hv' hadm).2 u hf).2
    exact ih (by omega) hle fun w hw => ha w (by omega)
  | case6 t hge hf => exact absurd hf (staysInside_forward h₁ h₂ hv hv' hadm).1
  | case7 t hge hf =>
    intro h
    cases h

theorem seekBackward_ne_exhausted (h₁ : earliestSecond ≤ t) (h₂ : t < earliestSecond + 3600)
    (ha : ∀ v, earliestSecond ≤ v → v ≤ t → accept v ≠ none) (hv : earliestSecond ≤ v)
    (hv' : v < earliestSecond + 3600) (hadm : p.admits v = true) :
    p.seekBackward accept earliestSecond t ≠ .exhausted := by
  fun_induction seekBackward p accept earliestSecond t with
  | case1 t hlt => omega
  | case2 t hge hb a hacc =>
    intro h
    cases h
  | case3 t hge hb hn hlt ih => exact absurd hn (ha t h₁ (Int.le_refl t))
  | case4 t hge hb hn hlt =>
    intro h
    cases h
  | case5 t hge u hb ih =>
    have hu := lt_of_backward_eq_jump hb
    have hle := ((staysInside_backward h₁ h₂ hv hv' hadm).2 u hb).1
    exact ih hle (by omega) fun w hw hw' => ha w hw (by omega)
  | case6 t hge hb => exact absurd hb (staysInside_backward h₁ h₂ hv hv' hadm).1
  | case7 t hge hb =>
    intro h
    cases h

theorem seekForward_eq_outOfRange_iff_of_lastHour (h₁ : latestSecond - 3600 < t)
    (h₂ : t ≤ latestSecond) (ha : ∀ v, t ≤ v → v ≤ latestSecond → accept v ≠ none) :
    p.seekForward accept latestSecond t = .outOfRange ↔ p.LeavesAhead t := by
  have hrange : earliestSecond ≤ latestSecond - 3600 := by decide
  have hfar : latestSecond ≤ t + longestSearch := by
    simp only [longestSearch]
    omega
  have hanswers : p.AnswersForward accept latestSecond t _ :=
    seekForward_answers (by omega) (Int.le_refl _) hfar
  constructor
  · intro h
    rw [h] at hanswers
    obtain ⟨v, hv, hv', hadm, -⟩ := hanswers
    exact ⟨⟨v, hv, hv', hadm⟩, fun w =>
      admits_eq_false_of_seekForward_eq_outOfRange (by omega) (Int.le_refl _) hfar ha h⟩
  · rintro ⟨⟨v, hv, hv', hadm⟩, hnone⟩
    cases hf : p.seekForward accept latestSecond t with
    | outOfRange => rfl
    | exhausted => exact absurd hf (seekForward_ne_exhausted h₁ h₂ ha hv hv' hadm)
    | found a =>
      rw [hf] at hanswers
      obtain ⟨w, hw, hw', hadm', -⟩ := hanswers
      rw [hnone w hw hw'] at hadm'
      cases hadm'

theorem seekBackward_eq_outOfRange_iff_of_firstHour (h₁ : earliestSecond ≤ t)
    (h₂ : t < earliestSecond + 3600) (ha : ∀ v, earliestSecond ≤ v → v ≤ t → accept v ≠ none) :
    p.seekBackward accept earliestSecond t = .outOfRange ↔ p.LeavesBehind t := by
  have hrange : earliestSecond + 3600 ≤ latestSecond := by decide
  have hanswers : p.AnswersBackward accept earliestSecond t _ :=
    seekBackward_answers (by omega) (Int.le_refl _)
  constructor
  · intro h
    rw [h] at hanswers
    obtain ⟨v, hv, hv', hadm, -⟩ := hanswers
    exact ⟨⟨v, hv', hv, hadm⟩, fun w =>
      admits_eq_false_of_seekBackward_eq_outOfRange (by omega) (Int.le_refl _) ha h⟩
  · rintro ⟨⟨v, hv, hv', hadm⟩, hnone⟩
    cases hf : p.seekBackward accept earliestSecond t with
    | outOfRange => rfl
    | exhausted => exact absurd hf (seekBackward_ne_exhausted h₁ h₂ ha hv hv' hadm)
    | found a =>
      rw [hf] at hanswers
      obtain ⟨w, hw, hw', hadm', -⟩ := hanswers
      rw [hnone w hw hw'] at hadm'
      cases hadm'

theorem seekForward_ne_outOfRange (h₁ : earliestSecond ≤ t) (h₂ : t ≤ latestSecond - 3600)
    (hl : last ≤ latestSecond) (hfar : last ≤ t + longestSearch)
    (ha : ∀ v, t ≤ v → v ≤ latestSecond → accept v ≠ none) :
    p.seekForward accept last t ≠ .outOfRange := by
  intro h
  have hanswers : p.AnswersForward accept last t _ := seekForward_answers h₁ hl hfar
  rw [h] at hanswers
  obtain ⟨v, hv, hv', -, hnone⟩ := hanswers
  exact ha v (by omega) (by omega) (hnone (by omega))

theorem seekBackward_ne_outOfRange (h₁ : earliestSecond + 3600 ≤ t) (h₂ : t ≤ latestSecond)
    (hf : earliestSecond ≤ first) (ha : ∀ v, earliestSecond ≤ v → v ≤ t → accept v ≠ none) :
    p.seekBackward accept first t ≠ .outOfRange := by
  intro h
  have hanswers : p.AnswersBackward accept first t _ := seekBackward_answers h₂ hf
  rw [h] at hanswers
  obtain ⟨v, hv, hv', -, hnone⟩ := hanswers
  exact ha v (by omega) (by omega) (hnone (by omega))

end Plan

end Timetable
