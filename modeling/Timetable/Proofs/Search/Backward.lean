import Timetable.Proofs.Search.Admits
import Timetable.Search.Seek

namespace Timetable

open Calendar

namespace Move

def PassesBackward (m : Move) (v : Int) : Prop :=
  match m with
  | here => False
  | jump u => u < v
  | stuck | outOfRange => earliestSecond ≤ v

variable {v : Int}

theorem number_earliest : Date.earliest.number = yearStart (-262143) := by decide

theorem lt_number_of_passes_ofCivil? {c : Civil} (hc : c.Valid)
    (hr : c.toDate.number ≤ Date.latest.number)
    (h : (toDate (Date.ofCivil? c) 23 59 59).PassesBackward v) :
    c.toDate.number < (dateOf v).number := by
  rw [Date.ofCivil?, if_pos hc, Date.inRange?] at h
  split at h
  · exact lt_dateOf_of_secondAt_lt h
  · next hn =>
    have := le_number_of_earliestSecond_le h
    have : ¬ Date.earliest.number ≤ c.toDate.number := fun hl => hn ⟨hl, hr⟩
    omega

theorem lt_number_of_passes_lastOfMonth {c : Civil} (hc : c.Valid)
    (hr : c.toDate.number ≤ Date.latest.number)
    (h : (toDate ((Date.ofCivil? c).map Date.lastOfMonth) 23 59 59).PassesBackward v) :
    c.toDate.lastOfMonth.number < (dateOf v).number := by
  rw [Date.ofCivil?, if_pos hc, Date.inRange?] at h
  split at h
  · exact lt_dateOf_of_secondAt_lt h
  · next hn =>
    have hv := le_number_of_earliestSecond_le h
    have hlt : ¬ Date.earliest.number ≤ c.toDate.number := fun hl => hn ⟨hl, hr⟩
    rw [number_earliest] at hv hlt
    have hy : c.year < -262143 := by
      have := Date.year_lt_iff.2 (Int.not_le.1 hlt)
      rwa [Civil.civil_toDate hc] at this
    have := Civil.lastOfMonth_lt_yearStart_succ hc
    have := yearStart_le_of_le (y := c.year + 1) (z := -262143) (by omega)
    omega

theorem le_number_of_passes_subDay {d : Date} (hr : d.InRange)
    (h : (toDate (d.addDays? (-1)) 23 59 59).PassesBackward v) : d.number ≤ (dateOf v).number := by
  rw [Date.addDays?, Date.inRange?] at h
  split at h
  · have := lt_dateOf_of_secondAt_lt h
    simp only [Date.addDays] at this
    omega
  · next hn =>
    have := le_number_of_earliestSecond_le h
    have : ¬ Date.earliest.number ≤ d.number - 1 := fun hl => hn ⟨hl, by
      have := hr.2
      simp only [Date.addDays]
      omega⟩
    omega

theorem lt_of_passes_toSecond_backward {u : Int} (hr : u ≤ latestSecond)
    (h : (toSecond u).PassesBackward v) : u < v := by
  rw [toSecond] at h
  split at h
  · exact h
  · next hn =>
    have : ¬ earliestSecond ≤ u := fun hl => hn ⟨hl, hr⟩
    simp only [PassesBackward] at h
    omega

end Move

namespace Plan

variable {p : Plan} {t u v : Int}

theorem admits_eq_false_of_below_eq_some {k : FieldKind} {f : Field k} {i j x : Nat}
    (h : f.admits i = false) (hn : below f i = some j) (hj : j < x) (hi : x ≤ i) :
    f.admits x = false := by
  rw [below] at hn
  split at hn
  · simp at hn
  · exact Field.admits_eq_false_of_le_of_gt_prev? h hn hj hi

theorem admits_eq_false_of_below_eq_none {k : FieldKind} {f : Field k} {i x : Nat}
    (h : f.admits i = false) (hn : below f i = none) (hi : x ≤ i) : f.admits x = false := by
  rw [below] at hn
  split at hn
  · next h0 =>
    obtain rfl : x = i := by omega
    exact h
  · exact Field.admits_eq_false_of_le_of_prev?_eq_none h hn hi

theorem admits_eq_false_of_prevYear_passes (ht : v ≤ t) (hr : t ≤ latestSecond)
    (hy : p.admitsYear (dateOf t).civil.year = false)
    (h : (p.prevYear (dateOf t).civil.year).PassesBackward v) : p.admits v = false := by
  apply admits_eq_false_of_year
  have hle := Date.year_le_of_le (dateOf_le_of_le ht)
  cases hf : p.year with
  | none => simp [admitsYear, hf] at hy
  | some f =>
    simp only [prevYear, hf] at h
    rw [← Bool.not_eq_true]
    intro ha
    have hb := bounds_of_admitsYear hf ha
    have hne : (dateOf v).civil.year ≠ (dateOf t).civil.year := by
      intro he
      rw [he, hy] at ha
      simp at ha
    simp only [admitsYear, hf, Bool.and_eq_true, decide_eq_true_eq] at ha
    rw [if_neg (by omega)] at h
    cases hn : f.prev? ((dateOf t).civil.year - 1).toNat with
    | none =>
      rw [Field.admits_eq_false_of_prev?_eq_none hn (by omega)] at ha
      simp at ha
    | some y =>
      simp only [hn, Option.bind_some] at h
      have hyb := Field.le_of_prev?_eq_some hn
      have h₁ := number_le_of_le_latestSecond hr
      have h₂ := (dateOf t).yearStart_le_number
      have h₃ := yearStart_le_of_le (y := (y : Int) + 1) (z := (dateOf t).civil.year) (by omega)
      have hlt := Move.lt_number_of_passes_ofCivil? (Civil.valid_lastDay y)
        (by rw [Date.number_lastDay]; omega) h
      rw [Date.number_lastDay] at hlt
      have hyv : ¬ (dateOf v).civil.year < y + 1 := by
        rw [Date.year_lt_iff]
        omega
      rw [Field.admits_eq_false_of_prev?_eq_some hn (by omega) (by omega)] at ha
      simp at ha

theorem admits_eq_false_of_prevMonth_passes (ht : v ≤ t) (hr : t ≤ latestSecond)
    (hm : p.month.admits (dateOf t).civil.month = false)
    (h : (p.prevMonth (dateOf t).civil).PassesBackward v) : p.admits v = false := by
  apply admits_eq_false_of_month
  have hle := dateOf_le_of_le ht
  have hhi := number_le_of_le_latestSecond hr
  have hy := Date.year_le_of_le hle
  have hfirst := (dateOf t).yearStart_le_number
  have hpos := (dateOf t).civil_valid.1
  simp only [prevMonth] at h
  cases hn : p.month.prev? ((dateOf t).civil.month - 1) with
  | none =>
    simp only [hn] at h
    have hv := Civil.valid_first ((dateOf t).civil.year - 1) (m := 12) (by decide) (Nat.le_refl 12)
    have hup := Civil.toDate_lt_yearStart_succ hv
    simp only [Int.sub_add_cancel] at hup
    have hlt := Move.lt_number_of_passes_lastOfMonth hv (by omega) h
    rw [Date.number_lastOfMonth_december _ hv, Int.sub_add_cancel] at hlt
    have hyear : ¬ (dateOf v).civil.year < (dateOf t).civil.year := by
      rw [Date.year_lt_iff]
      omega
    have hmonth := Date.month_le_of_le hle (by omega)
    exact Field.admits_eq_false_of_le_of_prev?_eq_none hm hn hmonth
  | some m =>
    simp only [hn] at h
    have hb := Field.bounds_of_admits (Field.admits_of_prev?_eq_some hn)
    have hmt := Field.le_of_prev?_eq_some hn
    have hv := Civil.valid_first (dateOf t).civil.year hb.1 hb.2
    have hlast := (dateOf t).lastOfMonth_lt_of_month_lt hv (by omega)
    have hlow := Civil.toDate_le_lastOfMonth hv
    have hlt := Move.lt_number_of_passes_lastOfMonth hv (by omega) h
    have hyear : (dateOf v).civil.year = (dateOf t).civil.year := by
      have : ¬ (dateOf v).civil.year < (dateOf t).civil.year := by
        rw [Date.year_lt_iff]
        have := Civil.yearStart_le_toDate hv
        simp only at this
        omega
      omega
    have hmonth := Date.month_le_of_le hle hyear.symm
    rw [← hyear] at hlt hv
    have hmv := Date.lt_month_of_lastOfMonth_lt hv hlt
    exact Field.admits_eq_false_of_le_of_gt_prev? hm hn hmv hmonth

theorem dateOf_eq_of_passes_subDay (ht : v ≤ t) (hr : (dateOf t).InRange)
    (h : (Move.toDate ((dateOf t).addDays? (-1)) 23 59 59).PassesBackward v) :
    dateOf v = dateOf t := by
  have hle := dateOf_le_of_le ht
  have hge := Move.le_number_of_passes_subDay hr h
  simp only [dateOf, Date.mk.injEq] at *
  omega

theorem admits_eq_false_of_prevHour_passes (ht : v ≤ t) (hr : (dateOf t).InRange)
    (hh : p.hour.admits (hourOf t) = false) (h : (p.prevHour t).PassesBackward v) :
    p.admits v = false := by
  apply admits_eq_false_of_hour
  simp only [prevHour] at h
  cases hn : below p.hour (hourOf t) with
  | none =>
    simp only [hn] at h
    have hd := dateOf_eq_of_passes_subDay ht hr h
    have hge : hourOf v ≤ hourOf t := by
      rw [dateOf_eq_iff] at hd
      simp only [hourOf, secondsPerDay]
      omega
    exact admits_eq_false_of_below_eq_none hh hn hge
  | some k =>
    simp only [hn] at h
    obtain ⟨-, h₁, h₂⟩ := hourOf_of_secondAt_lt ht h
    exact admits_eq_false_of_below_eq_some hh hn h₁ h₂

theorem admits_eq_false_of_prevMinute_passes (ht : v ≤ t) (hr : t ≤ latestSecond)
    (hm : p.minute.admits (minuteOf t) = false) (h : (p.prevMinute t).PassesBackward v) :
    p.admits v = false := by
  apply admits_eq_false_of_minute
  have htime := secondAt_dateOf t
  simp only [prevMinute] at h
  cases hn : below p.minute (minuteOf t) with
  | none =>
    simp only [hn] at h
    have hlt := Move.lt_of_passes_toSecond_backward (by simp only [secondAt] at *; omega) h
    have hge : minuteOf v ≤ minuteOf t := by
      simp only [secondAt, dateOf, hourOf, minuteOf, dayStart, secondsPerDay] at *
      omega
    exact admits_eq_false_of_below_eq_none hm hn hge
  | some k =>
    simp only [hn] at h
    obtain ⟨-, -, h₁, h₂⟩ := minuteOf_of_secondAt_lt ht h
    exact admits_eq_false_of_below_eq_some hm hn h₁ h₂

theorem admits_eq_false_of_prevSecond_passes (ht : v ≤ t) (hr : t ≤ latestSecond)
    (hs : p.second.admits (secondOf t) = false) (h : (p.prevSecond t).PassesBackward v) :
    p.admits v = false := by
  apply admits_eq_false_of_second
  have htime := secondAt_dateOf t
  simp only [prevSecond] at h
  cases hn : below p.second (secondOf t) with
  | none =>
    simp only [hn] at h
    have hlt := Move.lt_of_passes_toSecond_backward (by simp only [secondAt] at *; omega) h
    have hge : secondOf v ≤ secondOf t := by
      simp only [secondAt, dateOf, hourOf, minuteOf, secondOf, dayStart, secondsPerDay] at *
      omega
    exact admits_eq_false_of_below_eq_none hs hn hge
  | some k =>
    simp only [hn] at h
    obtain ⟨-, -, -, h₁, h₂⟩ := secondOf_of_secondAt_lt ht h
    exact admits_eq_false_of_below_eq_some hs hn h₁ h₂

theorem admits_eq_false_of_backward_passes (h₁ : earliestSecond ≤ t) (h₂ : t ≤ latestSecond)
    (ht : v ≤ t) (h : (p.backward t).PassesBackward v) : p.admits v = false := by
  have hr := inRange_dateOf h₁ h₂
  simp only [backward, Bool.not_eq_true'] at h
  split at h
  · exact admits_eq_false_of_prevYear_passes ht h₂ ‹_› h
  split at h
  · exact admits_eq_false_of_prevMonth_passes ht h₂ ‹_› h
  split at h
  · next hd =>
    apply admits_eq_false_of_day
    rw [dateOf_eq_of_passes_subDay ht hr h]
    exact hd
  split at h
  · exact admits_eq_false_of_prevHour_passes ht hr ‹_› h
  split at h
  · exact admits_eq_false_of_prevMinute_passes ht h₂ ‹_› h
  split at h
  · exact admits_eq_false_of_prevSecond_passes ht h₂ ‹_› h
  · exact h.elim

theorem lt_of_toSecond_eq_outOfRange_backward (h : Move.toSecond u = .outOfRange)
    (hr : u ≤ latestSecond) : u < earliestSecond := by
  rw [Move.toSecond] at h
  split at h
  · simp at h
  · omega

theorem prevYear_ne_outOfRange (p : Plan) (y : Int) : p.prevYear y ≠ .outOfRange := by
  rw [prevYear]
  split
  · simp
  · split
    · simp
    · exact toDate_ne_outOfRange _ _ _ _

theorem prevHour_ne_outOfRange (p : Plan) (t : Int) : p.prevHour t ≠ .outOfRange := by
  rw [prevHour]
  split
  · simp
  · exact toDate_ne_outOfRange _ _ _ _

theorem firstHour_of_prevMinute_eq_outOfRange (h₂ : t ≤ latestSecond)
    (h : p.prevMinute t = .outOfRange) : t < earliestSecond + 3600 := by
  have htime := secondAt_dateOf t
  have hfirst : earliestSecond % 3600 = 0 := by decide
  rw [prevMinute] at h
  split at h
  · simp at h
  · have := lt_of_toSecond_eq_outOfRange_backward h (by simp only [secondAt] at *; omega)
    simp only [secondAt, dateOf, hourOf, dayStart, secondsPerDay] at *
    omega

theorem firstHour_of_prevSecond_eq_outOfRange (h₂ : t ≤ latestSecond)
    (h : p.prevSecond t = .outOfRange) : t < earliestSecond + 3600 := by
  have htime := secondAt_dateOf t
  have hfirst : earliestSecond % 3600 = 0 := by decide
  rw [prevSecond] at h
  split at h
  · simp at h
  · have := lt_of_toSecond_eq_outOfRange_backward h (by simp only [secondAt] at *; omega)
    simp only [secondAt, dateOf, hourOf, minuteOf, dayStart, secondsPerDay] at *
    omega

theorem firstHour_of_backward_eq_outOfRange (h₂ : t ≤ latestSecond)
    (h : p.backward t = .outOfRange) :
    t < earliestSecond + 3600 ∧
      ∃ v, dateOf v = dateOf t ∧ hourOf v = hourOf t ∧ p.admits v = true := by
  rw [backward] at h
  simp only [Bool.not_eq_true'] at h
  split at h
  · exact absurd h (prevYear_ne_outOfRange _ _)
  next hy =>
  split at h
  · exact absurd h (toDate_ne_outOfRange _ _ _ _)
  next hm =>
  split at h
  · exact absurd h (toDate_ne_outOfRange _ _ _ _)
  next hd =>
  split at h
  · exact absurd h (prevHour_ne_outOfRange _ _)
  next hh =>
  have hv := exists_admits_of_hour (p := p) (t := t)
    (by simp_all [admitsDate, Date.year, Date.month]) (by simpa using hh)
  refine ⟨?_, hv⟩
  split at h
  · exact firstHour_of_prevMinute_eq_outOfRange h₂ h
  split at h
  · exact firstHour_of_prevSecond_eq_outOfRange h₂ h
  · simp at h

theorem firstHour_of_sameHour (ht : t < earliestSecond + 3600) (hr : earliestSecond ≤ t)
    (hd : dateOf v = dateOf t) (hh : hourOf v = hourOf t) :
    v < earliestSecond + 3600 ∧ earliestSecond ≤ v := by
  have hfirst : earliestSecond % 3600 = 0 := by decide
  rw [dateOf_eq_iff] at hd
  simp only [hourOf, secondsPerDay] at hh
  omega

def AnswersBackward {α : Type} (p : Plan) (accept : Int → Option α) (first t : Int) :
    Found α → Prop
  | .found a => ∃ w, first ≤ w ∧ w ≤ t ∧ p.admits w = true ∧ accept w = some a ∧
      ∀ v, w < v → v ≤ t → p.admits v = true → accept v = none
  | .exhausted => ∀ v, first ≤ v → v ≤ t → p.admits v = true → accept v = none
  | .outOfRange => ∃ v, v < earliestSecond + 3600 ∧ first ≤ v ∧ p.admits v = true ∧
      (v ≤ t → accept v = none)

theorem answersBackward_of_jump {α : Type} {accept : Int → Option α} {first : Int} {r : Found α}
    (hu : u < t) (hp : ∀ v, v ≤ t → u < v → first ≤ v → p.admits v = false)
    (h : p.AnswersBackward accept first u r) : p.AnswersBackward accept first t r := by
  cases r with
  | found a =>
    obtain ⟨w, h₁, h₂, h₃, h₄, h₅⟩ := h
    refine ⟨w, h₁, by omega, h₃, h₄, ?_⟩
    intro v hw hv ha
    by_cases hlt : u < v
    · rw [hp v hv hlt (by omega)] at ha
      simp at ha
    · exact h₅ v hw (by omega) ha
  | exhausted =>
    intro v hl hv ha
    by_cases hlt : u < v
    · rw [hp v hv hlt hl] at ha
      simp at ha
    · exact h v hl (by omega) ha
  | outOfRange =>
    obtain ⟨v, h₁, h₂, h₃, h₄⟩ := h
    refine ⟨v, h₁, h₂, h₃, ?_⟩
    intro hv
    by_cases hlt : u < v
    · rw [hp v hv hlt h₂] at h₃
      simp at h₃
    · exact h₄ (by omega)

theorem answersBackward_of_refused {α : Type} {accept : Int → Option α} {first : Int}
    {r : Found α} (hn : accept t = none) (h : p.AnswersBackward accept first (t - 1) r) :
    p.AnswersBackward accept first t r := by
  have hv : ∀ {v}, v ≤ t → (v ≤ t - 1 → accept v = none) → accept v = none := by
    intro v hv h
    by_cases he : v = t
    · rw [he]
      exact hn
    · exact h (by omega)
  cases r with
  | found a =>
    obtain ⟨w, h₁, h₂, h₃, h₄, h₅⟩ := h
    exact ⟨w, h₁, by omega, h₃, h₄, fun v hw ht ha => hv ht fun h' => h₅ v hw h' ha⟩
  | exhausted => exact fun v hl ht ha => hv ht fun h' => h v hl h' ha
  | outOfRange =>
    obtain ⟨v, h₁, h₂, h₃, h₄⟩ := h
    exact ⟨v, h₁, h₂, h₃, fun ht => hv ht h₄⟩

theorem seekBackward_answers {α : Type} {accept : Int → Option α} {first : Int}
    (h₂ : t ≤ latestSecond) (hfirst : earliestSecond ≤ first) :
    p.AnswersBackward accept first t (p.seekBackward accept first t) := by
  fun_induction seekBackward p accept first t with
  | case1 t hlt =>
    intro v hl hv
    omega
  | case2 t hge hf a ha =>
    exact ⟨t, by omega, Int.le_refl t, (backward_eq_here_iff p t).1 hf, ha, by intro v _ _; omega⟩
  | case3 t hge hf hn hlt ih => exact answersBackward_of_refused hn (ih (by omega))
  | case4 t hge hf hn hlt =>
    exact ⟨t, by omega, by omega, (backward_eq_here_iff p t).1 hf, fun _ => hn⟩
  | case5 t hge u hf ih =>
    have hu := lt_of_backward_eq_jump hf
    refine answersBackward_of_jump hu ?_ (ih (by omega))
    intro v hv hvu hvl
    exact admits_eq_false_of_backward_passes (by omega) h₂ hv (by rw [hf]; exact hvu)
  | case6 t hge hf =>
    intro v hvl hv ha
    rw [admits_eq_false_of_backward_passes (by omega) h₂ hv
      (by rw [hf]; exact Int.le_trans hfirst hvl)] at ha
    simp at ha
  | case7 t hge hf =>
    obtain ⟨hearly, v, hd, hh, ha⟩ := firstHour_of_backward_eq_outOfRange h₂ hf
    have hv := firstHour_of_sameHour hearly (by omega) hd hh
    have hlt : t < v := by
      by_cases hlt : t < v
      · exact hlt
      · rw [admits_eq_false_of_backward_passes (by omega) h₂ (by omega)
          (by rw [hf]; exact hv.2)] at ha
        simp at ha
    exact ⟨v, hv.1, by omega, ha, by omega⟩

end Plan

end Timetable
