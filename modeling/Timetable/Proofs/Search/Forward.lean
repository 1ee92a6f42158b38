import Timetable.Proofs.Search.Admits
import Timetable.Search.Seek

/-! What a move forward passes over does not match, so the search finds the first second that does. -/

namespace Timetable

open Calendar

namespace Move

def PassesForward (m : Move) (v : Int) : Prop :=
  match m with
  | here => False
  | jump u => v < u
  | stuck | outOfRange => v ≤ latestSecond

variable {v : Int}

theorem number_lt_of_passes_ofCivil? {c : Civil} (hc : c.Valid)
    (hr : Date.earliest.number ≤ c.toDate.number)
    (h : (toDate (Date.ofCivil? c) 0 0 0).PassesForward v) :
    (dateOf v).number < c.toDate.number := by
  rw [Date.ofCivil?, if_pos hc, Date.inRange?] at h
  split at h
  · exact dateOf_lt_of_lt_secondAt h
  · next hn =>
    have := number_le_of_le_latestSecond h
    have : ¬ c.toDate.number ≤ Date.latest.number := fun hl => hn ⟨hr, hl⟩
    omega

theorem number_le_of_passes_addDays? {d : Date} (hr : d.InRange)
    (h : (toDate (d.addDays? 1) 0 0 0).PassesForward v) : (dateOf v).number ≤ d.number := by
  rw [Date.addDays?, Date.inRange?] at h
  split at h
  · have := dateOf_lt_of_lt_secondAt h
    simp only [Date.addDays] at this
    omega
  · next hn =>
    have := number_le_of_le_latestSecond h
    have : ¬ d.number + 1 ≤ Date.latest.number := fun hl => hn ⟨by
      have := hr.1
      simp only [Date.addDays]
      omega, hl⟩
    omega

theorem lt_of_passes_toSecond {u : Int} (hr : earliestSecond ≤ u)
    (h : (toSecond u).PassesForward v) : v < u := by
  rw [toSecond] at h
  split at h
  · exact h
  · next hn =>
    have : ¬ u ≤ latestSecond := fun hl => hn ⟨hr, hl⟩
    simp only [PassesForward] at h
    omega

end Move

namespace Plan

variable {p : Plan} {t u v : Int}

/-- No search is that long, and the way from a year without a number to the first year that a field
can admit is longer. -/
def longestSearch : Int := 1900 * 365 * 86400

theorem year_le_of_le_longestSearch (h : v ≤ t + longestSearch) :
    (dateOf v).civil.year ≤ (dateOf t).civil.year + 1900 := by
  have hd : (dateOf v).number < yearStart ((dateOf t).civil.year + 1901) := by
    have ht := (dateOf t).number_lt_yearStart_succ
    simp only [yearStart, dateOf, longestSearch, secondsPerDay] at *
    omega
  have := Date.year_lt_iff.2 hd
  omega

theorem admits_eq_false_of_nextYear_passes (ht : t ≤ v) (hl : v ≤ t + longestSearch)
    (hr : earliestSecond ≤ t) (hy : p.admitsYear (dateOf t).civil.year = false)
    (h : (p.nextYear (dateOf t).civil.year).PassesForward v) : p.admits v = false := by
  apply admits_eq_false_of_year
  have hle := Date.year_le_of_le (dateOf_le_of_le ht)
  have hfar := year_le_of_le_longestSearch hl
  rw [nextYear] at h
  cases hf : p.year with
  | none => simp [admitsYear, hf] at hy
  | some f =>
    simp only [hf] at h
    rw [← Bool.not_eq_true]
    intro ha
    have hb := bounds_of_admitsYear hf ha
    have hne : (dateOf v).civil.year ≠ (dateOf t).civil.year := by
      intro he
      rw [he, hy] at ha
      simp at ha
    simp only [admitsYear, hf, Bool.and_eq_true, decide_eq_true_eq] at ha
    rw [if_neg (by omega)] at h
    cases hn : f.next? ((dateOf t).civil.year + 1).toNat with
    | none =>
      rw [Field.admits_eq_false_of_next?_eq_none hn (by omega)] at ha
      simp at ha
    | some y =>
      simp only [hn, Option.bind_some] at h
      have hyb := Field.le_of_next?_eq_some hn
      have h₁ := le_number_of_earliestSecond_le hr
      have h₂ := (dateOf t).number_lt_yearStart_succ
      have h₃ := yearStart_le_of_le (y := (dateOf t).civil.year + 1) (z := y) (by omega)
      have hlt := Move.number_lt_of_passes_ofCivil? (Civil.valid_first y (Nat.le_refl 1) (by decide))
        (by rw [Civil.number_first]; omega) h
      rw [Civil.number_first, ← Date.year_lt_iff] at hlt
      rw [Field.admits_eq_false_of_next?_eq_some hn (by omega) (by omega)] at ha
      simp at ha

theorem admits_eq_false_of_nextMonth_passes (ht : t ≤ v) (hr : earliestSecond ≤ t)
    (hm : p.month.admits (dateOf t).civil.month = false)
    (h : (p.nextMonth (dateOf t).civil).PassesForward v) : p.admits v = false := by
  apply admits_eq_false_of_month
  have hle := dateOf_le_of_le ht
  have hlo := le_number_of_earliestSecond_le hr
  have hy := Date.year_le_of_le hle
  have hlast := (dateOf t).number_lt_yearStart_succ
  rw [nextMonth] at h
  cases hn : p.month.next? ((dateOf t).civil.month + 1) with
  | none =>
    simp only [hn] at h
    have hlt := Move.number_lt_of_passes_ofCivil?
      (Civil.valid_first ((dateOf t).civil.year + 1) (Nat.le_refl 1) (by decide))
      (by rw [Civil.number_first]; omega) h
    rw [Civil.number_first, ← Date.year_lt_iff] at hlt
    have hmonth := Date.month_le_of_le hle (by omega)
    exact Field.admits_eq_false_of_le_of_next?_eq_none hm hn hmonth
  | some m =>
    simp only [hn] at h
    have hb := Field.bounds_of_admits (Field.admits_of_next?_eq_some hn)
    have hv := Civil.valid_first (dateOf t).civil.year hb.1 hb.2
    have hfirst := (dateOf t).number_lt_of_month_lt (Field.le_of_next?_eq_some hn) hb.2
    have hlt := Move.number_lt_of_passes_ofCivil? hv (by omega) h
    have hyear : (dateOf v).civil.year = (dateOf t).civil.year := by
      have := Date.year_lt_iff.2 (Int.lt_trans hlt (Civil.toDate_lt_yearStart_succ hv))
      simp only at this
      omega
    rw [← hyear] at hlt
    have hmv := Date.month_lt_of_number_lt hlt
    have hmonth := Date.month_le_of_le hle hyear
    exact Field.admits_eq_false_of_le_of_lt_next? hm hn hmonth hmv

theorem dateOf_eq_of_passes_addDays? (ht : t ≤ v) (hr : (dateOf t).InRange)
    (h : (Move.toDate ((dateOf t).addDays? 1) 0 0 0).PassesForward v) : dateOf v = dateOf t := by
  have hle := dateOf_le_of_le ht
  have hge := Move.number_le_of_passes_addDays? hr h
  simp only [dateOf, Date.mk.injEq] at *
  omega

theorem admits_eq_false_of_nextHour_passes (ht : t ≤ v) (hr : (dateOf t).InRange)
    (hh : p.hour.admits (hourOf t) = false) (h : (p.nextHour t).PassesForward v) :
    p.admits v = false := by
  apply admits_eq_false_of_hour
  rw [nextHour] at h
  cases hn : p.hour.next? (hourOf t + 1) with
  | none =>
    simp only [hn] at h
    have hd := dateOf_eq_of_passes_addDays? ht hr h
    have hge : hourOf t ≤ hourOf v := by
      rw [dateOf_eq_iff] at hd
      simp only [hourOf, secondsPerDay]
      omega
    exact Field.admits_eq_false_of_le_of_next?_eq_none hh hn hge
  | some k =>
    simp only [hn] at h
    have hb := Field.bounds_of_admits (Field.admits_of_next?_eq_some hn)
    simp only [FieldKind.max] at hb
    obtain ⟨-, h₁, h₂⟩ := hourOf_of_lt_secondAt (by omega) ht h
    exact Field.admits_eq_false_of_le_of_lt_next? hh hn h₁ h₂

theorem admits_eq_false_of_nextMinute_passes (ht : t ≤ v) (hr : earliestSecond ≤ t)
    (hm : p.minute.admits (minuteOf t) = false) (h : (p.nextMinute t).PassesForward v) :
    p.admits v = false := by
  apply admits_eq_false_of_minute
  have htime := secondAt_dateOf t
  have hmt := minuteOf_lt t
  have hst := secondOf_lt t
  rw [nextMinute] at h
  cases hn : p.minute.next? (minuteOf t + 1) with
  | none =>
    simp only [hn] at h
    have hlt := Move.lt_of_passes_toSecond (by simp only [secondAt] at *; omega) h
    obtain ⟨-, -, h₁, -⟩ := minuteOf_of_lt_secondAt (m := 60) (Nat.le_refl _) ht
      (by simp only [secondAt] at *; omega)
    exact Field.admits_eq_false_of_le_of_next?_eq_none hm hn h₁
  | some k =>
    simp only [hn] at h
    have hb := Field.bounds_of_admits (Field.admits_of_next?_eq_some hn)
    simp only [FieldKind.max] at hb
    obtain ⟨-, -, h₁, h₂⟩ := minuteOf_of_lt_secondAt (by omega) ht h
    exact Field.admits_eq_false_of_le_of_lt_next? hm hn h₁ h₂

theorem admits_eq_false_of_nextSecond_passes (ht : t ≤ v) (hr : earliestSecond ≤ t)
    (hs : p.second.admits (secondOf t) = false) (h : (p.nextSecond t).PassesForward v) :
    p.admits v = false := by
  apply admits_eq_false_of_second
  have htime := secondAt_dateOf t
  have hst := secondOf_lt t
  rw [nextSecond] at h
  cases hn : p.second.next? (secondOf t + 1) with
  | none =>
    simp only [hn] at h
    have hlt := Move.lt_of_passes_toSecond (by simp only [secondAt] at *; omega) h
    obtain ⟨-, -, -, h₁, -⟩ := secondOf_of_lt_secondAt (s := 60) (Nat.le_refl _) ht
      (by simp only [secondAt] at *; omega)
    exact Field.admits_eq_false_of_le_of_next?_eq_none hs hn h₁
  | some k =>
    simp only [hn] at h
    have hb := Field.bounds_of_admits (Field.admits_of_next?_eq_some hn)
    simp only [FieldKind.max] at hb
    obtain ⟨-, -, -, h₁, h₂⟩ := secondOf_of_lt_secondAt (by omega) ht h
    exact Field.admits_eq_false_of_le_of_lt_next? hs hn h₁ h₂

theorem admits_eq_false_of_forward_passes (h₁ : earliestSecond ≤ t) (h₂ : t ≤ latestSecond)
    (ht : t ≤ v) (hl : v ≤ t + longestSearch) (h : (p.forward t).PassesForward v) :
    p.admits v = false := by
  have hr := inRange_dateOf h₁ h₂
  rw [forward] at h
  simp only [Bool.not_eq_true'] at h
  split at h
  · exact admits_eq_false_of_nextYear_passes ht hl h₁ ‹_› h
  split at h
  · exact admits_eq_false_of_nextMonth_passes ht h₁ ‹_› h
  split at h
  · next hd =>
    apply admits_eq_false_of_day
    rw [dateOf_eq_of_passes_addDays? ht hr h]
    exact hd
  split at h
  · exact admits_eq_false_of_nextHour_passes ht hr ‹_› h
  split at h
  · exact admits_eq_false_of_nextMinute_passes ht h₁ ‹_› h
  split at h
  · exact admits_eq_false_of_nextSecond_passes ht h₁ ‹_› h
  · exact h.elim

theorem lt_of_toSecond_eq_outOfRange (h : Move.toSecond u = .outOfRange) (hr : earliestSecond ≤ u) :
    latestSecond < u := by
  rw [Move.toSecond] at h
  split at h
  · simp at h
  · omega

theorem nextYear_ne_outOfRange (p : Plan) (y : Int) : p.nextYear y ≠ .outOfRange := by
  rw [nextYear]
  split
  · simp
  · split
    · simp
    · exact toDate_ne_outOfRange _ _ _ _

theorem nextMonth_ne_outOfRange (p : Plan) (c : Civil) : p.nextMonth c ≠ .outOfRange := by
  rw [nextMonth]
  split
  · exact toDate_ne_outOfRange _ _ _ _
  · exact toDate_ne_outOfRange _ _ _ _

theorem nextHour_ne_outOfRange (p : Plan) (t : Int) : p.nextHour t ≠ .outOfRange := by
  rw [nextHour]
  split
  · simp
  · exact toDate_ne_outOfRange _ _ _ _

theorem lastHour_of_nextMinute_eq_outOfRange (h₁ : earliestSecond ≤ t)
    (h : p.nextMinute t = .outOfRange) : latestSecond - 3600 < t := by
  have htime := secondAt_dateOf t
  have hmt := minuteOf_lt t
  have hst := secondOf_lt t
  have hlast : latestSecond % 3600 = 3599 := by decide
  rw [nextMinute] at h
  split at h
  · simp at h
  · have := lt_of_toSecond_eq_outOfRange h (by simp only [secondAt] at *; omega)
    simp only [secondAt, dateOf, hourOf, dayStart, secondsPerDay] at *
    omega

theorem lastHour_of_nextSecond_eq_outOfRange (h₁ : earliestSecond ≤ t)
    (h : p.nextSecond t = .outOfRange) : latestSecond - 3600 < t := by
  have htime := secondAt_dateOf t
  have hst := secondOf_lt t
  have hlast : latestSecond % 3600 = 3599 := by decide
  rw [nextSecond] at h
  split at h
  · simp at h
  · have := lt_of_toSecond_eq_outOfRange h (by simp only [secondAt] at *; omega)
    simp only [secondAt, dateOf, hourOf, minuteOf, dayStart, secondsPerDay] at *
    omega

theorem lastHour_of_forward_eq_outOfRange (h₁ : earliestSecond ≤ t)
    (h : p.forward t = .outOfRange) :
    latestSecond - 3600 < t ∧
      ∃ v, dateOf v = dateOf t ∧ hourOf v = hourOf t ∧ p.admits v = true := by
  rw [forward] at h
  simp only [Bool.not_eq_true'] at h
  split at h
  · exact absurd h (nextYear_ne_outOfRange _ _)
  next hy =>
  split at h
  · exact absurd h (nextMonth_ne_outOfRange _ _)
  next hm =>
  split at h
  · exact absurd h (toDate_ne_outOfRange _ _ _ _)
  next hd =>
  split at h
  · exact absurd h (nextHour_ne_outOfRange _ _)
  next hh =>
  -- day and hour match, so some second of the hour does
  have hv := exists_admits_of_hour (p := p) (t := t)
    (by simp_all [admitsDate, Date.year, Date.month]) (by simpa using hh)
  refine ⟨?_, hv⟩
  split at h
  · exact lastHour_of_nextMinute_eq_outOfRange h₁ h
  split at h
  · exact lastHour_of_nextSecond_eq_outOfRange h₁ h
  · simp at h

theorem lastHour_of_sameHour (ht : latestSecond - 3600 < t) (hr : t ≤ latestSecond)
    (hd : dateOf v = dateOf t) (hh : hourOf v = hourOf t) :
    latestSecond - 3600 < v ∧ v ≤ latestSecond := by
  have hlast : latestSecond % 3600 = 3599 := by decide
  rw [dateOf_eq_iff] at hd
  simp only [hourOf, secondsPerDay] at hh
  omega

def AnswersForward {α : Type} (p : Plan) (accept : Int → Option α) (last t : Int) : Found α → Prop
  | .found a => ∃ w, t ≤ w ∧ w ≤ last ∧ p.admits w = true ∧ accept w = some a ∧
      ∀ v, t ≤ v → v < w → p.admits v = true → accept v = none
  | .exhausted => ∀ v, t ≤ v → v ≤ last → p.admits v = true → accept v = none
  | .outOfRange => ∃ v, latestSecond - 3600 < v ∧ v ≤ last ∧ p.admits v = true ∧
      (t ≤ v → accept v = none)

theorem answersForward_of_jump {α : Type} {accept : Int → Option α} {last : Int} {r : Found α}
    (hu : t < u) (hp : ∀ v, t ≤ v → v < u → v ≤ last → p.admits v = false)
    (h : p.AnswersForward accept last u r) : p.AnswersForward accept last t r := by
  cases r with
  | found a =>
    obtain ⟨w, h₁, h₂, h₃, h₄, h₅⟩ := h
    refine ⟨w, by omega, h₂, h₃, h₄, ?_⟩
    intro v hv hw ha
    by_cases hlt : v < u
    · rw [hp v hv hlt (by omega)] at ha
      simp at ha
    · exact h₅ v (by omega) hw ha
  | exhausted =>
    intro v hv hl ha
    by_cases hlt : v < u
    · rw [hp v hv hlt hl] at ha
      simp at ha
    · exact h v (by omega) hl ha
  | outOfRange =>
    obtain ⟨v, h₁, h₂, h₃, h₄⟩ := h
    refine ⟨v, h₁, h₂, h₃, ?_⟩
    intro hv
    by_cases hlt : v < u
    · rw [hp v hv hlt h₂] at h₃
      simp at h₃
    · exact h₄ (by omega)

theorem answersForward_of_refused {α : Type} {accept : Int → Option α} {last : Int} {r : Found α}
    (hn : accept t = none) (h : p.AnswersForward accept last (t + 1) r) :
    p.AnswersForward accept last t r := by
  have hv : ∀ {v}, t ≤ v → (t + 1 ≤ v → accept v = none) → accept v = none := by
    intro v hv h
    by_cases he : v = t
    · rw [he]
      exact hn
    · exact h (by omega)
  cases r with
  | found a =>
    obtain ⟨w, h₁, h₂, h₃, h₄, h₅⟩ := h
    exact ⟨w, by omega, h₂, h₃, h₄, fun v ht hw ha => hv ht fun h' => h₅ v h' hw ha⟩
  | exhausted => exact fun v ht hl ha => hv ht fun h' => h v h' hl ha
  | outOfRange =>
    obtain ⟨v, h₁, h₂, h₃, h₄⟩ := h
    exact ⟨v, h₁, h₂, h₃, fun ht => hv ht h₄⟩

theorem seekForward_answers {α : Type} {accept : Int → Option α} {last : Int}
    (h₁ : earliestSecond ≤ t) (hlast : last ≤ latestSecond) (hl : last ≤ t + longestSearch) :
    p.AnswersForward accept last t (p.seekForward accept last t) := by
  fun_induction seekForward p accept last t with
  | case1 t hlt =>
    intro v hv hl
    omega
  | case2 t hge hf a ha =>
    exact ⟨t, Int.le_refl t, by omega, (forward_eq_here_iff p t).1 hf, ha, by intro v _ _; omega⟩
  | case3 t hge hf hn hlt ih => exact answersForward_of_refused hn (ih (by omega) (by omega))
  | case4 t hge hf hn hlt =>
    exact ⟨t, by omega, by omega, (forward_eq_here_iff p t).1 hf, fun _ => hn⟩
  | case5 t hge u hf ih =>
    have hu := lt_of_forward_eq_jump hf
    refine answersForward_of_jump hu ?_ (ih (by omega) (by omega))
    intro v hv hvu hvl
    exact admits_eq_false_of_forward_passes h₁ (by omega) hv (by omega) (by rw [hf]; exact hvu)
  | case6 t hge hf =>
    intro v hv hvl ha
    rw [admits_eq_false_of_forward_passes h₁ (by omega) hv (by omega)
      (by rw [hf]; exact Int.le_trans hvl hlast)] at ha
    simp at ha
  | case7 t hge hf =>
    obtain ⟨hlate, v, hd, hh, ha⟩ := lastHour_of_forward_eq_outOfRange h₁ hf
    have hv := lastHour_of_sameHour hlate (by omega) hd hh
    have hlt : v < t := by
      by_cases hlt : v < t
      · exact hlt
      · rw [admits_eq_false_of_forward_passes h₁ (by omega) (by omega)
          (by simp only [longestSearch]; omega) (by rw [hf]; exact hv.2)] at ha
        simp at ha
    exact ⟨v, hv.1, by omega, ha, by omega⟩

end Plan

end Timetable
