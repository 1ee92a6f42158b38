import Timetable.Proofs.Zone.Resolve
import Timetable.Zone.Table

namespace Timetable

open Calendar

namespace Calendar.Reading

variable {c : Clock}

def ahead (r : Reading c) (n : Int) : Reading c := ⟨r.second + n, r.nano, r.nano_lt⟩

def WellInside (r : Reading c) : Prop :=
  earliestSecond + 172800 ≤ r.second ∧ r.second + 172800 ≤ latestSecond

instance (r : Reading c) : Decidable r.WellInside := inferInstanceAs (Decidable (_ ∧ _))

end Calendar.Reading

namespace Zone

variable {z : Zone} {t u : Instant} {w : WallTime} {s o o' v : Int} {xs : List Transition}

/-- At second `s` the offset changes from `o` to `o'`, and wall clocks skip second `v`. -/
structure Skips (z : Zone) (s o o' v : Int) : Prop where
  mem : ⟨s, o'⟩ ∈ z.transitions
  before : z.offsetAt (s - 1) = o
  le : s + o ≤ v
  lt : v < s + o'

/-- How wall times are to be mapped: to the first instant that shows them; if they are skipped, to one
after the change that shows them ahead by the width of the gap; and back to the instant whose wall time it
was, or to its first pass. -/
structure MapsByRule (z : Zone) (w : WallTime) : Prop where
  shown : ∀ t, z.wallAt t = w → z.wallAt (z.resolve w) = w ∧ z.resolve w ≤ t
  skipped : ∀ s o o', z.Skips s o o' w.second →
    .ofSecond s ≤ z.resolve w ∧ z.wallAt (z.resolve w) = w.ahead (o' - o)
  back : ∀ t, z.wallAt t = w → ((∀ d, ¬ z.InSecondPass t w d) ∧ z.resolve w = t) ∨
    ∃ d, z.InSecondPass t w d ∧ z.resolve w = t.ahead (-d)

def LosesLeapSecond (z : Zone) (w : WallTime) : Prop :=
  w.isLeap = true ∧ ∃ s o o', z.Skips s o o' w.second ∧ o ≠ 0

theorem maps_of_wellInside (hz : z.Regular) (hw : w.WellInside) : z.Maps w := by
  obtain ⟨hlo, hhi⟩ := hw
  constructor
  · intro r hr
    have hsize := natAbs_offsetAt_lt hz (w.second - r)
    rw [(mem_offsetsAt_iff hz).1 hr] at hsize
    rw [Reading.inRange_iff, instantUnder]
    simp only
    omega
  · intro _
    have hdate : (w.date.addDays (-1)).InRange := by
      simp only [Date.InRange, Date.addDays, Reading.date, dateOf, earliestSecond, latestSecond, dayStart,
        secondsPerDay] at *
      omega
    rw [Reading.addDays?, Date.addDays?, Date.inRange?, if_pos hdate]
    rfl

theorem InOrder.inRange_resolve (hz : z.InOrder) (hw : w.WellInside) : (z.resolve w).InRange := by
  cases hi : z.instantsAt w with
  | cons t ts =>
    rw [resolve_of_cons hi]
    have ht : t ∈ z.instantsAt w := by
      rw [hi]
      exact List.mem_cons_self
    exact (of_mem_instantsAt ht).1
  | nil =>
    obtain ⟨hlo, hhi⟩ := hw
    have hsize := hz.natAbs_offsetAt_lt ((w.addDays? (-1)).getD w).second
    rw [resolve, hi, Reading.inRange_iff, Reading.second_addSeconds]
    simp only
    split <;> omega

theorem exists_instantsAt_eq_cons (hz : z.Regular) (hm : z.Maps w) (ht : z.wallAt t = w) :
    ∃ us, z.instantsAt w = z.resolve w :: us := by
  have hmem : t ∈ z.instantsAt w := (mem_instantsAt_iff hz).2 ⟨hm.inRange hz ht, ht⟩
  cases hi : z.instantsAt w with
  | nil => simp [hi] at hmem
  | cons u us => exact ⟨us, by rw [resolve_of_cons hi]⟩

theorem resolve_mem_instantsAt (hz : z.Regular) (hm : z.Maps w) (ht : z.wallAt t = w) :
    (z.resolve w).InRange ∧ z.wallAt (z.resolve w) = w := by
  obtain ⟨us, hi⟩ := exists_instantsAt_eq_cons hz hm ht
  rw [← mem_instantsAt_iff hz, hi]
  exact List.mem_cons_self

theorem resolve_eq_or_lt (hz : z.Regular) (hm : z.Maps w) (ht : z.wallAt t = w) :
    z.resolve w = t ∨ (z.resolve w).second < t.second := by
  obtain ⟨us, hi⟩ := exists_instantsAt_eq_cons hz hm ht
  have hp := pairwise_instantsAt hz w
  have hmem : t ∈ z.instantsAt w := (mem_instantsAt_iff hz).2 ⟨hm.inRange hz ht, ht⟩
  rw [hi] at hp hmem
  rcases List.mem_cons.1 hmem with rfl | hmem
  · exact .inl rfl
  · exact .inr ((List.pairwise_cons.1 hp).1 t hmem)

theorem resolve_le (hz : z.Regular) (hm : z.Maps w) (ht : z.wallAt t = w) : z.resolve w ≤ t := by
  rw [Reading.le_def]
  rcases resolve_eq_or_lt hz hm ht with h | h
  · rw [h]
    exact .inr ⟨rfl, Nat.le_refl _⟩
  · exact .inl h

theorem resolve_of_not_inSecondPass (hz : z.Regular) (hm : z.Maps w) (ht : z.wallAt t = w)
    (h : ∀ d, ¬ z.InSecondPass t w d) : z.resolve w = t := by
  rcases resolve_eq_or_lt hz hm ht with heq | hlt
  · exact heq
  · have hself : z.wallAt t ≤ w := by
      rw [ht]
      exact .inr ⟨rfl, Nat.le_refl _⟩
    obtain ⟨d, hd⟩ := inSecondPass_of_lt hz (resolve_mem_instantsAt hz hm ht).2 hself (.inl hlt)
    exact absurd hd (h d)

theorem resolve_of_inSecondPass (hz : z.Regular) (hm : z.Maps w) (ht : z.wallAt t = w) {d : Int}
    (hd : z.InSecondPass t w d) : z.resolve w = t.ahead (-d) := by
  have hsecond := second_resolve_of_inSecondPass hz hm hd
  have hw := (resolve_mem_instantsAt hz hm ht).2
  have hface : w.second = z.faceAt t.second := by rw [← ht, second_wallAt]
  rw [Reading.eq_iff, Reading.ahead]
  constructor
  · simp only
    omega
  · rw [← nano_wallAt (z := z), hw, ← ht, nano_wallAt]

theorem offsetAfter_of_lt (h : ∀ x ∈ xs, v < x.second) : offsetAfter o v xs = o := by
  cases xs with
  | nil => rfl
  | cons x xs => rw [offsetAfter, if_pos (h x (by simp))]

theorem offsetAfter_of_mem (hp : xs.Pairwise fun x y => x.second < y.second) (h : ⟨s, o'⟩ ∈ xs) :
    offsetAfter o s xs = o' := by
  induction xs generalizing o with
  | nil => simp at h
  | cons x xs ih =>
    rw [List.pairwise_cons] at hp
    rcases List.mem_cons.1 h with rfl | hmem
    · rw [offsetAfter, if_neg (Int.lt_irrefl s)]
      exact offsetAfter_of_lt hp.1
    · have hlt := hp.1 _ hmem
      rw [offsetAfter, if_neg (by simp only at hlt; omega)]
      exact ih hp.2 hmem

namespace Skips

theorem offsetAt_before (h : z.Skips s o o' v) (hz : z.Regular) {u : Int} (hlo : s - 172800 ≤ u)
    (hhi : u < s) : z.offsetAt u = o := by
  rw [← h.before]
  exact offsetAt_eq_near hz h.mem (by omega) (.inr ⟨hlo, by simp only; omega⟩)

theorem offsetAt_after (h : z.Skips s o o' v) (hz : z.Regular) {u : Int} (hlo : s ≤ u)
    (hhi : u ≤ s + 172800) : z.offsetAt u = o' := by
  rw [← offsetAfter_of_mem (o := z.before) hz.pairwise h.mem]
  exact (offsetAt_eq_near hz h.mem hlo (.inl ⟨Int.le_refl s, hhi⟩)).symm

theorem natAbs_lt (h : z.Skips s o o' v) (hz : z.Regular) : o.natAbs < 86400 ∧ o'.natAbs < 86400 := by
  have hbefore := natAbs_offsetAt_lt hz (s - 1)
  rw [h.before] at hbefore
  exact ⟨hbefore, hz.2.1 _ h.mem⟩

theorem faceAt_ne (h : z.Skips s o o' v) (hz : z.Regular) (u : Int) : z.faceAt u ≠ v := by
  intro hu
  have hsize := natAbs_offsetAt_lt hz u
  obtain ⟨ho, ho'⟩ := h.natAbs_lt hz
  have hle := h.le
  have hlt := h.lt
  simp only [faceAt] at hu
  rcases Int.lt_or_le u s with hus | hsu
  · have := h.offsetAt_before hz (u := u) (by omega) hus
    omega
  · have := h.offsetAt_after hz hsu (by omega)
    omega

theorem instantsAt_eq_nil (h : z.Skips s o o' w.second) (hz : z.Regular) : z.instantsAt w = [] := by
  rw [List.eq_nil_iff_forall_not_mem]
  intro u hu
  have hw := ((mem_instantsAt_iff hz).1 hu).2
  exact h.faceAt_ne hz u.second (by rw [← second_wallAt, hw])

theorem offsetAt_dayBefore (h : z.Skips s o o' v) (hz : z.Regular) : z.offsetAt (v - 86400) = o := by
  obtain ⟨ho, ho'⟩ := h.natAbs_lt hz
  have hle := h.le
  have hlt := h.lt
  exact h.offsetAt_before hz (by omega) (by omega)

theorem resolve_eq (h : z.Skips s o o' w.second) (hz : z.Regular) (hm : z.Maps w) :
    z.resolve w = Reading.addSeconds ⟨w.second, w.nano, w.nano_lt⟩ (-o) := by
  rw [resolve_of_instantsAt_eq_nil hm (h.instantsAt_eq_nil hz), h.offsetAt_dayBefore hz]

theorem second_resolve (h : z.Skips s o o' w.second) (hz : z.Regular) (hm : z.Maps w) :
    (z.resolve w).second =
      if w.isLeap = true ∧ -o < 0 then w.second + 1 + -o else w.second + -o := by
  rw [h.resolve_eq hz hm, Reading.second_addSeconds]
  rfl

theorem nano_resolve_eq_iff (h : z.Skips s o o' w.second) (hz : z.Regular) (hm : z.Maps w) :
    (z.resolve w).nano = w.nano ↔ ¬ (w.isLeap = true ∧ -o ≠ 0) := by
  rw [h.resolve_eq hz hm]
  exact Reading.nano_addSeconds_eq_iff _ _

theorem second_resolve_bounds (h : z.Skips s o o' w.second) (hz : z.Regular) (hm : z.Maps w) :
    w.second - o ≤ (z.resolve w).second ∧ (z.resolve w).second ≤ w.second - o + 1 := by
  rw [h.second_resolve hz hm]
  split <;> omega

theorem le_resolve (h : z.Skips s o o' w.second) (hz : z.Regular) (hm : z.Maps w) :
    .ofSecond s ≤ z.resolve w := by
  have hle := h.le
  have hsecond := (h.second_resolve_bounds hz hm).1
  simp only [Reading.le_def, Reading.ofSecond]
  omega

theorem wallAt_resolve_iff (h : z.Skips s o o' w.second) (hz : z.Regular) (hm : z.Maps w) :
    z.wallAt (z.resolve w) = w.ahead (o' - o) ↔ ¬ (w.isLeap = true ∧ o ≠ 0) := by
  obtain ⟨hlo, hhi⟩ := h.second_resolve_bounds hz hm
  obtain ⟨ho, ho'⟩ := h.natAbs_lt hz
  have hle := h.le
  have hlt := h.lt
  have hoffset := h.offsetAt_after hz (u := (z.resolve w).second) (by omega) (by omega)
  have hsecond := h.second_resolve hz hm
  have hnano := h.nano_resolve_eq_iff hz hm
  rw [Reading.eq_iff, second_wallAt, nano_wallAt, faceAt, hoffset]
  simp only [Reading.ahead]
  rw [hnano]
  constructor
  · rintro ⟨-, hkept⟩ ⟨hleap, hne⟩
    exact hkept ⟨hleap, by omega⟩
  · intro hkept
    rw [if_neg fun hlost => hkept ⟨hlost.1, by omega⟩] at hsecond
    exact ⟨by omega, fun hlost => hkept ⟨hlost.1, by omega⟩⟩

end Skips

theorem exists_faceAt_step {a : Int} (n : Nat) (ha : z.faceAt a ≤ v) (hn : v < z.faceAt (a + n)) :
    ∃ u, z.faceAt u ≤ v ∧ v < z.faceAt (u + 1) := by
  induction n with
  | zero =>
    rw [Int.natCast_zero, Int.add_zero] at hn
    omega
  | succ n ih =>
    rcases Int.lt_or_le v (z.faceAt (a + n)) with hlt | hle
    · exact ih hlt
    · exact ⟨a + n, hle, by rwa [Int.natCast_succ, ← Int.add_assoc] at hn⟩

theorem exists_faceAt_eq_or_skips (hz : z.Regular) (v : Int) :
    (∃ u, z.faceAt u = v) ∨ ∃ s o o', z.Skips s o o' v := by
  have hbefore := natAbs_offsetAt_lt hz (v - 86400)
  have hafter := natAbs_offsetAt_lt hz (v - 86400 + (172800 : Nat))
  -- from a day before to a day after `v` the clocks come to show later times than `v`
  obtain ⟨u, hu, hu'⟩ := exists_faceAt_step (z := z) (v := v) (a := v - 86400) 172800
    (by simp only [faceAt]; omega) (by simp only [faceAt] at *; omega)
  rcases Int.le_iff_lt_or_eq.1 hu with hlt | heq
  · right
    have hne : z.offsetAt u ≠ z.offsetAt (u + 1) := by
      simp only [faceAt] at hlt hu'
      omega
    obtain ⟨⟨s, o'⟩, hx, hux, hxu⟩ := exists_transition_of_offsetAfter_ne (by omega) hne
    obtain rfl : s = u + 1 := by
      simp only at hux hxu
      omega
    have hnew : z.offsetAt (u + 1) = o' := offsetAfter_of_mem hz.pairwise hx
    refine ⟨u + 1, z.offsetAt u, o', hx, by rw [Int.add_sub_cancel], ?_, ?_⟩
    · simp only [faceAt] at hlt
      omega
    · simp only [faceAt, hnew] at hu'
      exact hu'
  · exact .inl ⟨u, heq⟩

theorem exists_wallAt_eq_or_skips (hz : z.Regular) (w : WallTime) :
    (∃ t, z.wallAt t = w) ∨ ∃ s o o', z.Skips s o o' w.second := by
  rcases exists_faceAt_eq_or_skips hz w.second with ⟨u, hu⟩ | h
  · exact .inl ⟨⟨u, w.nano, w.nano_lt⟩, Reading.eq_iff.2 ⟨hu, rfl⟩⟩
  · exact .inr h

/-- Every wall time well inside the calendar's range is shown or skipped and means an instant of the range,
which is the one of the rule exactly if no leap second is lost. -/
theorem resolve_byRule_iff (hz : z.Regular) (hw : w.WellInside) :
    z.resolve? w = some (z.resolve w) ∧ ((∃ t, z.wallAt t = w) ∨ ∃ s o o', z.Skips s o o' w.second) ∧
    (∀ s o o', z.Skips s o o' w.second → .ofSecond s ≤ z.resolve w) ∧
    (z.MapsByRule w ↔ ¬ z.LosesLeapSecond w) := by
  have hm := maps_of_wellInside hz hw
  refine ⟨if_pos (hz.inOrder.inRange_resolve hw), exists_wallAt_eq_or_skips hz w,
    fun s o o' h => h.le_resolve hz hm, ?_, ?_⟩
  · rintro hrule ⟨hleap, s, o, o', h, ho⟩
    exact (h.wallAt_resolve_iff hz hm).1 (hrule.skipped s o o' h).2 ⟨hleap, ho⟩
  · intro hn
    refine ⟨fun t ht => ⟨(resolve_mem_instantsAt hz hm ht).2, resolve_le hz hm ht⟩, ?_, ?_⟩
    · intro s o o' h
      refine ⟨h.le_resolve hz hm, (h.wallAt_resolve_iff hz hm).2 ?_⟩
      rintro ⟨hleap, ho⟩
      exact hn ⟨hleap, s, o, o', h, ho⟩
    · intro t ht
      by_cases hagain : ∃ d, z.InSecondPass t w d
      · obtain ⟨d, hd⟩ := hagain
        exact .inr ⟨d, hd, resolve_of_inSecondPass hz hm ht hd⟩
      · have hnone : ∀ d, ¬ z.InSecondPass t w d := fun d hd => hagain ⟨d, hd⟩
        exact .inl ⟨hnone, resolve_of_not_inSecondPass hz hm ht hnone⟩

def noonLeftOut : WallTime := .ofSecond 1325246400 -- 2011-12-30T12:00:00

theorem resolve_byRule_noonLeftOut : apia.Regular ∧ noonLeftOut.WellInside ∧
    apia.Skips 1325239200 (-36000) 50400 noonLeftOut.second ∧ apia.MapsByRule noonLeftOut ∧
    apia.wallAt (apia.resolve noonLeftOut) = .ofSecond 1325332800 := by
  have hz : apia.Regular := by decide +kernel
  have hw : noonLeftOut.WellInside := by decide
  have hs : apia.Skips 1325239200 (-36000) 50400 noonLeftOut.second :=
    ⟨by decide +kernel, by decide +kernel, by decide, by decide⟩
  have hplain : ¬ apia.LosesLeapSecond noonLeftOut := fun h => absurd h.1 (by decide)
  exact ⟨hz, hw, hs, (resolve_byRule_iff hz hw).2.2.2.2 hplain, by decide +kernel⟩

def leapSecondLeftOut : WallTime := ⟨1396236659, 1500000000, by decide⟩ -- 2014-03-31T03:30:60.5

theorem not_mapsByRule_leapSecondLeftOut : istanbul.Regular ∧ leapSecondLeftOut.WellInside ∧
    istanbul.Skips 1396227600 7200 10800 leapSecondLeftOut.second ∧
    (istanbul.wallAt (istanbul.resolve leapSecondLeftOut)).second = 1396240260 ∧
    (istanbul.wallAt (istanbul.resolve leapSecondLeftOut)).nano = 500000000 ∧
    istanbul.wallAt (istanbul.resolve leapSecondLeftOut) ≠ leapSecondLeftOut.ahead 3600 ∧
    istanbul.wallAt (istanbul.resolve leapSecondLeftOut) ≠ leapSecondLeftOut.addSeconds 3600 ∧
    ¬ istanbul.MapsByRule leapSecondLeftOut := by
  have hs : istanbul.Skips 1396227600 7200 10800 leapSecondLeftOut.second :=
    ⟨by decide +kernel, by decide +kernel, by decide, by decide⟩
  have hne : istanbul.wallAt (istanbul.resolve leapSecondLeftOut) ≠ leapSecondLeftOut.ahead 3600 := by
    decide +kernel
  exact ⟨by decide +kernel, by decide, hs, by decide +kernel, by decide +kernel, hne, by decide +kernel,
    fun h => hne (h.skipped _ _ _ hs).2⟩

end Zone

end Timetable
