import Timetable.Proofs.Calendar.Advance
import Timetable.Proofs.Zone.Face

/-! A later wall time means a later instant, except from the second pass through a repeated stretch. -/

namespace Timetable.Zone

open Calendar

variable {z : Zone} {t u : Instant} {w : WallTime} {d : Int}

/-- Neither the instants at which `w` is shown nor, if there are none, the day before it lie outside the
calendar's range. -/
structure Maps (z : Zone) (w : WallTime) : Prop where
  shown : ∀ o ∈ z.offsetsAt w.second, (instantUnder o w).InRange
  skipped : z.offsetsAt w.second = [] → (w.addDays? (-1)).isSome = true

instance : Decidable (z.Maps w) :=
  decidable_of_iff ((∀ o ∈ z.offsetsAt w.second, (instantUnder o w).InRange) ∧
    (z.offsetsAt w.second = [] → (w.addDays? (-1)).isSome = true))
    ⟨fun h => ⟨h.1, h.2⟩, fun h => ⟨h.shown, h.skipped⟩⟩

/-- Wall clocks show a stretch of `d` seconds twice; `t` is in the second pass through it, and `w` is one
of its times. -/
def InSecondPass (z : Zone) (t : Instant) (w : WallTime) (d : Int) : Prop :=
  ∃ s, z.FallsBack s d ∧ s ≤ t.second ∧ t.second < s + d ∧
    z.faceAt s ≤ w.second ∧ w.second < z.faceAt s + d

theorem Maps.inRange (hm : z.Maps w) (hz : z.Regular) (ht : z.wallAt t = w) : t.InRange := by
  subst ht
  have hin := hm.shown _ (offsetAt_mem_offsetsAt hz t)
  rwa [instantUnder_wallAt] at hin

theorem resolve_of_cons {us : List Instant} (h : z.instantsAt w = u :: us) : z.resolve w = u := by
  rw [resolve, h]

theorem addSeconds_offset (hleap : w.isLeap = false) (n : Int) :
    Reading.addSeconds (⟨w.second, w.nano, w.nano_lt⟩ : Instant) n =
      ⟨w.second + n, w.nano, w.nano_lt⟩ := by
  have hplain : Reading.isLeap (⟨w.second, w.nano, w.nano_lt⟩ : Instant) = false := hleap
  rw [Reading.addSeconds_of_not_isLeap hplain]

theorem nano_resolve (hleap : w.isLeap = false) : (z.resolve w).nano = w.nano := by
  cases hi : z.instantsAt w with
  | nil =>
    rw [resolve, hi]
    simp only
    rw [addSeconds_offset hleap]
  | cons u us =>
    have hu : u ∈ z.instantsAt w := by
      rw [hi]
      exact List.mem_cons_self
    obtain ⟨-, o, -, rfl⟩ := of_mem_instantsAt hu
    rw [resolve_of_cons hi]
    rfl

theorem second_resolve_of_inSecondPass (hz : z.Regular) (hm : z.Maps w) (h : z.InSecondPass t w d) :
    (z.resolve w).second = t.second + (w.second - z.faceAt t.second) - d := by
  obtain ⟨s, hb, hst, hts, hsw, hws⟩ := h
  have hd := hb.lt_twoDays hz
  have ht := hb.after t.second hst (by omega)
  simp only [faceAt] at hsw hws
  -- the second pass shows `w` at `v`, and the first one `d` seconds before
  obtain ⟨v, hv⟩ : ∃ v, v = w.second - z.offsetAt s := ⟨_, rfl⟩
  have hoffset := hb.after v (by omega) (by omega)
  have hsecond : z.faceAt v = w.second := by
    simp only [faceAt]
    omega
  have hfirst : z.faceAt (v - d) = w.second := by
    rw [hb.faceAt_sub hz (by omega) (by omega), hsecond]
  have hw₁ : z.wallAt ⟨v - d, w.nano, w.nano_lt⟩ = w := Reading.eq_iff.2 ⟨hfirst, rfl⟩
  have hw₂ : z.wallAt ⟨v, w.nano, w.nano_lt⟩ = w := Reading.eq_iff.2 ⟨hsecond, rfl⟩
  have hpos := hb.pos
  have hpair := instantsAt_eq_pair hz (hm.inRange hz hw₁) (hm.inRange hz hw₂) hw₁ hw₂
    (show v - d < v by omega)
  rw [resolve_of_cons hpair]
  simp only [faceAt]
  omega

theorem inSecondPass_of_lt (hz : z.Regular) (hu : z.wallAt u = w) (hw : z.wallAt t ≤ w) (h : u < t) :
    ∃ d, z.InSecondPass t w d := by
  subst hu
  rw [Reading.le_def, second_wallAt, second_wallAt, nano_wallAt, nano_wallAt] at hw
  rw [Reading.lt_def] at h
  have hlt : u.second < t.second := by
    rcases h with h | ⟨h, hnano⟩
    · exact h
    · rw [h] at hw
      omega
  obtain ⟨s, d, hb, hus, hst, hd⟩ := fallsBack_of_faceAt_le hz hlt (by omega)
  have hdays := hb.lt_twoDays hz
  have hbefore := hb.before u.second (by simp only [faceAt] at hw; omega) hus
  have hafter := hb.after t.second hst (by simp only [faceAt] at hw; omega)
  refine ⟨d, s, hb, hst, ?_⟩
  simp only [second_wallAt, faceAt] at hw ⊢
  omega

theorem lt_of_skipped (hz : z.Regular) (hg : z.offsetsAt w.second = [])
    (hw : z.faceAt t.second ≤ w.second) :
    t.second < w.second - z.offsetAt (w.second - 86400) := by
  have hnone (r : Int) : z.offsetAt (w.second - r) ≠ r := by
    intro hr
    have hmem := (mem_offsetsAt_iff hz).2 hr
    simp [hg] at hmem
  obtain ⟨o, ho⟩ : ∃ o, o = z.offsetAt (w.second - 86400) := ⟨_, rfl⟩
  have hsize := natAbs_offsetAt_lt hz (w.second - 86400)
  have htsize := natAbs_offsetAt_lt hz t.second
  have hne : z.offsetAt (w.second - 86400) ≠ z.offsetAt (w.second - o) := by
    rw [← ho]
    exact (hnone o).symm
  -- the clocks change between the day before and the instant that is meant
  obtain ⟨x, hx, hlo, hhi⟩ := exists_transition_of_offsetAfter_ne (by omega) hne
  rw [← ho, ← Int.not_le]
  intro hlt
  simp only [faceAt] at hw
  -- otherwise `t` has the new offset, and so has the instant that then shows `w`
  have hnear : z.offsetAt t.second = z.offsetAt (w.second - z.offsetAt t.second) :=
    offsetAt_eq_near hz hx (by omega) (.inl ⟨by omega, by omega⟩)
  exact hnone _ hnear.symm

theorem Maps.offsetsAt_eq_nil (hm : z.Maps w) (h : z.instantsAt w = []) : z.offsetsAt w.second = [] := by
  have hall : ∀ t ∈ (z.offsetsAt w.second).map fun o => instantUnder o w, t.InRange := by
    rintro t ht
    obtain ⟨o, ho, rfl⟩ := List.mem_map.1 ht
    exact hm.shown o ho
  simp only [instantsAt] at h
  rw [if_pos hall] at h
  exact List.map_eq_nil_iff.1 h

theorem resolve_of_instantsAt_eq_nil (hm : z.Maps w) (h : z.instantsAt w = []) :
    z.resolve w =
      Reading.addSeconds ⟨w.second, w.nano, w.nano_lt⟩ (-z.offsetAt (w.second - 86400)) := by
  obtain ⟨v, hv⟩ := Option.isSome_iff_exists.1 (hm.skipped (hm.offsetsAt_eq_nil h))
  have hday : v.second = w.second - 86400 := by
    rw [Reading.second_of_addDays? hv]
    omega
  rw [resolve, h]
  simp only [hv, Option.getD_some, hday]

theorem resolve_of_skipped (hm : z.Maps w) (hleap : w.isLeap = false) (h : z.instantsAt w = []) :
    z.resolve w = ⟨w.second - z.offsetAt (w.second - 86400), w.nano, w.nano_lt⟩ := by
  rw [resolve_of_instantsAt_eq_nil hm h, addSeconds_offset hleap, ← Int.sub_eq_add_neg]

theorem le_resolve (hz : z.Regular) (hm : z.Maps w) (hw : z.wallAt t ≤ w) (hleap : w.isLeap = false)
    (h : ∀ d, ¬ z.InSecondPass t w d) : t ≤ z.resolve w := by
  cases hi : z.instantsAt w with
  | cons u us =>
    rw [resolve_of_cons hi, ← Reading.not_lt]
    intro hlt
    have hu : u ∈ z.instantsAt w := by
      rw [hi]
      exact List.mem_cons_self
    obtain ⟨d, hd⟩ := inSecondPass_of_lt hz ((mem_instantsAt_iff hz).1 hu).2 hw hlt
    exact h d hd
  | nil =>
    have hface : z.faceAt t.second ≤ w.second := by
      rw [Reading.le_def, second_wallAt] at hw
      omega
    rw [resolve_of_skipped hm hleap hi, Reading.le_def]
    exact .inl (lt_of_skipped hz (hm.offsetsAt_eq_nil hi) hface)

theorem le_addSeconds_resolve_iff (hz : z.Regular) (hm : z.Maps w)
    (hw : z.faceAt t.second ≤ w.second) (hnano : t.nano ≤ w.nano) (hleap : w.isLeap = false) (n : Nat) :
    t ≤ (z.resolve w).addSeconds n ↔
      ¬ ∃ d, z.InSecondPass t w d ∧ w.second + n < z.faceAt t.second + d := by
  have hplain : (z.resolve w).isLeap = false := by
    rw [Reading.isLeap, nano_resolve hleap]
    exact hleap
  rw [Reading.addSeconds_of_not_isLeap hplain, Reading.le_def]
  simp only [nano_resolve hleap]
  by_cases h : ∃ d, z.InSecondPass t w d
  · obtain ⟨d, hd⟩ := h
    have hback := second_resolve_of_inSecondPass hz hm hd
    constructor
    · rintro hle ⟨d', hd', hlt⟩
      have hback' := second_resolve_of_inSecondPass hz hm hd'
      omega
    · intro hn
      have hlt : ¬ w.second + n < z.faceAt t.second + d := fun hlt => hn ⟨d, hd, hlt⟩
      omega
  · have hle : t ≤ z.resolve w := by
      refine le_resolve hz hm ?_ hleap fun d hd => h ⟨d, hd⟩
      rw [Reading.le_def, second_wallAt, nano_wallAt]
      omega
    rw [Reading.le_def, nano_resolve hleap] at hle
    refine iff_of_true (by omega) ?_
    rintro ⟨d, hd, -⟩
    exact h ⟨d, hd⟩

theorem instantsAt_utc (w : WallTime) :
    utc.instantsAt w = (instantUnder 0 w).inRange?.toList := by
  simp only [instantsAt, utc, offsetsAt_fixed, List.map_singleton, List.forall_mem_singleton,
    Reading.inRange?]
  split <;> rfl

theorem inRange_instantUnder_zero (hw : w.InRange) : (instantUnder 0 w).InRange := by
  rw [Reading.inRange_iff] at hw ⊢
  rwa [instantUnder, Int.sub_zero]

theorem instantsAt_utc_of_inRange (hw : w.InRange) : utc.instantsAt w = [instantUnder 0 w] := by
  rw [instantsAt_utc, Reading.inRange?, if_pos (inRange_instantUnder_zero hw), Option.toList_some]

theorem resolve_utc (w : WallTime) : utc.resolve w = instantUnder 0 w := by
  rw [resolve, instantsAt_utc]
  cases h : (instantUnder 0 w).inRange? with
  | some u => exact (Reading.inRange?_eq_some_iff.1 h).2.symm
  | none =>
    simp only [Option.toList_none, utc, offsetAt_fixed, Int.neg_zero, Reading.addSeconds_zero]
    rw [instantUnder, Reading.eq_iff]
    simp

theorem inRange_resolve_utc (hw : w.InRange) : (utc.resolve w).InRange := by
  rw [resolve_utc]
  exact inRange_instantUnder_zero hw

theorem resolve_utc_ofDate (d : Date) (s : Nat) : utc.resolve (.ofDate d s) = .ofDate d s := by
  rw [resolve_utc, instantUnder, Reading.eq_iff]
  simp [Reading.ofDate, Reading.ofSecond]

theorem resolve_utc_endOfDate (d : Date) : utc.resolve (.endOfDate d) = .endOfDate d := by
  rw [resolve_utc, instantUnder, Reading.eq_iff]
  simp [Reading.endOfDate]

end Timetable.Zone
