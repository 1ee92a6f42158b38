import Timetable.Proofs.Result
import Timetable.Proofs.Search.Again
import Timetable.Proofs.Search.Forward
import Timetable.Proofs.Search.Horizon
import Timetable.Proofs.Zone.Face

/-! The first answer on the wall clock and the first one in the repeated hour are together the first of all.
-/

namespace Timetable

open Calendar

namespace Plan

variable {p : Plan} {t u : Instant} {w s v lo last : Int} {years : Nat}

def MatchAfter (p : Plan) (t : Instant) (s : Int) : Prop :=
  t.second < s ∧ s ≤ latestSecond ∧ p.admits (p.zone.faceAt s) = true

theorem firstAfter_eq_none (hz : p.zone.Regular) (ht : t.InRange) (h : p.firstAfter t w = none)
    (hs : t.second < s) (hl : s ≤ latestSecond) : p.zone.faceAt s ≠ w := by
  intro hf
  rw [Reading.inRange_iff] at ht
  have hm : Reading.ofSecond s ∈ p.zone.instantsAt (.ofSecond w) := by
    rw [Zone.mem_instantsAt_ofSecond_iff hz, Reading.inRange_iff]
    exact ⟨⟨by simp only [Reading.ofSecond]; omega, hl⟩, rfl, hf⟩
  rw [firstAfter, List.find?_eq_none] at h
  have := h _ hm
  simp [Reading.lt_ofSecond_iff, hs] at this

theorem firstAfter_eq_some (hz : p.zone.Regular) (ht : t.InRange) (h : p.firstAfter t w = some u) :
    ∃ s, u = .ofSecond s ∧ t.second < s ∧ s ≤ latestSecond ∧ p.zone.faceAt s = w ∧
      ∀ v, t.second < v → v ≤ latestSecond → p.zone.faceAt v = w → s ≤ v := by
  have hm := List.mem_of_find?_eq_some h
  obtain ⟨hin, hn, hf⟩ := (Zone.mem_instantsAt_ofSecond_iff hz).1 hm
  have hlt : t < u := by simpa using List.find?_some h
  rw [← Reading.ofSecond_second hn, Reading.lt_ofSecond_iff] at hlt
  rw [Reading.inRange_iff] at hin ht
  refine ⟨u.second, (Reading.ofSecond_second hn).symm, hlt, hin.2, hf, ?_⟩
  intro v hv hl hfv
  have hmv : Reading.ofSecond v ∈ p.zone.instantsAt (.ofSecond w) := by
    rw [Zone.mem_instantsAt_ofSecond_iff hz, Reading.inRange_iff]
    exact ⟨⟨by simp only [Reading.ofSecond]; omega, hl⟩, rfl, hfv⟩
  rcases eq_or_rel_of_find?_eq_some (Zone.pairwise_instantsAt hz _) h hmv
    (by simp [Reading.lt_ofSecond_iff, hv]) with he | hr
  · rw [← he]
    exact Int.le_refl v
  · exact Int.le_of_lt hr

def ShownFirst (p : Plan) (t : Instant) (lo last : Int) : Found Instant → Prop
  | .found u => ∃ s, u = .ofSecond s ∧ p.MatchAfter t s ∧ lo ≤ p.zone.faceAt s ∧
      p.zone.faceAt s ≤ last ∧ ∀ v, p.MatchAfter t v → lo ≤ p.zone.faceAt v →
        p.zone.faceAt s ≤ p.zone.faceAt v ∧ (p.zone.faceAt s = p.zone.faceAt v → s ≤ v)
  | .exhausted => ∀ v, p.MatchAfter t v → lo ≤ p.zone.faceAt v → last < p.zone.faceAt v
  | .outOfRange => False

theorem seekForward_shownFirst (hz : p.zone.Regular) (ht : t.InRange) (h₁ : earliestSecond ≤ lo)
    (h₂ : last ≤ latestSecond) (h₃ : last ≤ lo + longestSearch)
    (hr : ∀ w, latestSecond - 3600 < w → w ≤ last → lo ≤ w ∧ p.firstAfter t w ≠ none) :
    p.ShownFirst t lo last (p.seekForward (p.firstAfter t) last lo) := by
  have ha : p.AnswersForward (p.firstAfter t) last lo _ := seekForward_answers h₁ h₂ h₃
  cases hf : p.seekForward (p.firstAfter t) last lo with
  | found u =>
    rw [hf] at ha
    obtain ⟨w, hw₁, hw₂, hadm, hacc, hmin⟩ := ha
    obtain ⟨s, rfl, hs, hl, rfl, hleast⟩ := firstAfter_eq_some hz ht hacc
    refine ⟨s, rfl, ⟨hs, hl, hadm⟩, hw₁, hw₂, ?_⟩
    intro v hv hlo
    refine ⟨?_, fun he => hleast v hv.1 hv.2.1 he.symm⟩
    rcases Int.lt_or_le (p.zone.faceAt v) (p.zone.faceAt s) with hlt | hle
    · exact absurd rfl (firstAfter_eq_none hz ht (hmin _ hlo hlt hv.2.2) hv.1 hv.2.1)
    · exact hle
  | exhausted =>
    rw [hf] at ha
    intro v hv hlo
    rcases Int.lt_or_le last (p.zone.faceAt v) with hlt | hle
    · exact hlt
    · exact absurd rfl (firstAfter_eq_none hz ht (ha _ hlo hle hv.2.2) hv.1 hv.2.1)
  | outOfRange =>
    rw [hf] at ha
    obtain ⟨w, hw₁, hw₂, hadm, hacc⟩ := ha
    obtain ⟨hlo, hne⟩ := hr w hw₁ hw₂
    exact hne (hacc hlo)

theorem le_of_shownFirst_ahead (hz : p.zone.Regular)
    (h : p.ShownFirst t (p.zone.faceAt t.second + 1) last (.found (.ofSecond s)))
    (hv : p.MatchAfter t v) (hf : p.zone.faceAt t.second < p.zone.faceAt v) : s ≤ v := by
  obtain ⟨s', he, hs, hlo, -, hmin⟩ := h
  obtain rfl : s = s' := congrArg Reading.second he
  obtain ⟨hle, heq⟩ := hmin v hv hf
  rcases Int.lt_or_le v s with hlt | hge
  · -- a sooner match that shows a later time lies before a set-back, which shows the time of `s` twice
    obtain ⟨x, d, hb, hx₁, hx₂, hd⟩ := Zone.fallsBack_of_faceAt_le hz hlt hle
    have hpos := hb.pos
    have hdays := hb.lt_twoDays hz
    have hsoon : s - d < x := by
      have := hb.before v
      simp only [Zone.faceAt] at hle
      omega
    have hface := hb.faceAt_sub hz hx₂ hsoon
    have hafter : t.second < s - d := by
      rcases Int.lt_or_le t.second (s - d) with hlt' | hge'
      · exact hlt'
      · have h₁ := hb.before t.second (by omega) (by have := hv.1; omega)
        have h₂ := hb.after s hx₂ (by omega)
        simp only [Zone.faceAt] at hlo
        omega
    have hmatch : p.MatchAfter t (s - d) := by
      refine ⟨hafter, ?_, ?_⟩
      · have := hs.2.1
        omega
      · rw [hface]
        exact hs.2.2
    have := (hmin (s - d) hmatch (by omega)).2 hface.symm
    omega
  · exact hge

theorem le_of_shownFirst_again (hz : p.zone.Regular)
    (h : p.ShownFirst t lo last (.found (.ofSecond s))) (hv : p.MatchAfter t v)
    (hlo : lo ≤ p.zone.faceAt v) (hf : p.zone.faceAt v ≤ p.zone.faceAt t.second) : s ≤ v := by
  obtain ⟨s', he, hs, -, -, hmin⟩ := h
  obtain rfl : s = s' := congrArg Reading.second he
  rcases Int.lt_or_le v s with hlt | hge
  · -- the clocks would be put back between `t` and `v`, and again between `v` and `s`
    exact (Zone.not_fallsBack_twice hz hv.1 hlt hf (hmin v hv hlo).1).elim
  · exact hge

/-- The wall times that the search ahead looks at lie in the calendar's range, and those of its last hour
are shown by some instant. -/
structure RoomAhead (p : Plan) (years : Nat) (t : Instant) : Prop where
  instant : t.InRange
  wall : (p.zone.wallAt t).InRange
  horizon : ((p.zone.wallAt t).addMonths? (12 * years)).isSome
  again : ∀ first second rest, p.zone.instantsAt (p.zone.wallAt t) = first :: second :: rest →
    ((p.zone.wallAt t).addSeconds? (-(second.secondsSince first))).isSome
  lastHour : ∀ w, latestSecond - 3600 < w → w ≤ (horizonAfter years (p.zone.wallAt t)).second →
    p.zone.instantsAt (.ofSecond w) ≠ []

def horizonFace (p : Plan) (years : Nat) (t : Instant) : Int :=
  (horizonAfter years (p.zone.wallAt t)).second

theorem RoomAhead.horizonFace_bounds (hr : p.RoomAhead years t) (hn : 1 ≤ years)
    (hn' : years ≤ 400) :
    p.zone.faceAt t.second + 300 * 86400 ≤ p.horizonFace years t ∧
      p.horizonFace years t ≤ p.zone.faceAt t.second + 401 * 366 * 86400 ∧
      p.horizonFace years t ≤ latestSecond := by
  obtain ⟨h, hh⟩ := Option.isSome_iff_exists.1 hr.horizon
  rw [horizonFace, horizonAfter, hh, Option.getD_some, ← Zone.second_wallAt]
  exact WallTime.bounds_of_addMonths?_years hn hn' hh

theorem roomAhead_of_far (hz : p.zone.Regular) (ht : t.InRange) (hn : 1 ≤ years)
    (hn' : years ≤ 400) (h₁ : earliestSecond + 172800 < p.zone.faceAt t.second)
    (h₂ : ((p.zone.wallAt t).addMonths? (12 * years)).isSome)
    (h₃ : p.horizonFace years t + 3600 ≤ latestSecond) : p.RoomAhead years t := by
  obtain ⟨h, hh⟩ := Option.isSome_iff_exists.1 h₂
  have hb := (WallTime.bounds_of_addMonths?_years hn hn' hh).1
  rw [horizonFace, horizonAfter, hh, Option.getD_some] at h₃
  rw [← Zone.second_wallAt] at h₁
  refine ⟨ht, ?_, h₂, ?_, ?_⟩
  · rw [Reading.inRange_iff]
    omega
  · intro first second rest hp
    obtain ⟨hlt, hd, -, -⟩ := Zone.bounds_of_instantsAt_eq_cons hz hp
    have hlow := le_second_addSeconds_neg (p.zone.wallAt t) first second
    have hup := Reading.second_addSeconds (p.zone.wallAt t) (-(second.secondsSince first))
    have hs := first.secondsSince_bounds second
    rw [Reading.addSeconds?_eq_some_iff.2 ⟨(Reading.inRange_iff _).2 ⟨by omega, ?_⟩, rfl⟩]
    · rfl
    · rw [hup]
      split <;> omega
  · intro w hw₁ hw₂
    rw [horizonAfter, hh, Option.getD_some] at hw₂
    omega

theorem RoomAhead.shownFirst_ahead (hz : p.zone.Regular) (hr : p.RoomAhead years t)
    (hn : 1 ≤ years) (hn' : years ≤ 400) :
    p.ShownFirst t (p.zone.faceAt t.second + 1) (p.horizonFace years t)
      (p.seekAfter years t (p.zone.wallAt t)) := by
  obtain ⟨h₁, h₂, h₃⟩ := hr.horizonFace_bounds hn hn'
  have hw := (Reading.inRange_iff _).1 hr.wall
  rw [Zone.second_wallAt] at hw
  rw [seekAfter, Zone.second_wallAt, if_pos (by omega)]
  refine seekForward_shownFirst hz hr.instant (by omega) h₃ ?_ ?_
  · simp only [longestSearch]
    omega
  · intro w hw₁ hw₂
    refine ⟨by omega, ?_⟩
    intro hnone
    obtain ⟨u, hu⟩ := List.exists_mem_of_ne_nil _ (hr.lastHour w hw₁ hw₂)
    obtain ⟨hin, -, hf⟩ := (Zone.mem_instantsAt_ofSecond_iff hz).1 hu
    have hl := ((Reading.inRange_iff _).1 hin).2
    have hlt : t.second < u.second := Zone.lt_of_faceAt_add_le hz (by
      rw [hf]
      omega)
    exact firstAfter_eq_none hz hr.instant hnone hlt hl hf

theorem RoomAhead.shownFirst_again (hz : p.zone.Regular) (hr : p.RoomAhead years t)
    (hn : 1 ≤ years) (hn' : years ≤ 400) {t' : Instant}
    (hp : p.zone.instantsAt (p.zone.wallAt t) = [t, t']) :
    p.ShownFirst t ((p.zone.wallAt t).addSeconds (-(t'.secondsSince t))).second
      ((p.zone.wallAt t).addSeconds (t'.secondsSince t)).second
      (p.seekAgainForward t (p.zone.wallAt t) (t'.secondsSince t)) := by
  obtain ⟨h₁, h₂, h₃⟩ := hr.horizonFace_bounds hn hn'
  obtain ⟨hlt, hd, -, -⟩ := Zone.bounds_of_instantsAt_eq_cons hz hp
  obtain ⟨hfirst, hin⟩ := Reading.addSeconds?_of_isSome (hr.again _ _ _ hp)
  have hw := (Reading.inRange_iff _).1 hr.wall
  have hlow := le_second_addSeconds_neg (p.zone.wallAt t) t t'
  have hup := second_addSeconds_bounds (w := p.zone.wallAt t) hlt
  rw [Zone.second_wallAt] at hw hlow hup
  have hlast : (p.zone.wallAt t).addSeconds? (t'.secondsSince t) =
      some ((p.zone.wallAt t).addSeconds (t'.secondsSince t)) := by
    rw [Reading.addSeconds?_eq_some_iff, Reading.inRange_iff]
    exact ⟨⟨by omega, by omega⟩, rfl⟩
  rw [seekAgainForward, hfirst, hlast]
  apply seekForward_shownFirst hz hr.instant ((Reading.inRange_iff _).1 hin).1 (by omega)
  · simp only [longestSearch]
    omega
  · intro w hw₁ hw₂
    omega

theorem instantsAt_of_faceAt_le (hz : p.zone.Regular) (ht : t.InRange)
    (hroom : t.second + 172800 ≤ latestSecond) (hv : t.second < v)
    (hf : p.zone.faceAt v ≤ p.zone.faceAt t.second) :
    ∃ t' : Instant, p.zone.instantsAt (p.zone.wallAt t) = [t, t'] ∧
      p.zone.faceAt v = p.zone.faceAt t.second + (v - t'.second) := by
  obtain ⟨x, d, hb, hx₁, hx₂, hd⟩ := Zone.fallsBack_of_faceAt_le hz hv hf
  have hpos := hb.pos
  have hdays := hb.lt_twoDays hz
  have hlate : x ≤ t.second + d := by
    simp only [Zone.faceAt] at hf
    omega
  have hface := hb.faceAt_add hz hx₁ hlate
  rw [Reading.inRange_iff] at ht
  refine ⟨⟨t.second + d, t.nano, t.nano_lt⟩, ?_, ?_⟩
  · refine Zone.instantsAt_eq_pair hz ((Reading.inRange_iff _).2 ht) ?_ rfl ?_ (by simp only; omega)
    · rw [Reading.inRange_iff]
      exact ⟨by simp only; omega, by simp only; omega⟩
    · rw [Reading.eq_iff]
      exact ⟨hface, rfl⟩
  · simp only [Zone.faceAt]
    omega

theorem next_eq_nextFrom (hw : (p.zone.wallAt t).InRange) :
    p.next years t = p.nextFrom years t (p.zone.wallAt t) := by
  have hwall : p.zone.wallAt? t = some (p.zone.wallAt t) := if_pos hw
  rw [next, hwall]

theorem next_eq_of_twice {t' : Instant} (hw : (p.zone.wallAt t).InRange)
    (hp : p.zone.instantsAt (p.zone.wallAt t) = [t, t']) (hlt : t.second < t'.second) :
    p.next years t = (p.seekAfter years t (p.zone.wallAt t)).merge min
      (p.seekAgainForward t (p.zone.wallAt t) (t'.secondsSince t)) := by
  simp only [next_eq_nextFrom hw, nextFrom, hp]
  rw [if_pos (.inl hlt)]

theorem next_eq_of_once (hz : p.zone.Regular) (ht : t.InRange) (hw : (p.zone.wallAt t).InRange)
    (h : ∀ t', p.zone.instantsAt (p.zone.wallAt t) ≠ [t, t']) :
    p.next years t = p.seekAfter years t (p.zone.wallAt t) := by
  simp only [next_eq_nextFrom hw, nextFrom]
  split
  · next first second rest hp =>
    split
    · next hlt =>
      have hm : second ∈ p.zone.instantsAt (p.zone.wallAt t) := by simp [hp]
      obtain ⟨hin, hw⟩ := (Zone.mem_instantsAt_iff hz).1 hm
      have hn : second.nano = t.nano := by rw [← Zone.nano_wallAt (z := p.zone), hw]; rfl
      simp only [Reading.lt_def] at hlt
      exact absurd (Zone.instantsAt_eq_pair hz ht hin rfl hw (by omega)) (h second)
    · rfl
  · rfl

def IsNext (p : Plan) (years : Nat) (t : Instant) : Found Instant → Prop
  | .found u => ∃ s, u = .ofSecond s ∧ p.MatchAfter t s ∧
      p.zone.faceAt s ≤ p.horizonFace years t ∧ ∀ v, p.MatchAfter t v → s ≤ v
  | .exhausted => ∀ v, p.MatchAfter t v → p.horizonFace years t < p.zone.faceAt v
  | .outOfRange => False

theorem min_ofSecond (a b : Int) :
    min (.ofSecond a : Instant) (.ofSecond b) = .ofSecond (min a b) := by
  have hle : (.ofSecond a : Instant) ≤ .ofSecond b ↔ a ≤ b := by
    simp only [Reading.le_def, Reading.ofSecond]
    omega
  by_cases h : a ≤ b
  · rw [Int.min_eq_left h]
    exact if_pos (hle.2 h)
  · rw [Int.min_eq_right (by omega)]
    exact if_neg (fun h' => h (hle.1 h'))

theorem isNext_of_shownFirst {r : Found Instant} (hz : p.zone.Regular)
    (h : p.ShownFirst t (p.zone.faceAt t.second + 1) (p.horizonFace years t) r)
    (hlow : ∀ v, p.MatchAfter t v → p.zone.faceAt t.second < p.zone.faceAt v) :
    p.IsNext years t r := by
  cases r with
  | found u =>
    obtain ⟨s, rfl, hs, -, hlast, -⟩ := id h
    exact ⟨s, rfl, hs, hlast, fun v hv => le_of_shownFirst_ahead hz h hv (hlow v hv)⟩
  | exhausted => exact fun v hv => h v hv (hlow v hv)
  | outOfRange => exact h

def Covers (p : Plan) (t : Instant) (lo : Int) : Prop :=
  ∀ v, p.MatchAfter t v → p.zone.faceAt t.second < p.zone.faceAt v ∨
    (lo ≤ p.zone.faceAt v ∧ p.zone.faceAt v ≤ p.zone.faceAt t.second)

section
variable {s' : Int}

theorem isNext_min (hz : p.zone.Regular) (hc : p.Covers t lo)
    (ha : p.ShownFirst t (p.zone.faceAt t.second + 1) (p.horizonFace years t) (.found (.ofSecond s)))
    (hb : p.ShownFirst t lo last (.found (.ofSecond s'))) (hlast : last ≤ p.horizonFace years t) :
    p.IsNext years t (.found (.ofSecond (min s s'))) := by
  obtain ⟨x, hx, hs, -, hsoon, -⟩ := id ha
  obtain ⟨x', hx', hs', -, hsoon', -⟩ := id hb
  obtain rfl : s = x := congrArg Reading.second hx
  obtain rfl : s' = x' := congrArg Reading.second hx'
  refine ⟨min s s', rfl, ?_, ?_, ?_⟩
  · rw [Int.min_def]
    split
    · exact hs
    · exact hs'
  · rw [Int.min_def]
    split <;> omega
  · intro v hv
    rcases hc v hv with hlt | ⟨hlo, hle⟩
    · have := le_of_shownFirst_ahead hz ha hv hlt
      omega
    · have := le_of_shownFirst_again hz hb hv hlo hle
      omega

theorem isNext_of_ahead (hz : p.zone.Regular) (hc : p.Covers t lo)
    (ha : p.ShownFirst t (p.zone.faceAt t.second + 1) (p.horizonFace years t) (.found u))
    (hb : p.ShownFirst t lo last .exhausted) (hlast : p.zone.faceAt t.second ≤ last) :
    p.IsNext years t (.found u) := by
  obtain ⟨s, rfl, hs, -, hsoon, -⟩ := id ha
  refine ⟨s, rfl, hs, hsoon, ?_⟩
  intro v hv
  rcases hc v hv with hlt | ⟨hlo, hle⟩
  · exact le_of_shownFirst_ahead hz ha hv hlt
  · have := hb v hv hlo
    omega

theorem isNext_of_again (hz : p.zone.Regular) (hc : p.Covers t lo)
    (ha : p.ShownFirst t (p.zone.faceAt t.second + 1) (p.horizonFace years t) .exhausted)
    (hb : p.ShownFirst t lo last (.found u)) (hlast : last + 172800 ≤ p.horizonFace years t) :
    p.IsNext years t (.found u) := by
  obtain ⟨s, rfl, hs, -, hsoon, -⟩ := id hb
  refine ⟨s, rfl, hs, by omega, ?_⟩
  intro v hv
  rcases hc v hv with hlt | ⟨hlo, hle⟩
  · -- a match beyond the horizon is days away from one in the repeated hour
    have hfar := ha v hv hlt
    exact Int.le_of_lt (Zone.lt_of_faceAt_add_le hz (by omega))
  · exact le_of_shownFirst_again hz hb hv hlo hle

theorem isNext_of_neither (hc : p.Covers t lo)
    (ha : p.ShownFirst t (p.zone.faceAt t.second + 1) (p.horizonFace years t) .exhausted)
    (hb : p.ShownFirst t lo last .exhausted) (hlast : p.zone.faceAt t.second ≤ last) :
    p.IsNext years t .exhausted := by
  intro v hv
  rcases hc v hv with hlt | ⟨hlo, hle⟩
  · exact ha v hv hlt
  · have := hb v hv hlo
    omega

end

theorem isNext_merge {a b : Found Instant} (hz : p.zone.Regular) (hc : p.Covers t lo)
    (ha : p.ShownFirst t (p.zone.faceAt t.second + 1) (p.horizonFace years t) a)
    (hb : p.ShownFirst t lo last b) (h₁ : p.zone.faceAt t.second ≤ last)
    (h₂ : last + 172800 ≤ p.horizonFace years t) : p.IsNext years t (a.merge min b) := by
  cases a with
  | outOfRange => exact ha.elim
  | found u =>
    cases b with
    | outOfRange => exact hb.elim
    | found u' =>
      obtain ⟨s, rfl, -⟩ := id ha
      obtain ⟨s', rfl, -⟩ := id hb
      rw [Found.merge, min_ofSecond]
      exact isNext_min hz hc ha hb (by omega)
    | exhausted => exact isNext_of_ahead hz hc ha hb h₁
  | exhausted =>
    cases b with
    | outOfRange => exact hb.elim
    | found u' => exact isNext_of_again hz hc ha hb h₂
    | exhausted => exact isNext_of_neither hc ha hb h₁

/-- After the leap second `t` the wall clock falls back by two seconds or more, the instant that shows
the time of `t` again has an earlier time of day on the common clock, and the first second of the
repeated hour matches. -/
def SkipsRepeat (p : Plan) (t : Instant) : Prop :=
  t.isLeap = true ∧ 2 ≤ p.zone.offsetAt t.second - p.zone.offsetAt (t.second + 1) ∧
    (t.second + (p.zone.offsetAt t.second - p.zone.offsetAt (t.second + 1))) % 86400 <
      t.second % 86400 ∧
    p.admits (p.zone.faceAt (t.second + 1)) = true

instance (p : Plan) (t : Instant) : Decidable (p.SkipsRepeat t) :=
  inferInstanceAs (Decidable (_ ∧ _))

theorem RoomAhead.second_add_le (hz : p.zone.Regular) (hr : p.RoomAhead years t) (hn : 1 ≤ years)
    (hn' : years ≤ 400) : t.second + 172800 ≤ latestSecond := by
  obtain ⟨h₁, -, h₃⟩ := hr.horizonFace_bounds hn hn'
  have ho := Zone.natAbs_offsetAt_lt hz t.second
  simp only [Zone.faceAt] at h₁
  omega

theorem next_isNext (hz : p.zone.Regular) (hr : p.RoomAhead years t) (hn : 1 ≤ years)
    (hn' : years ≤ 400) (hs : ¬ p.SkipsRepeat t) : p.IsNext years t (p.next years t) := by
  have ha := hr.shownFirst_ahead hz hn hn'
  have hroom := hr.second_add_le hz hn hn'
  obtain ⟨h₁, -, h₃⟩ := hr.horizonFace_bounds hn hn'
  by_cases htwice : ∃ t' : Instant, p.zone.instantsAt (p.zone.wallAt t) = [t, t']
  · obtain ⟨t', hp⟩ := htwice
    obtain ⟨hlt, hdays, hnano, hnano'⟩ := Zone.bounds_of_instantsAt_eq_cons hz hp
    have hb := hr.shownFirst_again hz hn hn' hp
    have hup := second_addSeconds_bounds (w := p.zone.wallAt t) hlt
    rw [Zone.second_wallAt] at hup
    rw [next_eq_of_twice hr.wall hp hlt]
    refine isNext_merge hz ?_ ha hb (by omega) (by omega)
    intro v hv
    refine (Int.lt_or_le _ _).imp_right fun hle => ⟨?_, hle⟩
    obtain ⟨t'', hp', hface⟩ := instantsAt_of_faceAt_le hz hr.instant hroom hv.1 hle
    obtain rfl : t' = t'' := by simpa using hp.symm.trans hp'
    rcases second_addSeconds_neg_le hnano hnano' hlt with hlo | ⟨hl, hd, hday⟩
    · rw [Zone.second_wallAt] at hlo
      have := hv.1
      omega
    · have hlo := second_addSeconds_neg_of_short hnano hnano' hl hd hday
      rw [Zone.second_wallAt] at hlo
      rcases Int.lt_or_le (t.second + 1) v with hlater | hnow
      · omega
      · obtain rfl : v = t.second + 1 := by have := hv.1; omega
        have hoff : p.zone.offsetAt t.second - p.zone.offsetAt (t.second + 1) =
            t'.second - t.second := by
          simp only [Zone.faceAt] at hface
          omega
        refine absurd ⟨hl, by omega, ?_, hv.2.2⟩ hs
        rw [hoff, Int.add_comm, Int.sub_add_cancel]
        exact hday
  · rw [next_eq_of_once hz hr.instant hr.wall (not_exists.1 htwice)]
    apply isNext_of_shownFirst hz ha
    intro v hv
    rcases Int.lt_or_le (p.zone.faceAt t.second) (p.zone.faceAt v) with hlt | hle
    · exact hlt
    · obtain ⟨t', hp, -⟩ := instantsAt_of_faceAt_le hz hr.instant hroom hv.1 hle
      exact absurd ⟨t', hp⟩ htwice

theorem merge_min_cases {a b : Found Instant} (ha : a ≠ .outOfRange) (hb : b ≠ .outOfRange) :
    a.merge min b = a ∨ a.merge min b = b := by
  cases a with
  | outOfRange => exact absurd rfl ha
  | exhausted => cases b <;> simp [Found.merge]
  | found u =>
    cases b with
    | outOfRange => exact absurd rfl hb
    | exhausted => exact .inl rfl
    | found u' =>
      by_cases h : u ≤ u'
      · exact .inl (congrArg Found.found (if_pos h))
      · exact .inr (congrArg Found.found (if_neg h))

theorem ShownFirst.ne_outOfRange {r : Found Instant} (h : p.ShownFirst t lo last r) :
    r ≠ .outOfRange := by
  intro he
  rw [he] at h
  exact h

theorem ShownFirst.ne_found {r : Found Instant} (h : p.ShownFirst t lo last r)
    (hs : p.zone.faceAt s < lo) : r ≠ .found (.ofSecond s) := by
  intro he
  rw [he] at h
  obtain ⟨s', he', -, hlo, -⟩ := h
  obtain rfl : s = s' := congrArg Reading.second he'
  omega

theorem SkipsRepeat.matchAfter (hz : p.zone.Regular) (hr : p.RoomAhead years t) (hn : 1 ≤ years)
    (hn' : years ≤ 400) (hs : p.SkipsRepeat t) :
    p.MatchAfter t (t.second + 1) ∧ p.zone.faceAt (t.second + 1) < p.zone.faceAt t.second := by
  have hroom := hr.second_add_le hz hn hn'
  refine ⟨⟨by omega, by omega, hs.2.2.2⟩, ?_⟩
  have := hs.2.1
  simp only [Zone.faceAt]
  omega

theorem exists_shownFirst_next (hz : p.zone.Regular) (hr : p.RoomAhead years t) (hn : 1 ≤ years)
    (hn' : years ≤ 400) : ∃ lo last, p.ShownFirst t lo last (p.next years t) := by
  have ha := hr.shownFirst_ahead hz hn hn'
  by_cases htwice : ∃ t' : Instant, p.zone.instantsAt (p.zone.wallAt t) = [t, t']
  · obtain ⟨t', hp⟩ := htwice
    have hb := hr.shownFirst_again hz hn hn' hp
    rw [next_eq_of_twice hr.wall hp (Zone.bounds_of_instantsAt_eq_cons hz hp).1]
    rcases merge_min_cases ha.ne_outOfRange hb.ne_outOfRange with he | he
    · rw [he]
      exact ⟨_, _, ha⟩
    · rw [he]
      exact ⟨_, _, hb⟩
  · rw [next_eq_of_once hz hr.instant hr.wall (not_exists.1 htwice)]
    exact ⟨_, _, ha⟩

theorem next_ne_outOfRange (hz : p.zone.Regular) (hr : p.RoomAhead years t) (hn : 1 ≤ years)
    (hn' : years ≤ 400) : p.next years t ≠ .outOfRange := by
  obtain ⟨lo, last, h⟩ := exists_shownFirst_next hz hr hn hn'
  exact h.ne_outOfRange

theorem next_of_skipsRepeat (hz : p.zone.Regular) (hr : p.RoomAhead years t) (hn : 1 ≤ years)
    (hn' : years ≤ 400) (hs : p.SkipsRepeat t) :
    p.next years t ≠ .found (.ofSecond (t.second + 1)) := by
  have hroom := hr.second_add_le hz hn hn'
  have hface := (hs.matchAfter hz hr hn hn').2
  obtain ⟨hleap, hd, hday, -⟩ := hs
  obtain ⟨t', hp, hpass⟩ :=
    instantsAt_of_faceAt_le hz hr.instant hroom (v := t.second + 1) (by omega) (by omega)
  obtain ⟨hlt, -, hnano, hnano'⟩ := Zone.bounds_of_instantsAt_eq_cons hz hp
  have hoff : p.zone.offsetAt t.second - p.zone.offsetAt (t.second + 1) =
      t'.second - t.second := by
    simp only [Zone.faceAt] at hpass
    omega
  rw [hoff] at hd
  rw [hoff, Int.add_comm, Int.sub_add_cancel] at hday
  have hlo := second_addSeconds_neg_of_short hnano hnano' hleap hd hday
  rw [Zone.second_wallAt] at hlo
  have ha := hr.shownFirst_ahead hz hn hn'
  have hb := hr.shownFirst_again hz hn hn' hp
  rw [next_eq_of_twice hr.wall hp hlt]
  rcases merge_min_cases ha.ne_outOfRange hb.ne_outOfRange with he | he
  · rw [he]
    exact ha.ne_found (by omega)
  · rw [he]
    exact hb.ne_found (by omega)

end Plan

end Timetable
