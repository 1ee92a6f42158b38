import Timetable.Proofs.Result
import Timetable.Proofs.Search.Again
import Timetable.Proofs.Search.Backward
import Timetable.Proofs.Search.Horizon

/-! The search back is the search ahead in reverse, and from a leap second too it looks at the whole hour. -/

namespace Timetable

open Calendar

namespace Plan

variable {p : Plan} {t u : Instant} {w s v first top : Int} {years : Nat}

theorem ofSecond_lt_iff : .ofSecond s < t ↔ s < secondFrom t := by
  simp only [Reading.lt_def, Reading.ofSecond, secondFrom]
  split <;> omega

theorem secondFrom_bounds {c : Clock} (r : Reading c) :
    r.second ≤ secondFrom r ∧ secondFrom r ≤ r.second + 1 := by
  simp only [secondFrom]
  split <;> omega

theorem secondFrom_wallAt {z : Zone} (t : Instant) :
    secondFrom (z.wallAt t) = z.faceAt t.second + (secondFrom t - t.second) := by
  simp only [secondFrom, Zone.second_wallAt, Zone.nano_wallAt]
  split <;> omega

def MatchBefore (p : Plan) (t : Instant) (s : Int) : Prop :=
  s < secondFrom t ∧ earliestSecond ≤ s ∧ p.admits (p.zone.faceAt s) = true

theorem inRange_of_lt_secondFrom (ht : t.InRange) (hs : s < secondFrom t)
    (hl : earliestSecond ≤ s) : (Reading.ofSecond s : Instant).InRange := by
  have hb := secondFrom_bounds t
  rw [Reading.inRange_iff] at *
  simp only [Reading.ofSecond]
  omega

theorem lastBefore_eq_none (hz : p.zone.Regular) (ht : t.InRange) (h : p.lastBefore t w = none)
    (hs : s < secondFrom t) (hl : earliestSecond ≤ s) : p.zone.faceAt s ≠ w := by
  intro hf
  have hm : Reading.ofSecond s ∈ p.zone.instantsAt (.ofSecond w) := by
    rw [Zone.mem_instantsAt_ofSecond_iff hz]
    exact ⟨inRange_of_lt_secondFrom ht hs hl, rfl, hf⟩
  rw [lastBefore, List.find?_eq_none] at h
  have := h _ (List.mem_reverse.2 hm)
  simp [ofSecond_lt_iff, hs] at this

theorem lastBefore_eq_some (hz : p.zone.Regular) (ht : t.InRange) (h : p.lastBefore t w = some u) :
    ∃ s, u = .ofSecond s ∧ s < secondFrom t ∧ earliestSecond ≤ s ∧ p.zone.faceAt s = w ∧
      ∀ v, v < secondFrom t → earliestSecond ≤ v → p.zone.faceAt v = w → v ≤ s := by
  have hm := List.mem_reverse.1 (List.mem_of_find?_eq_some h)
  obtain ⟨hin, hn, hf⟩ := (Zone.mem_instantsAt_ofSecond_iff hz).1 hm
  have hlt : u < t := by simpa using List.find?_some h
  rw [← Reading.ofSecond_second hn, ofSecond_lt_iff] at hlt
  rw [Reading.inRange_iff] at hin
  refine ⟨u.second, (Reading.ofSecond_second hn).symm, hlt, hin.1, hf, ?_⟩
  intro v hv hl hfv
  have hmv : Reading.ofSecond v ∈ p.zone.instantsAt (.ofSecond w) := by
    rw [Zone.mem_instantsAt_ofSecond_iff hz]
    exact ⟨inRange_of_lt_secondFrom ht hv hl, rfl, hfv⟩
  have hp := List.pairwise_reverse.2 (Zone.pairwise_instantsAt hz (.ofSecond w))
  rcases eq_or_rel_of_find?_eq_some hp h (List.mem_reverse.2 hmv)
    (by simp [ofSecond_lt_iff, hv]) with he | hr
  · rw [← he]
    exact Int.le_refl v
  · exact Int.le_of_lt hr

def ShownLast (p : Plan) (t : Instant) (first top : Int) : Found Instant → Prop
  | .found u => ∃ s, u = .ofSecond s ∧ p.MatchBefore t s ∧ first ≤ p.zone.faceAt s ∧
      p.zone.faceAt s ≤ top ∧ ∀ v, p.MatchBefore t v → p.zone.faceAt v ≤ top →
        p.zone.faceAt v ≤ p.zone.faceAt s ∧ (p.zone.faceAt v = p.zone.faceAt s → v ≤ s)
  | .exhausted => ∀ v, p.MatchBefore t v → p.zone.faceAt v ≤ top → p.zone.faceAt v < first
  | .outOfRange => False

theorem seekBackward_shownLast (hz : p.zone.Regular) (ht : t.InRange) (h₁ : top ≤ latestSecond)
    (h₂ : earliestSecond ≤ first)
    (hr : ∀ w, w < earliestSecond + 3600 → first ≤ w → w ≤ top ∧ p.lastBefore t w ≠ none) :
    p.ShownLast t first top (p.seekBackward (p.lastBefore t) first top) := by
  have ha : p.AnswersBackward (p.lastBefore t) first top _ := seekBackward_answers h₁ h₂
  cases hf : p.seekBackward (p.lastBefore t) first top with
  | found u =>
    rw [hf] at ha
    obtain ⟨w, hw₁, hw₂, hadm, hacc, hmax⟩ := ha
    obtain ⟨s, rfl, hs, hl, rfl, hgreatest⟩ := lastBefore_eq_some hz ht hacc
    refine ⟨s, rfl, ⟨hs, hl, hadm⟩, hw₁, hw₂, ?_⟩
    intro v hv htop
    refine ⟨?_, fun he => hgreatest v hv.1 hv.2.1 he⟩
    rcases Int.lt_or_le (p.zone.faceAt s) (p.zone.faceAt v) with hlt | hle
    · exact absurd rfl (lastBefore_eq_none hz ht (hmax _ hlt htop hv.2.2) hv.1 hv.2.1)
    · exact hle
  | exhausted =>
    rw [hf] at ha
    intro v hv htop
    rcases Int.lt_or_le (p.zone.faceAt v) first with hlt | hle
    · exact hlt
    · exact absurd rfl (lastBefore_eq_none hz ht (ha _ hle htop hv.2.2) hv.1 hv.2.1)
  | outOfRange =>
    rw [hf] at ha
    obtain ⟨w, hw₁, hw₂, hadm, hacc⟩ := ha
    obtain ⟨htop, hne⟩ := hr w hw₁ hw₂
    exact hne (hacc htop)

theorem le_of_shownLast_behind (hz : p.zone.Regular)
    (h : p.ShownLast t first (secondFrom (p.zone.wallAt t) - 1) (.found (.ofSecond s)))
    (hv : p.MatchBefore t v) (hf : p.zone.faceAt v < secondFrom (p.zone.wallAt t)) : v ≤ s := by
  obtain ⟨s', he, hs, -, htop, hmax⟩ := h
  obtain rfl : s = s' := congrArg Reading.second he
  obtain ⟨hle, heq⟩ := hmax v hv (by omega)
  have hb := secondFrom_bounds t
  rw [secondFrom_wallAt] at htop hmax
  rcases Int.lt_or_le s v with hlt | hge
  · -- a later match that shows a sooner time lies behind a set-back, which shows the time of `s` twice
    obtain ⟨x, d, hb, hx₁, hx₂, hd⟩ := Zone.fallsBack_of_faceAt_le hz hlt hle
    have hpos := hb.pos
    have hdays := hb.lt_twoDays hz
    have hlate : x ≤ s + d := by
      simp only [Zone.faceAt] at hle
      omega
    have hface := hb.faceAt_add hz hx₁ hlate
    have hbefore : s + d < secondFrom t := by
      rcases Int.lt_or_le (s + d) (secondFrom t) with hlt' | hge'
      · exact hlt'
      · have h₁ := hb.after t.second (by have := hv.1; omega) (by omega)
        have h₂ := hb.before s (by omega) hx₁
        simp only [Zone.faceAt] at htop
        omega
    have hmatch : p.MatchBefore t (s + d) := by
      refine ⟨hbefore, ?_, ?_⟩
      · have := hs.2.1
        omega
      · rw [hface]
        exact hs.2.2
    have := (hmax (s + d) hmatch (by omega)).2 hface
    omega
  · exact hge

theorem lt_of_secondFrom_le_faceAt (hv : p.MatchBefore t v)
    (hf : secondFrom (p.zone.wallAt t) ≤ p.zone.faceAt v) :
    v < t.second ∧ p.zone.faceAt t.second ≤ p.zone.faceAt v := by
  have hb := secondFrom_bounds t
  rw [secondFrom_wallAt] at hf
  have hlt := hv.1
  refine ⟨?_, by omega⟩
  rcases Int.lt_or_le v t.second with h | h
  · exact h
  · obtain rfl : v = t.second := by omega
    omega

theorem le_of_shownLast_again (hz : p.zone.Regular)
    (h : p.ShownLast t first top (.found (.ofSecond s))) (hv : p.MatchBefore t v)
    (htop : p.zone.faceAt v ≤ top) (hf : secondFrom (p.zone.wallAt t) ≤ p.zone.faceAt v) :
    v ≤ s := by
  obtain ⟨s', he, hs, -, -, hmax⟩ := h
  obtain rfl : s = s' := congrArg Reading.second he
  obtain ⟨hlt, hle⟩ := lt_of_secondFrom_le_faceAt hv hf
  rcases Int.lt_or_le s v with hlt' | hge
  · -- the clocks would be put back between `s` and `v`, and again between `v` and `t`
    exact (Zone.not_fallsBack_twice hz hlt' hlt (hmax v hv htop).1 hle).elim
  · exact hge

structure RoomBehind (p : Plan) (years : Nat) (t : Instant) : Prop where
  instant : t.InRange
  wall : (p.zone.wallAt t).InRange
  horizon : ((p.zone.wallAt t).addMonths? (-(12 * years))).isSome
  again : ∀ first second rest, p.zone.instantsAt (p.zone.wallAt t) = first :: second :: rest →
    ((p.zone.wallAt t).addSeconds? (second.secondsSince first)).isSome
  firstHour : ∀ w, w < earliestSecond + 3600 →
    secondFrom (horizonBefore years (p.zone.wallAt t)) ≤ w → p.zone.instantsAt (.ofSecond w) ≠ []

def horizonFaceBehind (p : Plan) (years : Nat) (t : Instant) : Int :=
  secondFrom (horizonBefore years (p.zone.wallAt t))

theorem RoomBehind.horizonFaceBehind_bounds (hr : p.RoomBehind years t) (hn : 1 ≤ years)
    (hn' : years ≤ 400) :
    p.horizonFaceBehind years t + 299 * 86400 ≤ p.zone.faceAt t.second ∧
      earliestSecond ≤ p.horizonFaceBehind years t := by
  obtain ⟨h, hh⟩ := Option.isSome_iff_exists.1 hr.horizon
  have hb := WallTime.bounds_of_subMonths?_years hn hn' hh
  rw [horizonFaceBehind, horizonBefore, hh, Option.getD_some, ← Zone.second_wallAt]
  simp only [secondFrom]
  split <;> omega

theorem roomBehind_of_far (hz : p.zone.Regular) (ht : t.InRange) (hn : 1 ≤ years)
    (hn' : years ≤ 400) (h₁ : p.zone.faceAt t.second + 172800 ≤ latestSecond)
    (h₂ : ((p.zone.wallAt t).addMonths? (-(12 * years))).isSome)
    (h₃ : earliestSecond + 3600 ≤ p.horizonFaceBehind years t) : p.RoomBehind years t := by
  obtain ⟨h, hh⟩ := Option.isSome_iff_exists.1 h₂
  have hb := WallTime.bounds_of_subMonths?_years hn hn' hh
  rw [← Zone.second_wallAt] at h₁
  refine ⟨ht, ?_, h₂, ?_, ?_⟩
  · rw [Reading.inRange_iff]
    omega
  · intro first second rest hp
    obtain ⟨hlt, hd, -, -⟩ := Zone.bounds_of_instantsAt_eq_cons hz hp
    have hup := second_addSeconds_bounds (w := p.zone.wallAt t) hlt
    rw [Reading.addSeconds?_eq_some_iff.2 ⟨(Reading.inRange_iff _).2 ⟨by omega, by omega⟩, rfl⟩]
    rfl
  · intro w hw₁ hw₂
    rw [horizonFaceBehind] at h₃
    omega

theorem RoomBehind.shownLast_behind (hz : p.zone.Regular) (hr : p.RoomBehind years t)
    (hn : 1 ≤ years) (hn' : years ≤ 400) :
    p.ShownLast t (p.horizonFaceBehind years t) (secondFrom (p.zone.wallAt t) - 1)
      (p.seekBefore years t (p.zone.wallAt t)) := by
  obtain ⟨h₁, h₂⟩ := hr.horizonFaceBehind_bounds hn hn'
  have hw := (Reading.inRange_iff _).1 hr.wall
  have hb := secondFrom_bounds t
  have he := secondFrom_wallAt (z := p.zone) t
  rw [Zone.second_wallAt] at hw
  rw [seekBefore, if_pos (by omega)]
  refine seekBackward_shownLast hz hr.instant (by omega) h₂ ?_
  intro w hw₁ hw₂
  refine ⟨by omega, ?_⟩
  intro hnone
  obtain ⟨u, hu⟩ := List.exists_mem_of_ne_nil _ (hr.firstHour w hw₁ hw₂)
  obtain ⟨hin, -, hf⟩ := (Zone.mem_instantsAt_ofSecond_iff hz).1 hu
  have hl := ((Reading.inRange_iff _).1 hin).1
  have hlt : u.second < t.second := Zone.lt_of_faceAt_add_le hz (by
    rw [hf]
    omega)
  exact lastBefore_eq_none hz hr.instant hnone (by omega) hl hf

theorem RoomBehind.shownLast_again (hz : p.zone.Regular) (hr : p.RoomBehind years t)
    (hn : 1 ≤ years) (hn' : years ≤ 400) {t' : Instant}
    (hp : p.zone.instantsAt (p.zone.wallAt t) = [t', t]) :
    p.ShownLast t (secondFrom ((p.zone.wallAt t).addSeconds (-(t.secondsSince t'))))
      ((p.zone.wallAt t).addSeconds (t.secondsSince t')).second
      (p.seekAgainBackward t (p.zone.wallAt t) (t.secondsSince t')) := by
  obtain ⟨h₁, h₂⟩ := hr.horizonFaceBehind_bounds hn hn'
  obtain ⟨hlt, hd, -, -⟩ := Zone.bounds_of_instantsAt_eq_cons hz hp
  obtain ⟨hlast, hin⟩ := Reading.addSeconds?_of_isSome (hr.again _ _ _ hp)
  have hlow := le_second_addSeconds_neg (p.zone.wallAt t) t' t
  have hup := second_addSeconds_bounds (w := p.zone.wallAt t) hlt
  have hin' := (Reading.inRange_iff _).1 hin
  have hs := t'.secondsSince_bounds t
  have hback := Reading.second_addSeconds (p.zone.wallAt t) (-(t.secondsSince t'))
  have hround := secondFrom_bounds ((p.zone.wallAt t).addSeconds (-(t.secondsSince t')))
  rw [Zone.second_wallAt] at hlow hup hback
  have hrange : ((p.zone.wallAt t).addSeconds (-(t.secondsSince t'))).InRange := by
    rw [Reading.inRange_iff]
    refine ⟨by omega, ?_⟩
    rw [hback]
    split <;> omega
  rw [seekAgainBackward, Reading.addSeconds?_eq_some_iff.2 ⟨hrange, rfl⟩, hlast]
  apply seekBackward_shownLast hz hr.instant hin'.2 (by omega)
  intro w hw₁ hw₂
  omega

theorem instantsAt_of_le_faceAt (hz : p.zone.Regular) (ht : t.InRange)
    (hroom : earliestSecond + 172800 ≤ t.second) (hv : v < t.second)
    (hf : p.zone.faceAt t.second ≤ p.zone.faceAt v) :
    ∃ t' : Instant, p.zone.instantsAt (p.zone.wallAt t) = [t', t] ∧
      p.zone.faceAt v = p.zone.faceAt t.second + (v - t'.second) := by
  obtain ⟨x, d, hb, hx₁, hx₂, hd⟩ := Zone.fallsBack_of_faceAt_le hz hv hf
  have hpos := hb.pos
  have hdays := hb.lt_twoDays hz
  have hsoon : t.second - d < x := by
    simp only [Zone.faceAt] at hf
    omega
  have hface := hb.faceAt_sub hz hx₂ hsoon
  rw [Reading.inRange_iff] at ht
  refine ⟨⟨t.second - d, t.nano, t.nano_lt⟩, ?_, ?_⟩
  · refine Zone.instantsAt_eq_pair hz ?_ ((Reading.inRange_iff _).2 ht) ?_ rfl (by simp only; omega)
    · rw [Reading.inRange_iff]
      exact ⟨by simp only; omega, by simp only; omega⟩
    · rw [Reading.eq_iff]
      exact ⟨hface, rfl⟩
  · simp only [Zone.faceAt]
    omega

theorem prev_eq_prevFrom (hw : (p.zone.wallAt t).InRange) :
    p.prev years t = p.prevFrom years t (p.zone.wallAt t) := by
  have hwall : p.zone.wallAt? t = some (p.zone.wallAt t) := if_pos hw
  rw [prev, hwall]

theorem prev_eq_of_twice {t' : Instant} (hw : (p.zone.wallAt t).InRange)
    (hp : p.zone.instantsAt (p.zone.wallAt t) = [t', t]) (hlt : t'.second < t.second) :
    p.prev years t = (p.seekBefore years t (p.zone.wallAt t)).merge max
      (p.seekAgainBackward t (p.zone.wallAt t) (t.secondsSince t')) := by
  simp only [prev_eq_prevFrom hw, prevFrom, hp]
  rw [if_pos (.inl hlt)]

theorem prev_eq_of_once (hz : p.zone.Regular) (ht : t.InRange) (hw : (p.zone.wallAt t).InRange)
    (h : ∀ t', p.zone.instantsAt (p.zone.wallAt t) ≠ [t', t]) :
    p.prev years t = p.seekBefore years t (p.zone.wallAt t) := by
  simp only [prev_eq_prevFrom hw, prevFrom]
  split
  · next first second rest hp =>
    split
    · next hlt =>
      have hm : first ∈ p.zone.instantsAt (p.zone.wallAt t) := by simp [hp]
      obtain ⟨hin, hw⟩ := (Zone.mem_instantsAt_iff hz).1 hm
      have hn : first.nano = t.nano := by rw [← Zone.nano_wallAt (z := p.zone), hw]; rfl
      simp only [Reading.lt_def] at hlt
      exact absurd (Zone.instantsAt_eq_pair hz hin ht hw rfl (by omega)) (h first)
    · rfl
  · rfl

def IsPrev (p : Plan) (years : Nat) (t : Instant) : Found Instant → Prop
  | .found u => ∃ s, u = .ofSecond s ∧ p.MatchBefore t s ∧
      p.horizonFaceBehind years t ≤ p.zone.faceAt s ∧ ∀ v, p.MatchBefore t v → v ≤ s
  | .exhausted => ∀ v, p.MatchBefore t v → p.zone.faceAt v < p.horizonFaceBehind years t
  | .outOfRange => False

theorem max_ofSecond (a b : Int) :
    max (.ofSecond a : Instant) (.ofSecond b) = .ofSecond (max a b) := by
  have hle : (.ofSecond a : Instant) ≤ .ofSecond b ↔ a ≤ b := by
    simp only [Reading.le_def, Reading.ofSecond]
    omega
  by_cases h : a ≤ b
  · rw [Int.max_eq_right h]
    exact if_pos (hle.2 h)
  · rw [Int.max_eq_left (by omega)]
    exact if_neg (fun h' => h (hle.1 h'))

theorem isPrev_of_shownLast {r : Found Instant} (hz : p.zone.Regular)
    (h : p.ShownLast t (p.horizonFaceBehind years t) (secondFrom (p.zone.wallAt t) - 1) r)
    (hhigh : ∀ v, p.MatchBefore t v → p.zone.faceAt v < secondFrom (p.zone.wallAt t)) :
    p.IsPrev years t r := by
  cases r with
  | found u =>
    obtain ⟨s, rfl, hs, hfirst, -, -⟩ := id h
    exact ⟨s, rfl, hs, hfirst, fun v hv => le_of_shownLast_behind hz h hv (hhigh v hv)⟩
  | exhausted =>
    intro v hv
    have := hhigh v hv
    exact h v hv (by omega)
  | outOfRange => exact h

def CoversBehind (p : Plan) (t : Instant) (top : Int) : Prop :=
  ∀ v, p.MatchBefore t v → p.zone.faceAt v < secondFrom (p.zone.wallAt t) ∨
    (p.zone.faceAt v ≤ top ∧ secondFrom (p.zone.wallAt t) ≤ p.zone.faceAt v)

section
variable {s' : Int}

theorem isPrev_max (hz : p.zone.Regular) (hc : p.CoversBehind t top)
    (ha : p.ShownLast t (p.horizonFaceBehind years t) (secondFrom (p.zone.wallAt t) - 1)
      (.found (.ofSecond s)))
    (hb : p.ShownLast t first top (.found (.ofSecond s'))) (hfirst : p.horizonFaceBehind years t ≤ first) :
    p.IsPrev years t (.found (.ofSecond (max s s'))) := by
  obtain ⟨x, hx, hs, hlate, -, -⟩ := id ha
  obtain ⟨x', hx', hs', hlate', -, -⟩ := id hb
  obtain rfl : s = x := congrArg Reading.second hx
  obtain rfl : s' = x' := congrArg Reading.second hx'
  refine ⟨max s s', rfl, ?_, ?_, ?_⟩
  · rw [Int.max_def]
    split
    · exact hs'
    · exact hs
  · rw [Int.max_def]
    split <;> omega
  · intro v hv
    rcases hc v hv with hlt | ⟨hle, hge⟩
    · have := le_of_shownLast_behind hz ha hv hlt
      omega
    · have := le_of_shownLast_again hz hb hv hle hge
      omega

theorem isPrev_of_behind (hz : p.zone.Regular) (hc : p.CoversBehind t top)
    (ha : p.ShownLast t (p.horizonFaceBehind years t) (secondFrom (p.zone.wallAt t) - 1) (.found u))
    (hb : p.ShownLast t first top .exhausted) (hfirst : first ≤ secondFrom (p.zone.wallAt t)) :
    p.IsPrev years t (.found u) := by
  obtain ⟨s, rfl, hs, hlate, -, -⟩ := id ha
  refine ⟨s, rfl, hs, hlate, ?_⟩
  intro v hv
  rcases hc v hv with hlt | ⟨hle, hge⟩
  · exact le_of_shownLast_behind hz ha hv hlt
  · have := hb v hv hle
    omega

theorem isPrev_of_again (hz : p.zone.Regular) (hc : p.CoversBehind t top)
    (ha : p.ShownLast t (p.horizonFaceBehind years t) (secondFrom (p.zone.wallAt t) - 1) .exhausted)
    (hb : p.ShownLast t first top (.found u)) (hfirst : p.horizonFaceBehind years t + 172800 ≤ first) :
    p.IsPrev years t (.found u) := by
  obtain ⟨s, rfl, hs, hlate, -, -⟩ := id hb
  refine ⟨s, rfl, hs, by omega, ?_⟩
  intro v hv
  rcases hc v hv with hlt | ⟨hle, hge⟩
  · -- a match beyond the horizon is days away from one in the repeated hour
    have hfar := ha v hv (by omega)
    exact Int.le_of_lt (Zone.lt_of_faceAt_add_le hz (by omega))
  · exact le_of_shownLast_again hz hb hv hle hge

theorem isPrev_of_neither (hc : p.CoversBehind t top)
    (ha : p.ShownLast t (p.horizonFaceBehind years t) (secondFrom (p.zone.wallAt t) - 1) .exhausted)
    (hb : p.ShownLast t first top .exhausted) (hfirst : first ≤ secondFrom (p.zone.wallAt t)) :
    p.IsPrev years t .exhausted := by
  intro v hv
  rcases hc v hv with hlt | ⟨hle, hge⟩
  · exact ha v hv (by omega)
  · have := hb v hv hle
    omega

end

theorem isPrev_merge {a b : Found Instant} (hz : p.zone.Regular) (hc : p.CoversBehind t top)
    (ha : p.ShownLast t (p.horizonFaceBehind years t) (secondFrom (p.zone.wallAt t) - 1) a)
    (hb : p.ShownLast t first top b) (h₁ : first ≤ secondFrom (p.zone.wallAt t))
    (h₂ : p.horizonFaceBehind years t + 172800 ≤ first) : p.IsPrev years t (a.merge max b) := by
  cases a with
  | outOfRange => exact ha.elim
  | found u =>
    cases b with
    | outOfRange => exact hb.elim
    | found u' =>
      obtain ⟨s, rfl, -⟩ := id ha
      obtain ⟨s', rfl, -⟩ := id hb
      rw [Found.merge, max_ofSecond]
      exact isPrev_max hz hc ha hb (by omega)
    | exhausted => exact isPrev_of_behind hz hc ha hb h₁
  | exhausted =>
    cases b with
    | outOfRange => exact hb.elim
    | found u' => exact isPrev_of_again hz hc ha hb h₂
    | exhausted => exact isPrev_of_neither hc ha hb h₁

theorem RoomBehind.le_second (hz : p.zone.Regular) (hr : p.RoomBehind years t) (hn : 1 ≤ years)
    (hn' : years ≤ 400) : earliestSecond + 172800 ≤ t.second := by
  obtain ⟨h₁, h₂⟩ := hr.horizonFaceBehind_bounds hn hn'
  have ho := Zone.natAbs_offsetAt_lt hz t.second
  simp only [Zone.faceAt] at h₁
  omega

theorem prev_isPrev (hz : p.zone.Regular) (hr : p.RoomBehind years t) (hn : 1 ≤ years)
    (hn' : years ≤ 400) : p.IsPrev years t (p.prev years t) := by
  have ha := hr.shownLast_behind hz hn hn'
  have hroom := hr.le_second hz hn hn'
  obtain ⟨h₁, h₂⟩ := hr.horizonFaceBehind_bounds hn hn'
  by_cases htwice : ∃ t' : Instant, p.zone.instantsAt (p.zone.wallAt t) = [t', t]
  · obtain ⟨t', hp⟩ := htwice
    obtain ⟨hlt, hdays, -, -⟩ := Zone.bounds_of_instantsAt_eq_cons hz hp
    have hb := hr.shownLast_again hz hn hn' hp
    have hs := t'.secondsSince_bounds t
    have hup := second_addSeconds_bounds (w := p.zone.wallAt t) hlt
    have hlow := le_second_addSeconds_neg (p.zone.wallAt t) t' t
    have hround := secondFrom_bounds ((p.zone.wallAt t).addSeconds (-(t.secondsSince t')))
    rw [Zone.second_wallAt] at hup hlow
    rw [prev_eq_of_twice hr.wall hp hlt]
    refine isPrev_merge hz ?_ ha hb (secondFrom_addSeconds_neg_le (by omega)) (by omega)
    intro v hv
    refine (Int.lt_or_le _ _).imp_right fun hge => ⟨?_, hge⟩
    obtain ⟨hvt, hle⟩ := lt_of_secondFrom_le_faceAt hv hge
    obtain ⟨t'', hp', hface⟩ := instantsAt_of_le_faceAt hz hr.instant hroom hvt hle
    obtain rfl : t' = t'' := by simpa using hp.symm.trans hp'
    omega
  · rw [prev_eq_of_once hz hr.instant hr.wall (not_exists.1 htwice)]
    apply isPrev_of_shownLast hz ha
    intro v hv
    rcases Int.lt_or_le (p.zone.faceAt v) (secondFrom (p.zone.wallAt t)) with hlt | hge
    · exact hlt
    · obtain ⟨hvt, hle⟩ := lt_of_secondFrom_le_faceAt hv hge
      obtain ⟨t', hp, -⟩ := instantsAt_of_le_faceAt hz hr.instant hroom hvt hle
      exact absurd ⟨t', hp⟩ htwice

end Plan

end Timetable
