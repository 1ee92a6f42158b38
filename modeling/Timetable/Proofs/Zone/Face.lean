import Timetable.Zone.Basic

/-! In a regular zone the face of the clock falls back only across a single transition. -/

namespace Timetable.Zone

open Calendar

def faceAt (z : Zone) (u : Int) : Int := u + z.offsetAt u

variable {z : Zone}

theorem second_wallAt (t : Instant) : (z.wallAt t).second = z.faceAt t.second := rfl

theorem nano_wallAt (t : Instant) : (z.wallAt t).nano = t.nano := rfl

theorem faceAt_utc (u : Int) : utc.faceAt u = u := Int.add_zero u

theorem date_wallAt_utc (t : Instant) : (utc.wallAt t).date = t.date :=
  congrArg dateOf (faceAt_utc t.second)

theorem inRange_wallAt_utc {t : Instant} (ht : t.InRange) : (utc.wallAt t).InRange := by
  rwa [Reading.InRange, date_wallAt_utc]

theorem exists_transition_of_offsetAfter_ne {o u v : Int} {xs : List Transition} (huv : u ≤ v)
    (h : offsetAfter o u xs ≠ offsetAfter o v xs) : ∃ x ∈ xs, u < x.second ∧ x.second ≤ v := by
  induction xs generalizing o with
  | nil => exact absurd rfl h
  | cons x xs ih =>
    by_cases hu : u < x.second
    · by_cases hv : v < x.second
      · simp [offsetAfter, hu, hv] at h
      · exact ⟨x, by simp, hu, by omega⟩
    · have hv : ¬ v < x.second := by omega
      simp only [offsetAfter, if_neg hu, if_neg hv] at h
      obtain ⟨y, hy, hlt⟩ := ih h
      exact ⟨y, by simp [hy], hlt⟩

theorem apart_of_pairwise {g : Int} {xs : List Transition} {x y : Transition} (hg : 0 ≤ g)
    (h : xs.Pairwise fun x y => x.second + g < y.second) (hx : x ∈ xs) (hy : y ∈ xs)
    (hlt : x.second < y.second) : x.second + g < y.second := by
  induction xs with
  | nil => simp at hx
  | cons a xs ih =>
    rw [List.pairwise_cons] at h
    rcases List.mem_cons.1 hx with rfl | hx'
    · rcases List.mem_cons.1 hy with rfl | hy'
      · omega
      · exact h.1 y hy'
    · rcases List.mem_cons.1 hy with rfl | hy'
      · have := h.1 x hx'
        omega
      · exact ih h.2 hx' hy'

theorem natAbs_offsetAfter_lt {o : Int} {xs : List Transition} (ho : o.natAbs < 86400)
    (h : ∀ x ∈ xs, x.offset.natAbs < 86400) (u : Int) : (offsetAfter o u xs).natAbs < 86400 := by
  induction xs generalizing o with
  | nil => exact ho
  | cons x xs ih =>
    simp only [offsetAfter]
    split
    · exact ho
    · exact ih (h x (by simp)) fun y hy => h y (by simp [hy])

theorem natAbs_offsetAt_lt (hz : z.Regular) (u : Int) : (z.offsetAt u).natAbs < 86400 :=
  natAbs_offsetAfter_lt hz.1 hz.2.1 u

/-- At second `s` the wall clocks are put back by `d` seconds, and no other change is near. -/
structure FallsBack (z : Zone) (s d : Int) : Prop where
  pos : 0 < d
  before : ∀ u, s - 172800 ≤ u → u < s → z.offsetAt u = z.offsetAt s + d
  after : ∀ u, s ≤ u → u ≤ s + 172800 → z.offsetAt u = z.offsetAt s

theorem offsetAt_eq_near (hz : z.Regular) {x : Transition} (hx : x ∈ z.transitions) {u v : Int}
    (huv : u ≤ v) (h : (x.second ≤ u ∧ v ≤ x.second + 172800) ∨
      (x.second - 172800 ≤ u ∧ v < x.second)) : z.offsetAt u = z.offsetAt v := by
  by_cases he : z.offsetAt u = z.offsetAt v
  · exact he
  · obtain ⟨y, hy, hu, hv⟩ := exists_transition_of_offsetAfter_ne huv he
    rcases h with h | h
    · have := apart_of_pairwise (by decide) hz.2.2 hx hy (by omega)
      omega
    · have := apart_of_pairwise (by decide) hz.2.2 hy hx (by omega)
      omega

theorem fallsBack_of_faceAt_le (hz : z.Regular) {u v : Int} (huv : u < v)
    (h : z.faceAt v ≤ z.faceAt u) :
    ∃ s d, z.FallsBack s d ∧ u < s ∧ s ≤ v ∧ z.offsetAt u = z.offsetAt v + d := by
  simp only [faceAt] at h
  have hu := natAbs_offsetAt_lt hz u
  have hv := natAbs_offsetAt_lt hz v
  have hne : z.offsetAt u ≠ z.offsetAt v := by
    intro he
    omega
  obtain ⟨x, hx, hxu, hxv⟩ := exists_transition_of_offsetAfter_ne (Int.le_of_lt huv) hne
  have hs : z.offsetAt x.second = z.offsetAt v := offsetAt_eq_near hz hx hxv (.inl ⟨by omega, by omega⟩)
  refine ⟨x.second, z.offsetAt u - z.offsetAt v, ⟨by omega, ?_, ?_⟩, hxu, hxv, by omega⟩
  · intro w h₁ h₂
    have hw : z.offsetAt w = z.offsetAt u := by
      rcases Int.le_total w u with hwu | hwu
      · exact offsetAt_eq_near hz hx hwu (.inr ⟨by omega, by omega⟩)
      · exact (offsetAt_eq_near hz hx hwu (.inr ⟨by omega, by omega⟩)).symm
    omega
  · intro w h₁ h₂
    exact (offsetAt_eq_near hz hx h₁ (.inl ⟨by omega, by omega⟩)).symm

theorem lt_of_faceAt_add_le (hz : z.Regular) {u v : Int}
    (h : z.faceAt u + 172800 ≤ z.faceAt v) : u < v := by
  have hu := natAbs_offsetAt_lt hz u
  have hv := natAbs_offsetAt_lt hz v
  simp only [faceAt] at h
  omega

namespace FallsBack
variable {s d : Int}

theorem lt_twoDays (hz : z.Regular) (h : z.FallsBack s d) : d < 172800 := by
  have h₁ := natAbs_offsetAt_lt hz s
  have h₂ := natAbs_offsetAt_lt hz (s - 1)
  have h₃ := h.before (s - 1) (by omega) (by omega)
  omega

end FallsBack

theorem FallsBack.faceAt_add (hz : z.Regular) {s d u : Int} (h : z.FallsBack s d) (hu : u < s)
    (hs : s ≤ u + d) : z.faceAt (u + d) = z.faceAt u := by
  have hd := h.lt_twoDays hz
  have h₁ := h.before u (by omega) hu
  have h₂ := h.after (u + d) hs (by omega)
  simp only [faceAt]
  omega

theorem FallsBack.faceAt_sub (hz : z.Regular) {s d v : Int} (h : z.FallsBack s d) (hv : s ≤ v)
    (hs : v - d < s) : z.faceAt (v - d) = z.faceAt v := by
  have he := h.faceAt_add hz hs (by omega)
  rw [Int.sub_add_cancel] at he
  exact he.symm

theorem not_fallsBack_twice (hz : z.Regular) {u v w : Int} (huv : u < v) (hvw : v < w)
    (h₁ : z.faceAt v ≤ z.faceAt u) (h₂ : z.faceAt w ≤ z.faceAt v) : False := by
  obtain ⟨s, d, hb, hs₁, hs₂, hd⟩ := fallsBack_of_faceAt_le hz huv h₁
  obtain ⟨s', d', hb', hs₁', hs₂', hd'⟩ := fallsBack_of_faceAt_le hz hvw h₂
  have hu := natAbs_offsetAt_lt hz u
  have hw := natAbs_offsetAt_lt hz w
  have hpos := hb'.pos
  have := hb.after w (by omega) (by simp only [faceAt] at *; omega)
  have := hb.after v hs₂ (by simp only [faceAt] at *; omega)
  omega

theorem mem_offsetsAfter_decide {s o w r : Int} {xs : List Transition}
    (hs : ∀ x ∈ xs, s < x.second) (hp : xs.Pairwise fun x y => x.second < y.second) :
    r ∈ offsetsAfter (decide (s + o ≤ w)) o w xs ↔ s ≤ w - r ∧ offsetAfter o (w - r) xs = r := by
  induction xs generalizing s o with
  | nil =>
    simp only [offsetsAfter, offsetAfter, decide_eq_true_eq]
    split
    · simp only [List.mem_singleton]
      omega
    · simp only [List.not_mem_nil, false_iff]
      omega
  | cons x xs ih =>
    rw [List.pairwise_cons] at hp
    have hx := hs x (by simp)
    have ih := ih (s := x.second) (o := x.offset) hp.1 hp.2
    simp only [offsetsAfter, offsetAfter, Bool.and_eq_true, decide_eq_true_eq]
    by_cases hr : w - r < x.second
    · rw [if_pos hr]
      split
      · rw [List.mem_cons, ih]
        omega
      · rw [ih]
        omega
    · rw [if_neg hr]
      split
      · rw [List.mem_cons, ih]
        omega
      · rw [ih]
        omega

theorem mem_offsetsAfter_true {o w r : Int} {xs : List Transition}
    (hp : xs.Pairwise fun x y => x.second < y.second) :
    r ∈ offsetsAfter true o w xs ↔ offsetAfter o (w - r) xs = r := by
  cases xs with
  | nil =>
    simp only [offsetsAfter, offsetAfter, if_true, List.mem_singleton]
    omega
  | cons x xs =>
    rw [List.pairwise_cons] at hp
    have hm := mem_offsetsAfter_decide (s := x.second) (o := x.offset) (w := w) (r := r) hp.1 hp.2
    simp only [offsetsAfter, offsetAfter, Bool.true_and, decide_eq_true_eq]
    by_cases hr : w - r < x.second
    · rw [if_pos hr]
      split
      · rw [List.mem_cons, hm]
        omega
      · rw [hm]
        omega
    · rw [if_neg hr]
      split
      · rw [List.mem_cons, hm]
        omega
      · rw [hm]
        omega

theorem pairwise_offsetsAfter {b : Bool} {o w : Int} {xs : List Transition}
    (hp : xs.Pairwise fun x y => x.second < y.second) :
    (offsetsAfter b o w xs).Pairwise fun r r' => w - r < w - r' := by
  induction xs generalizing b o with
  | nil =>
    simp only [offsetsAfter]
    split <;> simp
  | cons x xs ih =>
    rw [List.pairwise_cons] at hp
    simp only [offsetsAfter, Bool.and_eq_true, decide_eq_true_eq]
    split
    · next h =>
      refine List.pairwise_cons.2 ⟨?_, ih hp.2⟩
      intro r hr
      rw [mem_offsetsAfter_decide hp.1 hp.2] at hr
      omega
    · exact ih hp.2

theorem Regular.pairwise (hz : z.Regular) :
    z.transitions.Pairwise fun x y => x.second < y.second :=
  hz.2.2.imp fun h => by omega

/-- The transitions come in the order of their times; nothing is said of how far apart they are. -/
def InOrder (z : Zone) : Prop :=
  z.before.natAbs < 86400 ∧ (∀ x ∈ z.transitions, x.offset.natAbs < 86400) ∧
    z.transitions.Pairwise fun x y => x.second < y.second

instance (z : Zone) : Decidable z.InOrder := inferInstanceAs (Decidable (_ ∧ _))

theorem Regular.inOrder (hz : z.Regular) : z.InOrder := ⟨hz.1, hz.2.1, hz.pairwise⟩

theorem InOrder.natAbs_offsetAt_lt (hz : z.InOrder) (u : Int) : (z.offsetAt u).natAbs < 86400 :=
  natAbs_offsetAfter_lt hz.1 hz.2.1 u

theorem InOrder.mem_offsetsAt_iff (hz : z.InOrder) {w r : Int} :
    r ∈ z.offsetsAt w ↔ z.offsetAt (w - r) = r :=
  mem_offsetsAfter_true hz.2.2

theorem mem_offsetsAt_iff (hz : z.Regular) {w r : Int} :
    r ∈ z.offsetsAt w ↔ z.offsetAt (w - r) = r :=
  hz.inOrder.mem_offsetsAt_iff

theorem instantUnder_wallAt (z : Zone) (t : Instant) :
    instantUnder (z.offsetAt t.second) (z.wallAt t) = t := by
  simp only [instantUnder, wallAt, Reading.eq_iff, and_true]
  omega

theorem InOrder.offsetAt_mem_offsetsAt (hz : z.InOrder) (t : Instant) :
    z.offsetAt t.second ∈ z.offsetsAt (z.wallAt t).second := by
  rw [hz.mem_offsetsAt_iff, second_wallAt, faceAt, Int.add_sub_cancel]

theorem offsetAt_mem_offsetsAt (hz : z.Regular) (t : Instant) :
    z.offsetAt t.second ∈ z.offsetsAt (z.wallAt t).second :=
  hz.inOrder.offsetAt_mem_offsetsAt t

theorem InOrder.bounds_of_faceAt_eq (hz : z.InOrder) {u v : Int} (huv : u < v)
    (h : z.faceAt u = z.faceAt v) : earliestSecond ≤ u ∧ v ≤ latestSecond := by
  have hu := hz.natAbs_offsetAt_lt u
  have hv := hz.natAbs_offsetAt_lt v
  simp only [faceAt] at h
  have hne : z.offsetAt u ≠ z.offsetAt v := by
    intro he
    omega
  obtain ⟨x, hx, hux, hxv⟩ := exists_transition_of_offsetAfter_ne (Int.le_of_lt huv) hne
  have hx := z.inside x hx
  omega

theorem InOrder.inRange_of_wallAt_eq (hz : z.InOrder) {t t' : Instant} (ht : t.InRange)
    (h : z.wallAt t = z.wallAt t') : t'.InRange := by
  have hface : z.faceAt t.second = z.faceAt t'.second := congrArg Reading.second h
  rw [Reading.inRange_iff] at ht ⊢
  rcases Int.lt_trichotomy t.second t'.second with hlt | heq | hlt
  · have := (hz.bounds_of_faceAt_eq hlt hface).2
    omega
  · rwa [← heq]
  · have := (hz.bounds_of_faceAt_eq hlt hface.symm).1
    omega

theorem InOrder.wallAt_instantUnder (hz : z.InOrder) {w : WallTime} {r : Int}
    (hr : r ∈ z.offsetsAt w.second) : z.wallAt (instantUnder r w) = w := by
  rw [hz.mem_offsetsAt_iff] at hr
  simp only [wallAt, instantUnder, hr, Reading.eq_iff, and_true]
  omega

theorem of_mem_instantsAt {w : WallTime} {t : Instant} (h : t ∈ z.instantsAt w) :
    t.InRange ∧ ∃ r ∈ z.offsetsAt w.second, instantUnder r w = t := by
  simp only [instantsAt] at h
  split at h
  · next hall => exact ⟨hall t h, List.mem_map.1 h⟩
  · cases h

theorem InOrder.mem_instantsAt_iff (hz : z.InOrder) {w : WallTime} {t : Instant} :
    t ∈ z.instantsAt w ↔ t.InRange ∧ z.wallAt t = w := by
  constructor
  · intro ht
    obtain ⟨hin, r, hr, rfl⟩ := of_mem_instantsAt ht
    exact ⟨hin, hz.wallAt_instantUnder hr⟩
  · rintro ⟨ht, rfl⟩
    simp only [instantsAt]
    rw [if_pos]
    · exact List.mem_map.2 ⟨_, hz.offsetAt_mem_offsetsAt t, instantUnder_wallAt z t⟩
    · intro t' ht'
      obtain ⟨r, hr, rfl⟩ := List.mem_map.1 ht'
      exact hz.inRange_of_wallAt_eq ht (hz.wallAt_instantUnder hr).symm

theorem mem_instantsAt_iff (hz : z.Regular) {w : WallTime} {t : Instant} :
    t ∈ z.instantsAt w ↔ t.InRange ∧ z.wallAt t = w :=
  hz.inOrder.mem_instantsAt_iff

theorem mem_instantsAt_ofSecond_iff (hz : z.Regular) {s : Int} {t : Instant} :
    t ∈ z.instantsAt (.ofSecond s) ↔ t.InRange ∧ t.nano = 0 ∧ z.faceAt t.second = s := by
  rw [mem_instantsAt_iff hz, Reading.eq_iff, second_wallAt, nano_wallAt]
  exact and_congr_right' And.comm

theorem pairwise_instantsAt (hz : z.Regular) (w : WallTime) :
    (z.instantsAt w).Pairwise fun t t' => t.second < t'.second := by
  simp only [instantsAt]
  split
  · rw [List.pairwise_map]
    exact pairwise_offsetsAfter hz.pairwise
  · exact .nil

theorem instantsAt_eq_pair (hz : z.Regular) {w : WallTime} {t t' : Instant}
    (ht : t.InRange) (ht' : t'.InRange) (hw : z.wallAt t = w) (hw' : z.wallAt t' = w)
    (hlt : t.second < t'.second) : z.instantsAt w = [t, t'] := by
  have hp := pairwise_instantsAt hz w
  have hm : t ∈ z.instantsAt w := (mem_instantsAt_iff hz).2 ⟨ht, hw⟩
  have hm' : t' ∈ z.instantsAt w := (mem_instantsAt_iff hz).2 ⟨ht', hw'⟩
  have hall : ∀ x ∈ z.instantsAt w, z.faceAt x.second = w.second := by
    intro x hx
    rw [← second_wallAt, ((mem_instantsAt_iff hz).1 hx).2]
  cases hl : z.instantsAt w with
  | nil => simp [hl] at hm
  | cons a as =>
    rw [hl] at hp hm hm' hall
    cases as with
    | nil =>
      simp only [List.mem_singleton] at hm hm'
      rw [hm, hm'] at hlt
      omega
    | cons b bs =>
      simp only [List.pairwise_cons, List.mem_cons] at hp
      have hab := hp.1 b (.inl rfl)
      cases bs with
      | nil =>
        simp only [List.mem_cons, List.not_mem_nil, or_false] at hm hm'
        rcases hm with rfl | rfl <;> rcases hm' with rfl | rfl
        · omega
        · rfl
        · omega
        · omega
      | cons c cs =>
        have hbc := hp.2.1 c (by simp)
        have ha := hall a (by simp)
        have hb := hall b (by simp)
        have hc := hall c (by simp)
        exact (not_fallsBack_twice hz hab hbc (by omega) (by omega)).elim

theorem bounds_of_instantsAt_eq_cons (hz : z.Regular) {w : WallTime} {t t' : Instant}
    {ts : List Instant} (h : z.instantsAt w = t :: t' :: ts) :
    t.second < t'.second ∧ t'.second - t.second < 172800 ∧ t.nano = w.nano ∧ t'.nano = w.nano := by
  have hp := pairwise_instantsAt hz w
  have ht : z.wallAt t = w := ((mem_instantsAt_iff hz).1 (by simp [h])).2
  have ht' : z.wallAt t' = w := ((mem_instantsAt_iff hz).1 (by simp [h])).2
  rw [h, List.pairwise_cons] at hp
  have hlt : t.second < t'.second := hp.1 t' (by simp)
  have hface : z.faceAt t'.second = z.faceAt t.second := by
    rw [← second_wallAt, ← second_wallAt, ht, ht']
  obtain ⟨s, d, hb, -, -, hd⟩ := fallsBack_of_faceAt_le hz hlt (Int.le_of_eq hface)
  have hdays := hb.lt_twoDays hz
  refine ⟨hlt, ?_, by rw [← ht, nano_wallAt], by rw [← ht', nano_wallAt]⟩
  simp only [faceAt] at hface
  omega

theorem InOrder.earliest_le_faceAt (hz : z.InOrder) {u v : Int} (huv : u ≤ v)
    (hu : earliestSecond ≤ z.faceAt u) : earliestSecond ≤ z.faceAt v := by
  have hsize := hz.natAbs_offsetAt_lt v
  by_cases he : z.offsetAt u = z.offsetAt v
  · simp only [faceAt] at *
    omega
  · obtain ⟨x, hx, -, hxv⟩ := exists_transition_of_offsetAfter_ne huv he
    have hx := z.inside x hx
    simp only [faceAt]
    omega

theorem InOrder.faceAt_le_latest (hz : z.InOrder) {u v : Int} (huv : u ≤ v)
    (hv : z.faceAt v ≤ latestSecond) : z.faceAt u ≤ latestSecond := by
  have hsize := hz.natAbs_offsetAt_lt u
  by_cases he : z.offsetAt u = z.offsetAt v
  · simp only [faceAt] at *
    omega
  · obtain ⟨x, hx, hux, -⟩ := exists_transition_of_offsetAfter_ne huv he
    have hx := z.inside x hx
    simp only [faceAt]
    omega

theorem InOrder.inRange_wallAt (hz : z.InOrder) {t : Instant} {u v : Int} (hut : u ≤ t.second)
    (htv : t.second ≤ v) (hu : earliestSecond ≤ z.faceAt u) (hv : z.faceAt v ≤ latestSecond) :
    (z.wallAt t).InRange := by
  rw [Reading.inRange_iff, second_wallAt]
  exact ⟨hz.earliest_le_faceAt hut hu, hz.faceAt_le_latest htv hv⟩

end Timetable.Zone
