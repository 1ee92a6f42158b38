import Timetable.Proofs.Engine.Inverse

namespace Timetable

open Calendar

namespace Engine

variable {e : Engine} {s : Schedule} {t u : Instant} {n : Nat} {us : List Instant}

structure FirstAfter (e : Engine) (s : Schedule) (t u : Instant) : Prop where
  whole : u.nano = 0
  after : t < u
  isMatch : e.isMatch s u = .ok true
  first : ∀ v : Instant, v.nano = 0 → t < v → v < u → e.isMatch s v = .ok false

/-- No whole second after `t` matches up to the horizon of a search from there. -/
def NoneAhead (e : Engine) (s : Schedule) (t : Instant) : Prop :=
  ∀ v : Instant, v.InRange → v.nano = 0 → t < v → (e.timezoneOf s).zone.wallAt v ≤
    Plan.horizonAfter e.horizon ((e.timezoneOf s).zone.wallAt t) → e.isMatch s v = .ok false

/-- `us` lists the matches after `t` in order and leaves none out; it has `n` of them, or the search from
its end finds no more and there are none up to its horizon. -/
structure Enumerates (e : Engine) (s : Schedule) (t : Instant) (n : Nat) (us : List Instant) : Prop where
  length_le : us.length ≤ n
  increasing : (t :: us).Pairwise (· < ·)
  isMatch : ∀ u ∈ us, u.nano = 0 ∧ e.isMatch s u = .ok true
  complete : ∀ v : Instant, v.nano = 0 → e.isMatch s v = .ok true → t < v → ∀ u ∈ us, v ≤ u → v ∈ us
  exhausted : us.length < n →
    e.next s (us.getLastD t) = .error (.exhausted e.horizon) ∧ e.NoneAhead s (us.getLastD t)

def RoomAlong (e : Engine) (s : Schedule) (t : Instant) : Nat → Prop
  | 0 => True
  | n + 1 => (s.plan e.timezone.zone).RoomAhead e.horizon t ∧
      ∀ u, e.next s t = .ok u → e.RoomAlong s u n

theorem next_cases (hs : s.special = none) (hz : (e.timezoneOf s).zone.Regular)
    (hr : (s.plan e.timezone.zone).RoomAhead e.horizon t) :
    (∃ u, e.next s t = .ok u ∧ u.nano = 0) ∨ e.next s t = .error (.exhausted e.horizon) := by
  rw [← zone_plan] at hz
  obtain ⟨lo, last, h⟩ := Plan.exists_shownFirst_next hz hr e.horizon_pos e.horizon_le
  rw [next_eq hs]
  cases hf : (s.plan e.timezone.zone).next e.horizon t with
  | found u =>
    rw [hf] at h
    obtain ⟨x, rfl, -⟩ := h
    exact .inl ⟨.ofSecond x, rfl, rfl⟩
  | exhausted => exact .inr rfl
  | outOfRange =>
    rw [hf] at h
    exact h.elim

theorem nextIsScan_of_not_skipsRepeat (hs : s.special = none)
    (hz : (e.timezoneOf s).zone.Regular)
    (hr : (s.plan e.timezone.zone).RoomAhead e.horizon t)
    (hk : ¬ (s.plan e.timezone.zone).SkipsRepeat t) : e.NextIsScan s t := by
  have hz' := hz
  rw [← zone_plan] at hz'
  exact nextIsScan_of_isNext hs hz hr (Plan.next_isNext hz' hr e.horizon_pos e.horizon_le hk)

theorem NextIsScan.firstAfter (h : e.NextIsScan s t) (hu : e.next s t = .ok u) :
    e.FirstAfter s t u := by
  obtain ⟨hn, hlt, hm, hfirst⟩ := h.first u hu
  exact ⟨hn, hlt, hm, hfirst⟩

theorem firings_of_ok (h : e.next s t = .ok u) :
    e.firings s t (n + 1) = (e.firings s u n >>= fun us => .ok (u :: us)) := by
  rw [firings, h]
  rfl

theorem firings_of_exhausted {years : Nat} (h : e.next s t = .error (.exhausted years)) (n : Nat) :
    e.firings s t n = .ok [] := by
  cases n with
  | zero => rfl
  | succ n => rw [firings, h]

theorem Enumerates.nil (h : e.next s t = .error (.exhausted e.horizon)) (hnone : e.NoneAhead s t) :
    e.Enumerates s t n [] where
  length_le := Nat.zero_le n
  increasing := List.pairwise_singleton _ t
  isMatch := by simp
  complete := by simp
  exhausted := fun _ => ⟨h, hnone⟩

theorem Enumerates.zero : e.Enumerates s t 0 [] where
  length_le := Nat.le_refl 0
  increasing := List.pairwise_singleton _ t
  isMatch := by simp
  complete := by simp
  exhausted := fun h => absurd h (Nat.lt_irrefl 0)

theorem Enumerates.cons (hu : e.FirstAfter s t u) (h : e.Enumerates s u n us) :
    e.Enumerates s t (n + 1) (u :: us) where
  length_le := Nat.succ_le_succ h.length_le
  increasing := by
    refine List.pairwise_cons.2 ⟨?_, h.increasing⟩
    intro v hv
    rcases List.mem_cons.1 hv with rfl | hv
    · exact hu.after
    · have hlt := hu.after
      have hlt' : u < v := (List.pairwise_cons.1 h.increasing).1 v hv
      simp only [Reading.lt_def] at *
      omega
  isMatch := List.forall_mem_cons.2 ⟨⟨hu.whole, hu.isMatch⟩, h.isMatch⟩
  complete := by
    intro v hn hm hlt x hx hle
    have hu₀ := hu.whole
    rcases Int.lt_trichotomy v.second u.second with hsoon | hnow | hlate
    · have hfalse := hu.first v hn hlt (.inl hsoon)
      rw [hm] at hfalse
      cases hfalse
    · have he : v = u := Reading.eq_iff.2 ⟨hnow, by rw [hn, hu₀]⟩
      exact he ▸ List.mem_cons_self
    · rcases List.mem_cons.1 hx with rfl | hx
      · simp only [Reading.le_def] at hle
        omega
      · exact List.mem_cons_of_mem u (h.complete v hn hm (.inl hlate) x hx hle)
  exhausted := by
    intro hlt
    rw [List.getLastD_cons]
    exact h.exhausted (Nat.lt_of_succ_lt_succ hlt)

theorem exists_enumerates (hs : s.special = none) (hz : (e.timezoneOf s).zone.Regular)
    (hr : e.RoomAlong s t n) (hk : ¬ (s.plan e.timezone.zone).SkipsRepeat t) :
    ∃ us, e.firings s t n = .ok us ∧ e.Enumerates s t n us := by
  induction n generalizing t with
  | zero => exact ⟨[], rfl, .zero⟩
  | succ n ih =>
    obtain ⟨hroom, hrest⟩ := hr
    have hscan := nextIsScan_of_not_skipsRepeat hs hz hroom hk
    rcases next_cases hs hz hroom with ⟨u, hu, hn⟩ | hend
    · -- the answer is a whole second, so the run goes on from no leap second
      obtain ⟨us, hus, henum⟩ := ih (hrest u hu) (Plan.not_skipsRepeat_of_nano hn)
      refine ⟨u :: us, ?_, henum.cons (hscan.firstAfter hu)⟩
      rw [firings_of_ok hu, hus, Outcome.ok_bind]
    · exact ⟨[], firings_of_exhausted hend _, .nil hend (hscan.exhausted.1 hend)⟩

theorem exists_firings (hs : s.special = none) (hz : (e.timezoneOf s).zone.Regular)
    (hr : e.RoomAlong s t n) : ∃ us, e.firings s t n = .ok us := by
  cases n with
  | zero => exact ⟨[], rfl⟩
  | succ n =>
    obtain ⟨hroom, hrest⟩ := hr
    rcases next_cases hs hz hroom with ⟨u, hu, hn⟩ | hend
    · obtain ⟨us, hus, -⟩ := exists_enumerates hs hz (hrest u hu) (Plan.not_skipsRepeat_of_nano hn)
      exact ⟨u :: us, by rw [firings_of_ok hu, hus, Outcome.ok_bind]⟩
    · exact ⟨[], firings_of_exhausted hend _⟩

theorem not_enumerates_of_skipsRepeat (hs : s.special = none)
    (hz : (e.timezoneOf s).zone.Regular) (hr : e.RoomAlong s t (n + 1))
    (hk : (s.plan e.timezone.zone).SkipsRepeat t) (h : e.firings s t (n + 1) = .ok us) :
    ¬ e.Enumerates s t (n + 1) us := by
  intro henum
  obtain ⟨hroom, hrest⟩ := hr
  rcases next_cases hs hz hroom with ⟨u, hu, hn⟩ | hend
  · rw [firings_of_ok hu] at h
    obtain ⟨vs, hvs⟩ := exists_firings hs hz (hrest u hu)
    rw [hvs, Outcome.ok_bind] at h
    cases h
    have hz' := hz
    rw [← zone_plan] at hz'
    obtain ⟨hx, hface⟩ := hk.matchAfter hz' hroom e.horizon_pos e.horizon_le
    have hhorizon := (hroom.horizonFace_bounds e.horizon_pos e.horizon_le).1
    have hmiss := Plan.next_of_skipsRepeat hz' hroom e.horizon_pos e.horizon_le hk
    rw [found_of_next_eq_ok hs hu] at hmiss
    obtain ⟨hfirst, hrest⟩ := List.pairwise_cons.1 henum.increasing
    have hlt : t.second < u.second := by
      rw [← Reading.lt_ofSecond_iff, Reading.ofSecond_second hn]
      exact hfirst u List.mem_cons_self
    have hne : u.second ≠ t.second + 1 := by
      intro he
      exact hmiss (by rw [← he, Reading.ofSecond_second hn])
    have hlater : Reading.ofSecond (t.second + 1) < u := .inl (by simp only [Reading.ofSecond]; omega)
    rcases List.mem_cons.1 (henum.complete (.ofSecond (t.second + 1)) rfl
      (isMatch_of_matchAfter hs hz hroom hx (by omega)) (Reading.lt_ofSecond_iff.2 hx.1) u List.mem_cons_self
      (.inl (by simp only [Reading.ofSecond]; omega))) with he | hmem
    · exact hne (by rw [← he]; rfl)
    · have hsooner := (List.pairwise_cons.1 hrest).1 _ hmem
      simp only [Reading.lt_def] at hsooner hlater
      omega
  · rw [firings_of_exhausted hend] at h
    cases h
    apply not_nextIsScan_of_skipsRepeat hs hz hroom hk
    constructor
    · intro u hu
      cases hend.symm.trans hu
    · exact iff_of_true hend (henum.exhausted (Nat.succ_pos n)).2

theorem firings_add {k m : Nat} (h : e.firings s t k = .ok us) :
    e.firings s t (k + m) = (e.firings s (us.getLastD t) m >>= fun vs => .ok (us ++ vs)) := by
  induction k generalizing t us with
  | zero =>
    cases h
    rw [Nat.zero_add, List.getLastD_nil]
    cases e.firings s t m <;> rfl
  | succ k ih =>
    rw [Nat.add_right_comm]
    cases hu : e.next s t with
    | ok u =>
      rw [firings_of_ok hu] at h
      rw [firings_of_ok hu]
      cases hus : e.firings s u k with
      | ok us' =>
        rw [hus] at h
        cases h
        rw [ih hus, List.getLastD_cons]
        cases e.firings s (us'.getLastD u) m <;> rfl
      | error cause =>
        rw [hus] at h
        cases h
      | outOfRange =>
        rw [hus] at h
        cases h
    | error cause =>
      cases cause with
      | exhausted years =>
        rw [firings_of_exhausted hu] at h
        cases h
        rw [firings_of_exhausted hu, List.getLastD_nil, firings_of_exhausted hu]
        rfl
      | _ =>
        rw [firings, hu] at h
        cases h
    | outOfRange =>
      rw [firings, hu] at h
      cases h

theorem nextN_of_le {n : UInt64} (hn : n.toNat ≤ maxListed) :
    e.nextN s t n = e.firings s t n.toNat := if_pos hn

/-- A run has an answer, which lists the matches in order and leaves none out unless it starts from a
leap second that the first second of a repeated hour follows; and it can be run in parts. Nothing is
listed if so many are asked for that no list has room for them. -/
theorem nextN_enumerates_iff {n : UInt64} (hs : s.special = none)
    (hz : (e.timezoneOf s).zone.Regular) (hr : n.toNat ≤ maxListed → e.RoomAlong s t n.toNat) :
    (n.toNat ≤ maxListed → ∃ us, e.nextN s t n = .ok us ∧
      (e.Enumerates s t n.toNat us ↔ n.toNat = 0 ∨ ¬ (s.plan e.timezone.zone).SkipsRepeat t)) ∧
    (maxListed < n.toNat → e.nextN s t n = .outOfRange) ∧
    ∀ (k m : UInt64) us, k.toNat + m.toNat ≤ maxListed → e.nextN s t k = .ok us →
      e.nextN s t (k + m) = (e.nextN s (us.getLastD t) m >>= fun vs => .ok (us ++ vs)) := by
  refine ⟨fun hn => ?_, fun hn => if_neg (Nat.not_le_of_gt hn), ?_⟩
  · have hr := hr hn
    obtain ⟨us, hus⟩ := exists_firings hs hz hr
    refine ⟨us, (nextN_of_le hn).trans hus, ?_, ?_⟩
    · intro henum
      rcases Nat.eq_zero_or_pos n.toNat with hzero | hpos
      · exact .inl hzero
      · obtain ⟨k, hk⟩ := Nat.exists_eq_add_one.2 hpos
        rw [hk] at hr hus henum
        exact .inr fun hskip => not_enumerates_of_skipsRepeat hs hz hr hskip hus henum
    · rintro (hzero | hskip)
      · rw [hzero] at hus ⊢
        cases hus
        exact .zero
      · obtain ⟨us', hus', henum⟩ := exists_enumerates hs hz hr hskip
        cases hus.symm.trans hus'
        exact henum
  · intro k m us hkm hus
    have hsum : (k + m).toNat = k.toNat + m.toNat := by
      have hlt := m.toNat_lt
      have hmax : maxListed < 2 ^ 64 := by decide
      rw [UInt64.toNat_add]
      omega
    rw [nextN_of_le (by omega)] at hus
    rw [nextN_of_le (by omega), nextN_of_le (by omega), hsum, firings_add hus]

def oneInTheMorningNextYear : Instant := .ofSecond 23547600 -- 1970-09-30T13:00:00Z

theorem nextN_kwajalein : lastOfSeptember.special = none ∧
    (default.timezoneOf lastOfSeptember).zone.Regular ∧
    default.RoomAlong lastOfSeptember oneInTheMorning (2 : UInt64).toNat ∧
    (2 : UInt64).toNat ≤ maxListed ∧
    default.nextN lastOfSeptember oneInTheMorning 2 =
      .ok [oneInTheMorningAgain, oneInTheMorningNextYear] ∧
    default.Enumerates lastOfSeptember oneInTheMorning 2
      [oneInTheMorningAgain, oneInTheMorningNextYear] := by
  have hz : (default.timezoneOf lastOfSeptember).zone.Regular := by decide
  have hnext : default.next lastOfSeptember oneInTheMorning = .ok oneInTheMorningAgain := by
    decide +kernel
  have hr : default.RoomAlong lastOfSeptember oneInTheMorning (2 : UInt64).toNat := by
    refine ⟨?_, fun u hu => ⟨?_, fun _ _ => trivial⟩⟩
    · exact Plan.roomAhead_of_far (by decide) (by decide) (by decide) (by decide) (by decide)
        (by decide) (by decide)
    · cases hnext.symm.trans hu
      exact Plan.roomAhead_of_far (by decide) (by decide) (by decide) (by decide) (by decide)
        (by decide) (by decide)
  have hlist : default.nextN lastOfSeptember oneInTheMorning 2 =
      .ok [oneInTheMorningAgain, oneInTheMorningNextYear] := by decide +kernel
  have hn : (2 : UInt64).toNat ≤ maxListed := by decide
  obtain ⟨us, hus, henum⟩ := (nextN_enumerates_iff rfl hz fun _ => hr).1 hn
  cases hlist.symm.trans hus
  exact ⟨rfl, hz, hr, hn, hlist, henum.2 (.inr (by decide))⟩

theorem not_enumerates_kwajalein : lastOfSeptember.special = none ∧
    (default.timezoneOf lastOfSeptember).zone.Regular ∧
    default.RoomAlong lastOfSeptember leapBeforeSetBack 1 ∧
    default.nextN lastOfSeptember leapBeforeSetBack 1 = .ok [oneInTheMorningNextYear] ∧
    leapBeforeSetBack < oneInTheMorningAgain ∧ oneInTheMorningAgain < oneInTheMorningNextYear ∧
    default.isMatch lastOfSeptember oneInTheMorningAgain = .ok true ∧
    ¬ default.Enumerates lastOfSeptember leapBeforeSetBack 1 [oneInTheMorningNextYear] := by
  have hz : (default.timezoneOf lastOfSeptember).zone.Regular := by decide
  have hr : default.RoomAlong lastOfSeptember leapBeforeSetBack 1 :=
    ⟨roomAhead_lastOfSeptember (.inr rfl), fun _ _ => trivial⟩
  have hlist : default.nextN lastOfSeptember leapBeforeSetBack 1 =
      .ok [oneInTheMorningNextYear] := by decide +kernel
  exact ⟨rfl, hz, hr, hlist, by decide, by decide, by rfl,
    not_enumerates_of_skipsRepeat rfl hz hr (by decide) hlist⟩

end Engine

end Timetable
