import Mathlib.Order.Bounds.Basic
import Timetable.Proofs.Search.Forward
import Timetable.Proofs.Search.LastMatch

namespace Timetable

open Calendar

namespace Calendar.Reading

variable {c : Clock} {r : Reading c} {s : Int}

def FarInside (r : Reading c) : Prop :=
  earliestSecond + 365 * 86400 < r.second ∧ r.second + 365 * 86400 < latestSecond

instance (r : Reading c) : Decidable r.FarInside := inferInstanceAs (Decidable (_ ∧ _))

theorem ofSecond_le_iff : ofSecond s ≤ r ↔ s ≤ r.second := by
  simp only [le_def, ofSecond]
  omega

theorem le_ofSecond_iff : r ≤ ofSecond s ↔ Plan.secondFrom r ≤ s := by
  simp only [le_def, ofSecond, Plan.secondFrom]
  split <;> omega

end Calendar.Reading

namespace Plan

variable {p : Plan} {start : Int} {limit : WallTime}

def matchesWithin (p : Plan) (first last : WallTime) : Set Int :=
  {t | first ≤ .ofSecond t ∧ .ofSecond t ≤ last ∧ p.admits t = true}

/-- The search ahead to `limit` moves strictly on, comes to an end, and answers as a scan of all seconds
from `start` on. -/
structure ScansForward (p : Plan) (limit : WallTime) (start : Int) : Prop where
  moves : ∀ t u, p.forward t = .jump u → t < u
  ends : ¬ ∃ path : Nat → Int, path 0 = start ∧
    ∀ n, .ofSecond (path n) ≤ limit ∧ p.forward (path n) = .jump (path (n + 1))
  found : ∀ w, p.nextWall limit.second start = .found w ↔
    IsLeast (p.matchesWithin (.ofSecond start) limit) w
  exhausted : p.nextWall limit.second start = .exhausted ↔
    p.matchesWithin (.ofSecond start) limit = ∅

structure ScansBackward (p : Plan) (limit : WallTime) (start : Int) : Prop where
  moves : ∀ t u, p.backward t = .jump u → u < t
  ends : ¬ ∃ path : Nat → Int, path 0 = start ∧
    ∀ n, limit ≤ .ofSecond (path n) ∧ p.backward (path n) = .jump (path (n + 1))
  found : ∀ w, p.prevWall (secondFrom limit) start = .found w ↔
    IsGreatest (p.matchesWithin limit (.ofSecond start)) w
  exhausted : p.prevWall (secondFrom limit) start = .exhausted ↔
    p.matchesWithin limit (.ofSecond start) = ∅

theorem not_exists_path {r : Int → Int → Prop} (hr : ∀ t u, r t u → t < u) (start last : Int) :
    ¬ ∃ path : Nat → Int, path 0 = start ∧ ∀ n, path n ≤ last ∧ r (path n) (path (n + 1)) := by
  rintro ⟨path, h₀, hpath⟩
  have hgrows : ∀ n, start + n ≤ path n := by
    intro n
    induction n with
    | zero => simp [h₀]
    | succ n ih =>
      have := hr _ _ (hpath n).2
      rw [Int.natCast_succ]
      omega
  have hlast := (hpath (last + 1 - start).toNat).1
  have hpast := hgrows (last + 1 - start).toNat
  omega

theorem nextWall_cases (hs : (.ofSecond start : WallTime).FarInside) (hl : limit.FarInside)
    (hfar : limit.second ≤ start + 401 * 366 * 86400) :
    (∃ w, p.nextWall limit.second start = .found w ∧
      IsLeast (p.matchesWithin (.ofSecond start) limit) w) ∨
    (p.nextWall limit.second start = .exhausted ∧
      p.matchesWithin (.ofSecond start) limit = ∅) := by
  have hstart := hs.1
  have hlimit := hl.2
  simp only [Reading.ofSecond] at hstart
  have ha : p.AnswersForward some limit.second start (p.nextWall limit.second start) :=
    seekForward_answers (by omega) (by omega) (by simp only [longestSearch]; omega)
  cases hf : p.nextWall limit.second start with
  | found w =>
    rw [hf] at ha
    obtain ⟨w', h₁, h₂, hadm, hw, hleast⟩ := ha
    obtain rfl : w' = w := Option.some.inj hw
    refine .inl ⟨w', rfl, ⟨Reading.ofSecond_le_iff.2 h₁, Reading.ofSecond_le_iff.2 h₂, hadm⟩, ?_⟩
    rintro v ⟨hv, -, hadm'⟩
    rcases Int.lt_or_le v w' with hlt | hge
    · exact absurd (hleast v (Reading.ofSecond_le_iff.1 hv) hlt hadm') (Option.some_ne_none v)
    · exact hge
  | exhausted =>
    rw [hf] at ha
    refine .inr ⟨rfl, Set.eq_empty_of_forall_notMem ?_⟩
    rintro v ⟨hv, hv', hadm⟩
    exact absurd (ha v (Reading.ofSecond_le_iff.1 hv) (Reading.ofSecond_le_iff.1 hv') hadm)
      (Option.some_ne_none v)
  | outOfRange =>
    rw [hf] at ha
    obtain ⟨v, hv, hv', -⟩ := ha
    omega

theorem prevWall_cases (hs : (.ofSecond start : WallTime).FarInside) (hl : limit.FarInside) :
    (∃ w, p.prevWall (secondFrom limit) start = .found w ∧
      IsGreatest (p.matchesWithin limit (.ofSecond start)) w) ∨
    (p.prevWall (secondFrom limit) start = .exhausted ∧
      p.matchesWithin limit (.ofSecond start) = ∅) := by
  have hstart := hs.2
  have hlimit := hl.1
  have hfrom := secondFrom_bounds limit
  simp only [Reading.ofSecond] at hstart
  have ha : p.AnswersBackward some (secondFrom limit) start
      (p.prevWall (secondFrom limit) start) :=
    seekBackward_answers (by omega) (by omega)
  cases hf : p.prevWall (secondFrom limit) start with
  | found w =>
    rw [hf] at ha
    obtain ⟨w', h₁, h₂, hadm, hw, hgreatest⟩ := ha
    obtain rfl : w' = w := Option.some.inj hw
    refine .inl ⟨w', rfl, ⟨Reading.le_ofSecond_iff.2 h₁, Reading.ofSecond_le_iff.2 h₂, hadm⟩, ?_⟩
    rintro v ⟨-, hv, hadm'⟩
    rcases Int.lt_or_le w' v with hlt | hge
    · exact absurd (hgreatest v hlt (Reading.ofSecond_le_iff.1 hv) hadm') (Option.some_ne_none v)
    · exact hge
  | exhausted =>
    rw [hf] at ha
    refine .inr ⟨rfl, Set.eq_empty_of_forall_notMem ?_⟩
    rintro v ⟨hv, hv', hadm⟩
    exact absurd (ha v (Reading.le_ofSecond_iff.1 hv) (Reading.ofSecond_le_iff.1 hv') hadm)
      (Option.some_ne_none v)
  | outOfRange =>
    rw [hf] at ha
    obtain ⟨v, hv, hv', -⟩ := ha
    omega

theorem answer_iff (best : Set Int → Int → Prop) {r : Found Int} {A : Set Int}
    (hmem : ∀ w, best A w → w ∈ A) (hunique : ∀ v w, best A v → best A w → v = w)
    (h : (∃ w, r = .found w ∧ best A w) ∨ (r = .exhausted ∧ A = ∅)) :
    (∀ w, r = .found w ↔ best A w) ∧ (r = .exhausted ↔ A = ∅) := by
  rcases h with ⟨v, rfl, hv⟩ | ⟨rfl, rfl⟩
  · constructor
    · intro w
      rw [Found.found.injEq]
      exact ⟨fun he => he ▸ hv, hunique v w hv⟩
    · refine iff_of_false nofun ?_
      rintro rfl
      exact hmem v hv
  · exact ⟨fun w => iff_of_false nofun (hmem w), iff_of_true rfl rfl⟩

theorem scans_of_farInside (hs : (.ofSecond start : WallTime).FarInside) (hl : limit.FarInside) :
    (limit.second ≤ start + 401 * 366 * 86400 → p.ScansForward limit start) ∧
      p.ScansBackward limit start := by
  constructor
  · intro hfar
    obtain ⟨hfound, hexhausted⟩ := answer_iff IsLeast (fun w h => h.1)
      (fun v w hv hw => Int.le_antisymm (hv.2 hw.1) (hw.2 hv.1)) (nextWall_cases (p := p) hs hl hfar)
    refine ⟨fun t u => lt_of_forward_eq_jump, ?_, hfound, hexhausted⟩
    simp only [Reading.ofSecond_le_iff]
    exact not_exists_path (fun t u => lt_of_forward_eq_jump) start limit.second
  · obtain ⟨hfound, hexhausted⟩ := answer_iff IsGreatest (fun w h => h.1)
      (fun v w hv hw => Int.le_antisymm (hw.2 hv.1) (hv.2 hw.1)) (prevWall_cases (p := p) hs hl)
    refine ⟨fun t u => lt_of_backward_eq_jump, ?_, hfound, hexhausted⟩
    -- seen from the other end of the line, the steps lead on
    rintro ⟨path, h₀, hpath⟩
    refine not_exists_path (r := fun t u => p.backward (-t) = .jump (-u)) ?_ (-start)
      (-secondFrom limit) ⟨fun n => -path n, congrArg Neg.neg h₀, fun n => ⟨?_, ?_⟩⟩
    · intro t u h
      have := lt_of_backward_eq_jump h
      omega
    · exact Int.neg_le_neg (Reading.le_ofSecond_iff.1 (hpath n).1)
    · simpa only [Int.neg_neg] using (hpath n).2

def fieldOf (k : FieldKind) (text : String) : Field k :=
  (Field.parse k text).toOption.getD (.any k)

def leapDayNoon : Plan where
  second := fieldOf _ "0"
  minute := fieldOf _ "0"
  hour := fieldOf _ "12"
  dayOfMonth := fieldOf _ "29"
  month := fieldOf _ "2"
  dayOfWeek := .any _
  year := none
  weekOfYear := none
  zone := .utc

def noonOf1896 : Int := -2330078400 -- 1896-02-29T12:00:00Z

def noonOf1904 : Int := -2077704000 -- 1904-02-29T12:00:00Z

theorem scans_leapDayNoon : (.ofSecond noonOf1896 : WallTime).FarInside ∧
    (.ofSecond noonOf1904 : WallTime).FarInside ∧ noonOf1904 ≤ noonOf1896 + 1 + 401 * 366 * 86400 ∧
    IsLeast (leapDayNoon.matchesWithin (.ofSecond (noonOf1896 + 1)) (.ofSecond noonOf1904))
      noonOf1904 ∧
    IsGreatest (leapDayNoon.matchesWithin (.ofSecond noonOf1896) (.ofSecond (noonOf1904 - 1)))
      noonOf1896 := by
  have hstart : (.ofSecond (noonOf1896 + 1) : WallTime).FarInside := by decide
  have hend : (.ofSecond (noonOf1904 - 1) : WallTime).FarInside := by decide
  have hfirst : (.ofSecond noonOf1896 : WallTime).FarInside := by decide
  have hlast : (.ofSecond noonOf1904 : WallTime).FarInside := by decide
  have hfar : noonOf1904 ≤ noonOf1896 + 1 + 401 * 366 * 86400 := by decide
  have hnext : leapDayNoon.nextWall noonOf1904 (noonOf1896 + 1) = .found noonOf1904 := by
    decide +kernel
  have hprev : leapDayNoon.prevWall noonOf1896 (noonOf1904 - 1) = .found noonOf1896 := by
    decide +kernel
  exact ⟨hfirst, hlast, hfar, (((scans_of_farInside hstart hlast).1 hfar).found _).1 hnext,
    ((scans_of_farInside hend hfirst).2.found _).1 hprev⟩

end Plan

end Timetable
