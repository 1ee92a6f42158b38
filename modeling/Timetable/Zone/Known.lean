import Timetable.Zone.Named
import Timetable.Zone.Table

namespace Timetable

namespace Zone

def spaced : List Transition → Bool
  | x :: y :: xs => x.second + 172800 < y.second && spaced (y :: xs)
  | _ => true

theorem pairwise_of_spaced {xs : List Transition} (h : spaced xs = true) :
    xs.Pairwise fun x y => x.second + 172800 < y.second := by
  induction xs with
  | nil => exact .nil
  | cons x xs ih =>
    cases xs with
    | nil => exact List.pairwise_singleton _ x
    | cons y ys =>
      rw [spaced, Bool.and_eq_true, decide_eq_true_eq] at h
      have hrest := ih h.2
      refine List.pairwise_cons.2 ⟨fun u hu => ?_, hrest⟩
      rcases List.mem_cons.1 hu with rfl | hu
      · exact h.1
      · have hnext := (List.pairwise_cons.1 hrest).1 u hu
        omega

end Zone

namespace Timezone

/-- A selection of zones. An alias stands beside the name that it is an alias of. -/
def known : List (String × Zone) :=
  [("UTC", Zone.utc),
   ("GMT", Zone.utc),
   ("Etc/UTC", Zone.utc),
   ("Etc/GMT+5", Zone.behindFiveHours),
   ("America/New_York", Zone.newYork),
   ("Europe/London", Zone.london),
   ("Europe/Istanbul", Zone.istanbul),
   ("America/Sao_Paulo", Zone.saoPaulo),
   ("Asia/Kolkata", Zone.kolkata),
   ("Asia/Kathmandu", Zone.kathmandu),
   ("Australia/Lord_Howe", Zone.lordHowe),
   ("Pacific/Apia", Zone.apia),
   ("Pacific/Kwajalein", Zone.kwajalein),
   ("Asia/Manila", Zone.manila),
   ("Africa/Monrovia", Zone.monrovia),
   ("Antarctica/Troll", Zone.troll),
   ("Asia/Tehran", Zone.tehran),
   ("US/Eastern", Zone.newYork)]

def findKnown? (name : String) : Option Timezone := (known.lookup name).map fun zone => ⟨name, zone⟩

theorem mem_known_of_findKnown? {name : String} {z : Timezone} (h : findKnown? name = some z) :
    (name, z.zone) ∈ known := by
  obtain ⟨zone, hlookup, rfl⟩ := Option.map_eq_some_iff.1 h
  obtain ⟨us, vs, hknown, -⟩ := List.lookup_eq_some_iff.1 hlookup
  rw [hknown]
  simp

theorem regular_of_mem_known {x : String × Zone} (hx : x ∈ known) : x.2.Regular := by
  have hknown : ∀ x ∈ known, x.2.before.natAbs < 86400 ∧
      (∀ y ∈ x.2.transitions, y.offset.natAbs < 86400) ∧ Zone.spaced x.2.transitions = true := by
    decide +kernel
  obtain ⟨hbefore, hoffset, hspaced⟩ := hknown x hx
  exact ⟨hbefore, hoffset, Zone.pairwise_of_spaced hspaced⟩

def isName (name : String) : Bool := !name.toList.isEmpty && name.toList.all (!Text.isBlank ·)

theorem isName_of_mem_known {x : String × Zone} (hx : x ∈ known) : isName x.1 = true := by
  have hknown : known.all (isName ·.1) = true := by decide +kernel
  exact List.all_eq_true.1 hknown x hx

theorem ne_of_isName {name : String} (h : isName name = true) : name ≠ "" := by
  rintro rfl
  cases h

theorem not_blank_of_isName {name : String} (h : isName name = true) :
    ∀ c ∈ name.toList, Text.isBlank c = false := by
  rw [isName, Bool.and_eq_true, List.all_eq_true] at h
  intro c hc
  exact Bool.not_eq_true' _ ▸ h.2 c hc

end Timezone

instance : TimezoneDatabase where
  find? := Timezone.findKnown?
  name_eq h := by
    obtain ⟨_, _, rfl⟩ := Option.map_eq_some_iff.1 h
    rfl
  name_ne h := Timezone.ne_of_isName (Timezone.isName_of_mem_known (Timezone.mem_known_of_findKnown? h))
  not_blank h :=
    Timezone.not_blank_of_isName (Timezone.isName_of_mem_known (Timezone.mem_known_of_findKnown? h))
  regular h := Timezone.regular_of_mem_known (Timezone.mem_known_of_findKnown? h)

end Timetable
