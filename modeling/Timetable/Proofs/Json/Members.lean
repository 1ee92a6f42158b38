import Timetable.Json.Decode
import Timetable.Proofs.Result

/-! A reader looks members up by their names, so it cannot tell in which order they were written. -/

namespace Timetable

namespace Json

theorem lookup_eq_some_iff_mem {α : Type} {xs : List (String × α)} {name : String} {a : α}
    (hn : (xs.map Prod.fst).Nodup) : xs.lookup name = some a ↔ (name, a) ∈ xs := by
  rw [List.lookup_eq_some_iff]
  constructor
  · rintro ⟨before, after, rfl, -⟩
    simp
  · intro h
    obtain ⟨before, after, rfl⟩ := List.append_of_mem h
    refine ⟨before, after, rfl, fun m hm => ?_⟩
    rw [List.map_append, List.nodup_append] at hn
    rw [bne_iff_ne]
    exact (hn.2.2 m.1 (List.mem_map_of_mem hm) name (by simp)).symm

variable {ms ms' : List (String × Json)} {j : Json}

/-- The same value but for the order of the members, in an object or anywhere inside of it. -/
inductive Rearranged : Json → Json → Prop where
  | same (j : Json) : Rearranged j j
  | members {ms ms' : List (String × Json)} (distinct : (ms'.map Prod.fst).Nodup)
      (lookup : ∀ name, Option.Rel Rearranged (ms.lookup name) (ms'.lookup name)) :
      Rearranged (object ms) (object ms')

theorem Rearranged.optionRel_refl : ∀ x : Option Json, Option.Rel Rearranged x x
  | none => .none
  | some j => .some (.same j)

theorem lookup_perm (hn : (ms.map Prod.fst).Nodup) (hp : ms.Perm ms') (name : String) :
    ms.lookup name = ms'.lookup name := by
  have hn' : (ms'.map Prod.fst).Nodup := (hp.map Prod.fst).nodup_iff.1 hn
  ext v
  rw [lookup_eq_some_iff_mem hn, lookup_eq_some_iff_mem hn', hp.mem_iff]

theorem Rearranged.of_perm (hn : (ms.map Prod.fst).Nodup) (hp : ms.Perm ms') :
    Rearranged (object ms) (object ms') := by
  refine .members ((hp.map Prod.fst).nodup_iff.1 hn) fun name => ?_
  rw [lookup_perm hn hp]
  exact optionRel_refl _

theorem Rearranged.exists_members (h : Rearranged (object ms) j) :
    ∃ ms', j = object ms' ∧
      ∀ name, Option.Rel Rearranged (ms.lookup name) (ms'.lookup name) := by
  cases h with
  | same => exact ⟨ms, rfl, fun _ => optionRel_refl _⟩
  | members _ hm => exact ⟨_, rfl, hm⟩

theorem Rearranged.eq_null (h : Rearranged j null) : j = null := by
  cases h
  rfl

section
variable {α : Type}

/-- Whatever order its members get, what `write` gives is read as what was written. -/
structure Reads (write : α → Json) (read : Json → Decoded α) : Prop where
  read_eq : ∀ {a j}, Rearranged (write a) j → read j = .ok a
  ne_null : ∀ a, write a ≠ null

theorem reads_string : Reads string asString where
  read_eq h := by
    cases h
    rfl
  ne_null _ := nofun

theorem reads_bool : Reads bool asBool where
  read_eq h := by
    cases h
    rfl
  ne_null _ := nofun

theorem reads_word : Reads (fun n : UInt32 => integer n.toNat) asUInt32 where
  read_eq {n _} h := by
    cases h
    rw [asUInt32, asBelow, if_pos ⟨by omega, by exact_mod_cast n.toNat_lt_size⟩]
    simp [Except.map]
  ne_null _ := nofun

variable {fields : List (String × Option Json)} {write : α → Json} {read : Json → Decoded α}
  {name : String} {value : Option α}

def WrittenFrom (fields : List (String × Option Json)) (ms : List (String × Json)) : Prop :=
  ∀ name, Option.Rel Rearranged ((present fields).lookup name) (ms.lookup name)

theorem WrittenFrom.rel_lookup (hm : WrittenFrom fields ms) (hn : (fields.map Prod.fst).Nodup)
    (hv : (name, value.map write) ∈ fields) :
    Option.Rel (fun a j => Rearranged (write a) j) value (ms.lookup name) := by
  have hrel := hm name
  rw [lookup_present hn, (lookup_eq_some_iff_mem hn).2 hv, Option.join_some] at hrel
  generalize ms.lookup name = found at hrel
  cases value with
  | none =>
    cases hrel
    exact .none
  | some a =>
    cases hrel with
    | some hj => exact .some hj

theorem Reads.member? (hr : Reads write read) (hm : WrittenFrom fields ms)
    (hn : (fields.map Prod.fst).Nodup) (hv : (name, value.map write) ∈ fields) :
    member? ms name read = .ok value := by
  have hrel := hm.rel_lookup hn hv
  rw [Timetable.member?]
  generalize ms.lookup name = found at hrel
  cases hrel with
  | none => rfl
  | some hj =>
    simp only [hr.read_eq hj]
    rfl

theorem Reads.optionalMember (hr : Reads write read) (hm : WrittenFrom fields ms)
    (hn : (fields.map Prod.fst).Nodup) (hv : (name, value.map write) ∈ fields) :
    optionalMember ms name read = .ok value := by
  have hrel := hm.rel_lookup hn hv
  rw [Timetable.optionalMember, memberOr, Timetable.member?]
  generalize ms.lookup name = found at hrel
  cases hrel with
  | none => rfl
  | @some a j hj =>
    have hnull : j ≠ null := by
      rintro rfl
      exact hr.ne_null a hj.eq_null
    have hread : asOptional read j = .ok (some a) := by
      rw [asOptional.eq_2 _ _ hnull, hr.read_eq hj]
      rfl
    simp only [hread]
    rfl

end

end Json

end Timetable
