import Timetable.Proofs.Engine.Matching
import Timetable.Proofs.Field.Numeric

/-! The guess whether a seventh field is years or weeks is right for every text that is a field of either
kind. -/

namespace Timetable

open Text

def NumberOutsideSteps (cs : List Char) : Prop :=
  ∃ w ∈ cs.splitOn ',', ∃ c ∈ w.takeWhile (· != '/'), c.isDigit = true

def IsWeeks (cs : List Char) : Prop := ∃ f, Field.parse .weekOfYear (String.ofList cs) = .ok f

def IsYears (cs : List Char) : Prop :=
  (∃ f, Field.parse .year (String.ofList cs) = .ok f) ∧ NumberOutsideSteps cs

structure BaseFields (se mi h d mo dw : String) : Prop where
  second : ∃ f, Field.parse .second se = .ok f
  minute : ∃ f, Field.parse .minute mi = .ok f
  hour : ∃ f, Field.parse .hour h = .ok f
  dayOfMonth : ∃ f, Field.parse .dayOfMonth d = .ok f
  month : ∃ f, Field.parse .month mo = .ok f
  dayOfWeek : ∃ f, Field.parse .dayOfWeek dw = .ok f

def endpoints (cs : List Char) : List (List Char) :=
  (cs.splitOn ',').flatMap fun w => (w.takeWhile (· != '/')).splitOn '-'

inductive IsEndpoint (k : FieldKind) : List Char → Prop where
  | star : IsEndpoint k ['*']
  | question : IsEndpoint k ['?']
  | number {p : List Char} {n : Nat} : readWord? p = some n → k.min ≤ n → n ≤ k.max → IsEndpoint k p

def IsDigits (p : List Char) : Prop := p ≠ [] ∧ ∀ c ∈ p, c.isDigit = true

variable {k : FieldKind} {w p cs : List Char} {a b n : Nat} {c : Char} {t : Term}

theorem mem_of_mem_endpoints (hp : p ∈ endpoints cs) (hc : c ∈ p) :
    ∃ w ∈ cs.splitOn ',', c ∈ w.takeWhile (· != '/') := by
  obtain ⟨w, hw, hp⟩ := List.mem_flatMap.1 hp
  exact ⟨w, hw, mem_of_mem_splitOn hp hc⟩

theorem DenotesSpan.isEndpoint {stepped : Bool} (h : DenotesSpan k stepped w a b) (ha : k.min ≤ a)
    (hab : a ≤ b) (hb : b ≤ k.max) : ∀ p ∈ w.splitOn '-', IsEndpoint k p := by
  have hone {v : List Char} {n : Nat} (hv : readWord? v = some n) : v.splitOn '-' = [v] :=
    splitOn_of_not_mem (not_mem_of_readWord? (by decide) (by decide) hv)
  cases h with
  | star =>
    intro p hp
    obtain rfl := List.mem_singleton.1 hp
    exact .star
  | question =>
    intro p hp
    obtain rfl := List.mem_singleton.1 hp
    exact .question
  | @range lo hi _ _ hlo hhi =>
    rw [splitOn_append_cons, hone hlo, hone hhi, List.singleton_append, List.forall_mem_cons,
      List.forall_mem_singleton]
    exact ⟨.number hlo ha (by omega), .number hhi (by omega) hb⟩
  | single hw _ =>
    rw [hone hw, List.forall_mem_singleton]
    exact .number hw ha hb
  | rest hw _ _ =>
    rw [hone hw, List.forall_mem_singleton]
    exact .number hw ha (by omega)

theorem DenotesProgression.span (h : DenotesProgression k w a b n) :
    ∃ stepped, DenotesSpan k stepped (w.takeWhile (· != '/')) a b := by
  have hspan {stepped : Bool} {v rest : List Char} (hs : DenotesSpan k stepped v a b)
      (hrest : rest.takeWhile (· != '/') = []) : (v ++ rest).takeWhile (· != '/') = v := by
    have hv : ∀ c ∈ v, (c != '/') = true := by
      intro c hc
      rw [bne_iff_ne]
      rintro rfl
      exact hs.not_mem (by decide) (by decide) hc
    rw [List.takeWhile_append_of_pos hv, hrest, List.append_nil]
  cases h with
  | plain hs =>
    have hw := hspan hs List.takeWhile_nil
    rw [List.append_nil] at hw
    exact ⟨false, by rwa [hw]⟩
  | @stepped v ds _ _ _ hs _ =>
    have hw : (v ++ '/' :: ds).takeWhile (· != '/') = v := hspan hs (by simp)
    exact ⟨true, by rwa [hw]⟩

theorem isEndpoint_of_readTerms {ts : List Term} (hk : k ≠ .dayOfWeek) (hm : k ≠ .dayOfMonth)
    (h : readTerms k cs = .ok ts) : ∀ p ∈ endpoints cs, IsEndpoint k p := by
  intro p hp
  obtain ⟨w, hw, hp⟩ := List.mem_flatMap.1 hp
  obtain ⟨t, -, ht⟩ := exists_term_of_mem_mapM (readTerms_eq_mapM h) hw
  rw [Term.read_eq_ok_iff hk, Term.readProgression_eq_ok_iff] at ht
  obtain ⟨a, b, n, hd, ⟨ha, hab, hb⟩, -⟩ | ⟨he, -⟩ := ht
  · obtain ⟨stepped, hs⟩ := hd.span
    exact hs.isEndpoint ha hab hb p hp
  · exact absurd he hm

theorem IsEndpoint.bounds (h : IsEndpoint k p) (hd : IsDigits p) :
    ∃ n, readWord? p = some n ∧ k.min ≤ n ∧ n ≤ k.max := by
  cases h with
  | star => exact absurd (hd.2 '*' List.mem_cons_self) (by decide)
  | question => exact absurd (hd.2 '?' List.mem_cons_self) (by decide)
  | number hw hlo hhi => exact ⟨_, hw, hlo, hhi⟩

theorem IsEndpoint.isDigits (h : IsEndpoint k p) (hplus : '+' ∉ p) (hc : c ∈ p)
    (hd : c.isDigit = true) : IsDigits p := by
  cases h with
  | star =>
    rw [List.mem_singleton.1 hc] at hd
    cases hd
  | question =>
    rw [List.mem_singleton.1 hc] at hd
    cases hd
  | number hw _ _ =>
    refine ⟨List.ne_nil_of_mem hc, fun x hx => ?_⟩
    refine (isDigit_or_eq_plus_of_readWord? hw x hx).resolve_right ?_
    rintro rfl
    exact hplus hx

theorem exists_isDigits_of_numberOutsideSteps (hplus : '+' ∉ cs)
    (h : ∀ p ∈ endpoints cs, IsEndpoint k p) (hn : NumberOutsideSteps cs) :
    ∃ p ∈ endpoints cs, IsDigits p := by
  obtain ⟨w, hw, c, hc, hd⟩ := hn
  have hne : c ≠ '-' := by
    rintro rfl
    cases hd
  obtain ⟨p, hp, hcp⟩ := exists_mem_splitOn hc hne
  have hmem : p ∈ endpoints cs := List.mem_flatMap.2 ⟨w, hw, hp⟩
  have hsub : '+' ∉ p := by
    intro hx
    obtain ⟨w', hw', hx⟩ := mem_of_mem_endpoints hmem hx
    exact hplus (mem_of_mem_splitOn hw' ((List.takeWhile_prefix _).subset hx))
  exact ⟨p, hmem, (h p hmem).isDigits hsub hcp hd⟩

theorem looksLikeYears_iff : looksLikeYears cs = true ↔ (∃ p ∈ endpoints cs, IsDigits p) ∧
    ∀ p ∈ endpoints cs, IsDigits p → FieldKind.weekOfYear.max < (readWord? p).getD 0 := by
  have hdigits (p : List Char) : (!p.isEmpty && p.all Char.isDigit) = true ↔ IsDigits p := by
    simp [IsDigits]
  have hdef : looksLikeYears cs =
      let numbers := (endpoints cs).filter fun p => !p.isEmpty && p.all Char.isDigit
      !numbers.isEmpty && numbers.all fun p => FieldKind.weekOfYear.max < (readWord? p).getD 0 := rfl
  rw [hdef, Bool.and_eq_true, Bool.not_eq_true', List.isEmpty_eq_false_iff_exists_mem, List.all_eq_true]
  simp only [List.mem_filter, hdigits, decide_eq_true_eq, and_imp]

theorem numberOutsideSteps_of_looksLikeYears (h : looksLikeYears cs = true) : NumberOutsideSteps cs := by
  obtain ⟨⟨p, hp, hne, hd⟩, -⟩ := looksLikeYears_iff.1 h
  obtain ⟨c, hc⟩ := List.exists_mem_of_ne_nil p hne
  obtain ⟨w, hw, hcw⟩ := mem_of_mem_endpoints hp hc
  exact ⟨w, hw, c, hcw, hd c hc⟩

theorem looksLikeYears_of_readTerms {ts : List Term} (hplus : '+' ∉ cs) (hn : NumberOutsideSteps cs)
    (h : readTerms .year cs = .ok ts) : looksLikeYears cs = true := by
  have hend := isEndpoint_of_readTerms (by decide) (by decide) h
  refine looksLikeYears_iff.2 ⟨exists_isDigits_of_numberOutsideSteps hplus hend hn, fun p hp hd => ?_⟩
  obtain ⟨n, hw, hlo, -⟩ := (hend p hp).bounds hd
  rw [hw, Option.getD_some]
  exact Nat.lt_of_lt_of_le (by decide) hlo

theorem looksLikeYears_eq_false_of_readTerms {ts : List Term} (h : readTerms .weekOfYear cs = .ok ts) :
    looksLikeYears cs = false := by
  rw [← Bool.not_eq_true]
  intro hl
  obtain ⟨⟨p, hp, hd⟩, hlarge⟩ := looksLikeYears_iff.1 hl
  obtain ⟨n, hw, -, hhi⟩ := (isEndpoint_of_readTerms (by decide) (by decide) h p hp).bounds hd
  have := hlarge p hp hd
  rw [hw, Option.getD_some] at this
  omega

theorem exists_parse_iff_of_no_names (hk : k.valueNames = []) (hb : ∀ c ∈ cs, isBlank c = false) :
    (∃ f, Field.parse k (String.ofList cs) = .ok f) ↔ ∃ ts, readTerms k cs = .ok ts := by
  rw [Field.exists_parse_iff, String.toList_ofList, normalise, trim_of_forall hb, replaceWords_of_no_names hk,
    List.nil_append]

theorem IsWeeks.looksLikeYears_eq_false (hb : ∀ c ∈ cs, isBlank c = false) (h : IsWeeks cs) :
    looksLikeYears cs = false := by
  obtain ⟨ts, hts⟩ := (exists_parse_iff_of_no_names rfl hb).1 h
  exact looksLikeYears_eq_false_of_readTerms hts

theorem IsYears.looksLikeYears (hb : ∀ c ∈ cs, isBlank c = false) (hplus : '+' ∉ cs) (h : IsYears cs) :
    looksLikeYears cs = true := by
  obtain ⟨ts, hts⟩ := (exists_parse_iff_of_no_names rfl hb).1 h.1
  exact looksLikeYears_of_readTerms hplus h.2 hts

theorem IsWeeks.not_isYears (hb : ∀ c ∈ cs, isBlank c = false) (hplus : '+' ∉ cs) (h : IsWeeks cs) :
    ¬ IsYears cs := by
  intro hyears
  have hl := h.looksLikeYears_eq_false hb
  rw [hyears.looksLikeYears hb hplus] at hl
  cases hl

namespace Schedule

variable {s s₀ : Schedule} {text : String} {t : List Char}

theorem exists_ofFields {se mi h d mo dw : String} (hbase : BaseFields se mi h d mo dw) :
    ∃ s, ofFields se mi h d mo dw = .ok s := by
  have hread {k : FieldKind} {text : String} (h : ∃ f, Field.parse k text = .ok f) :
      ∃ f, readField k text = .ok f := h.imp fun _ hf => mapError_eq_ok_iff.2 hf
  obtain ⟨f₁, h₁⟩ := hread hbase.second
  obtain ⟨f₂, h₂⟩ := hread hbase.minute
  obtain ⟨f₃, h₃⟩ := hread hbase.hour
  obtain ⟨f₄, h₄⟩ := hread hbase.dayOfMonth
  obtain ⟨f₅, h₅⟩ := hread hbase.month
  obtain ⟨f₆, h₆⟩ := hread hbase.dayOfWeek
  simp only [ofFields, bind_eq_ok_iff]
  exact ⟨_, f₁, h₁, f₂, h₂, f₃, h₃, f₄, h₄, f₅, h₅, f₆, h₆, rfl⟩

theorem withTrailing_eq (hr : Restricted t) : s.withTrailing (String.ofList t) =
    if looksLikeYears t then s.withYear (String.ofList t) else s.withWeekOfYear (String.ofList t) := by
  rw [withTrailing, if_neg fun h => not_restricted_iff.1 h hr, String.toList_ofList]

theorem withTrailing_of_weeks {f : Field .weekOfYear} (hb : ∀ c ∈ t, isBlank c = false) (hr : Restricted t)
    (hf : Field.parse .weekOfYear (String.ofList t) = .ok f) :
    s.withTrailing (String.ofList t) = .ok { s with weekOfYear := some f } := by
  have hl : looksLikeYears t = false := IsWeeks.looksLikeYears_eq_false hb ⟨f, hf⟩
  rw [withTrailing_eq hr, hl, if_neg Bool.false_ne_true, withWeekOfYear, readField, hf]
  rfl

theorem withTrailing_of_years {f : Field .year} (hb : ∀ c ∈ t, isBlank c = false) (hplus : '+' ∉ t)
    (hr : Restricted t) (hf : Field.parse .year (String.ofList t) = .ok f) (hn : NumberOutsideSteps t) :
    s.withTrailing (String.ofList t) = .ok { s with year := some f } := by
  have hl : looksLikeYears t = true := IsYears.looksLikeYears hb hplus ⟨⟨f, hf⟩, hn⟩
  rw [withTrailing_eq hr, hl, if_pos rfl, withYear, readField, hf]
  rfl

theorem isWeeks_or_isYears_of_withTrailing (hr : Restricted t)
    (h : s₀.withTrailing (String.ofList t) = .ok s) : IsWeeks t ∨ IsYears t := by
  rw [withTrailing_eq hr] at h
  split at h
  · next hl =>
    obtain ⟨f, hf, -⟩ := map_eq_ok_iff.1 h
    exact .inr ⟨⟨f, mapError_eq_ok_iff.1 hf⟩, numberOutsideSteps_of_looksLikeYears hl⟩
  · obtain ⟨f, hf, -⟩ := map_eq_ok_iff.1 h
    exact .inl ⟨f, mapError_eq_ok_iff.1 hf⟩

/-- A seventh field is taken as weeks or years if it is a field of weeks, or one of years with a number that is
not a step. It is never both, and it is taken as what it is. -/
theorem parseCron_trailing {se mi h d mo dw : List Char} (hw : words text.toList = [se, mi, h, d, mo, dw, t])
    (hbase : BaseFields (String.ofList se) (String.ofList mi) (String.ofList h) (String.ofList d)
      (String.ofList mo) (String.ofList dw))
    (hplus : '+' ∉ t) (hr : Restricted t) :
    ((∃ s, parseCron text = .ok s) ↔ IsWeeks t ∨ IsYears t) ∧ ¬ (IsWeeks t ∧ IsYears t) ∧
    ∀ s, parseCron text = .ok s →
      (IsWeeks t → s.weekOfYear.map Field.text = some (String.ofList t) ∧ s.year = none) ∧
      (IsYears t → s.year.map Field.text = some (String.ofList t) ∧ s.weekOfYear = none) := by
  have hb : ∀ c ∈ t, isBlank c = false := by
    have hmem : t ∈ words text.toList := by simp [hw]
    exact fun c hc => isBlank_eq_false_of_mem_words hmem hc
  obtain ⟨s₀, h₀⟩ := exists_ofFields hbase
  obtain ⟨-, hyear, hweek⟩ := rest_of_ofFields h₀
  have hparse : parseCron text = s₀.withTrailing (String.ofList t) := by
    rw [parseCron, hw]
    exact congrArg (· >>= fun s => s.withTrailing (String.ofList t)) h₀
  have htext {k : FieldKind} {f : Field k} (hk : k.valueNames = [])
      (hf : Field.parse k (String.ofList t) = .ok f) : f.text = String.ofList t :=
    text_of_readField hk (by simpa using hb) (mapError_eq_ok_iff.2 hf)
  rw [hparse]
  refine ⟨⟨?_, ?_⟩, ?_, fun s hs => ⟨?_, ?_⟩⟩
  · rintro ⟨s, hs⟩
    exact isWeeks_or_isYears_of_withTrailing hr hs
  · rintro (⟨f, hf⟩ | ⟨⟨f, hf⟩, hn⟩)
    · exact ⟨_, withTrailing_of_weeks hb hr hf⟩
    · exact ⟨_, withTrailing_of_years hb hplus hr hf hn⟩
  · exact fun hboth => hboth.1.not_isYears hb hplus hboth.2
  · rintro ⟨f, hf⟩
    rw [withTrailing_of_weeks hb hr hf] at hs
    cases hs
    exact ⟨congrArg some (htext rfl hf), hyear⟩
  · rintro ⟨⟨f, hf⟩, hn⟩
    rw [withTrailing_of_years hb hplus hr hf hn] at hs
    cases hs
    exact ⟨congrArg some (htext rfl hf), hweek⟩

theorem parseCron_everyOtherYear : ∃ s, parseCron "0 30 9 ? JAN FRI#2 1999,2024-2030/2" = .ok s ∧
    s.year.map Field.text = some "1999,2024-2030/2" ∧ s.weekOfYear = none := by
  have hw : words "0 30 9 ? JAN FRI#2 1999,2024-2030/2".toList = ["0".toList, "30".toList, "9".toList,
      "?".toList, "JAN".toList, "FRI#2".toList, "1999,2024-2030/2".toList] := by decide +kernel
  have hbase : BaseFields (String.ofList "0".toList) (String.ofList "30".toList) (String.ofList "9".toList)
      (String.ofList "?".toList) (String.ofList "JAN".toList) (String.ofList "FRI#2".toList) :=
    ⟨⟨_, rfl⟩, ⟨_, rfl⟩, ⟨_, rfl⟩, ⟨_, rfl⟩, ⟨_, rfl⟩, ⟨_, rfl⟩⟩
  have hyears : IsYears "1999,2024-2030/2".toList :=
    ⟨⟨_, rfl⟩, "1999".toList, by decide, '1', by decide, by decide⟩
  obtain ⟨hread, -, hfound⟩ := parseCron_trailing hw hbase (by decide) ⟨by decide, by decide⟩
  obtain ⟨s, hs⟩ := hread.2 (.inr hyears)
  exact ⟨s, hs, (hfound s hs).2 hyears⟩

end Schedule

end Timetable
