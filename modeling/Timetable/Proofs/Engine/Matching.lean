import Timetable.Proofs.Engine.Basic
import Timetable.Proofs.Field.Denotation
import Timetable.Proofs.Schedule.Sound
import Timetable.Schedule.Parser

namespace Timetable

open Text Calendar

variable {k : FieldKind} {w word : List Char} {c : Char}

/-- Neither `*` nor `?` as it stands; `*/1` denotes every number and is restricted all the same. -/
def Restricted (w : List Char) : Prop := w ≠ ['*'] ∧ w ≠ ['?']

def DayFits (dayOfMonth dayOfWeek : List Char) (d : Date) : Prop :=
  let ofMonth := ListDenotesDay .dayOfMonth (normalise .dayOfMonth dayOfMonth) d
  let ofWeek := ListDenotesDay .dayOfWeek (normalise .dayOfWeek dayOfWeek) d
  (Restricted dayOfMonth ∧ Restricted dayOfWeek → ofMonth ∨ ofWeek) ∧
    (¬ (Restricted dayOfMonth ∧ Restricted dayOfWeek) →
      (Restricted dayOfMonth → ofMonth) ∧ (Restricted dayOfWeek → ofWeek))

def TrailingFits (trailing : List Char) (d : Date) : Prop :=
  Restricted trailing →
    if looksLikeYears trailing then
      ∃ y : Nat, d.year = y ∧ ListDenotes .year (normalise .year trailing) y
    else ListDenotes .weekOfYear (normalise .weekOfYear trailing) d.isoWeek

structure MinuteFits (minute hour dayOfMonth month dayOfWeek : List Char) (t : Int) : Prop where
  minute : ListDenotes .minute (normalise .minute minute) (minuteOf t)
  hour : ListDenotes .hour (normalise .hour hour) (hourOf t)
  month : ListDenotes .month (normalise .month month) (dateOf t).month
  day : DayFits dayOfMonth dayOfWeek (dateOf t)

/-- Whether a second of the wall clock fits the words of a plain expression. -/
def Fits (t : Int) : List (List Char) → Prop
  | [mi, h, d, mo, w] => secondOf t = 0 ∧ MinuteFits mi h d mo w t
  | [s, mi, h, d, mo, w] =>
    ListDenotes .second (normalise .second s) (secondOf t) ∧ MinuteFits mi h d mo w t
  | [s, mi, h, d, mo, w, trailing] =>
    ListDenotes .second (normalise .second s) (secondOf t) ∧ MinuteFits mi h d mo w t ∧
      TrailingFits trailing (dateOf t)
  | _ => False

theorem valueOfName_eq_or (k : FieldKind) (word : List Char) :
    valueOfName k word = word ∨ ∃ n, valueOfName k word = decimal n := by
  rw [valueOfName]
  split
  · exact .inr ⟨_, rfl⟩
  · exact .inl rfl

theorem eq_nil_of_valueOfName (h : valueOfName k word = []) : word = [] := by
  rcases valueOfName_eq_or k word with he | ⟨n, he⟩
  · rw [← he, h]
  · exact absurd (he.symm.trans h) (decimal_ne_nil n)

theorem eq_nil_of_replaceWords (h : replaceWords k word w = []) : word = [] ∧ w = [] := by
  induction w generalizing word with
  | nil => exact ⟨eq_nil_of_valueOfName h, rfl⟩
  | cons x xs ih =>
    rw [replaceWords] at h
    split at h
    · simpa using (ih h).1
    · simp at h

theorem eq_singleton_of_replaceWords (ha : c.isAlpha = false) (hd : c.isDigit = false)
    (hc : c ∉ word) (h : replaceWords k word w = [c]) : word = [] ∧ w = [c] := by
  induction w generalizing word with
  | nil =>
    rw [replaceWords] at h
    rcases valueOfName_eq_or k word with he | ⟨n, he⟩
    · rw [h] at he
      exact absurd (he ▸ List.mem_singleton.2 rfl) hc
    · have hm : c ∈ decimal n := by rw [← he, h]; exact List.mem_singleton.2 rfl
      rw [isDigit_of_mem_decimal hm] at hd
      cases hd
  | cons x xs ih =>
    rw [replaceWords] at h
    split at h
    · next hx =>
      have hne : c ≠ x := by
        rintro rfl
        rw [hx] at ha
        cases ha
      have hn := (ih (by simp [hc, hne]) h).1
      simp at hn
    · rcases List.append_eq_singleton_iff.1 h with ⟨hv, hr⟩ | ⟨-, hr⟩
      · injection hr with hx hr
        exact ⟨eq_nil_of_valueOfName hv, by rw [hx, (eq_nil_of_replaceWords hr).2]⟩
      · cases hr

theorem normalise_eq_singleton_iff (hb : ∀ x ∈ w, isBlank x = false) (hc : isFieldChar c = true)
    (ha : c.isAlpha = false) (hd : c.isDigit = false) : normalise k w = [c] ↔ w = [c] := by
  rw [normalise, trim_of_forall hb]
  constructor
  · intro h
    exact (eq_singleton_of_replaceWords ha hd List.not_mem_nil h).2
  · rintro rfl
    exact replaceWords_of_forall (by simp) (by simpa using hc)

theorem admits_iff_of_readField {f : Field k} {v : Nat} (hk : k ≠ .dayOfWeek)
    (h : readField k (String.ofList w) = .ok f) :
    f.admits v = true ↔ ListDenotes k (normalise k w) v := by
  rw [f.admits_iff hk, toList_text_of_readField h, String.toList_ofList]

theorem not_restricted_iff {w : List Char} :
    String.ofList w = "*" ∨ String.ofList w = "?" ↔ ¬ Restricted w := by
  have htext (c : Char) : String.ofList w = String.ofList [c] ↔ w = [c] := String.ofList_inj
  have hstar : String.ofList w = "*" ↔ w = ['*'] := htext '*'
  have hquestion : String.ofList w = "?" ↔ w = ['?'] := htext '?'
  simp only [hstar, hquestion, Restricted, ne_eq, Decidable.not_and_iff_or_not, Decidable.not_not]

theorem isWildcard_iff_of_readField {f : Field k} (hb : ∀ x ∈ w, isBlank x = false)
    (h : readField k (String.ofList w) = .ok f) : f.isWildcard = true ↔ ¬ Restricted w := by
  have htext {c : Char} (hc : isFieldChar c = true) (ha : c.isAlpha = false)
      (hd : c.isDigit = false) : f.text = String.ofList [c] ↔ String.ofList w = String.ofList [c] := by
    rw [← String.toList_inj, toList_text_of_readField h, String.toList_ofList, String.toList_ofList,
      normalise_eq_singleton_iff hb hc ha hd, String.ofList_inj]
  have hstar : f.text = "*" ↔ String.ofList w = "*" := htext (by decide) (by decide) (by decide)
  have hquestion : f.text = "?" ↔ String.ofList w = "?" := htext (by decide) (by decide) (by decide)
  rw [Field.isWildcard, Bool.or_eq_true, beq_iff_eq, beq_iff_eq, hstar, hquestion,
    not_restricted_iff]

theorem admits_zero_iff {f : Field .second} {v : Nat} (h : readField .second "0" = .ok f) :
    f.admits v = true ↔ v = 0 := by
  have hf : readField .second "0" = .ok ⟨"0", [.progression 0 0 1], rfl⟩ := rfl
  rw [hf] at h
  cases h
  simp [Field.admits, Term.contains, Nat.mod_one]

namespace Plan

variable {p : Plan} {mi h d mo dw : List Char} {t : Int}

structure ReadFrom (p : Plan) (mi h d mo dw : List Char) : Prop where
  minute : readField .minute (String.ofList mi) = .ok p.minute
  hour : readField .hour (String.ofList h) = .ok p.hour
  dayOfMonth : readField .dayOfMonth (String.ofList d) = .ok p.dayOfMonth
  month : readField .month (String.ofList mo) = .ok p.month
  dayOfWeek : readField .dayOfWeek (String.ofList dw) = .ok p.dayOfWeek
  not_blank : ∀ w ∈ [d, dw], ∀ c ∈ w, isBlank c = false

def admitsTrailing (p : Plan) (d : Date) : Bool :=
  p.admitsYear d.year && p.weekOfYear.all fun f => f.admits d.isoWeek

theorem admits_eq (p : Plan) (t : Int) :
    p.admits t = (p.second.admits (secondOf t) && (p.minute.admits (minuteOf t) &&
      p.hour.admits (hourOf t) && p.month.admits (dateOf t).month && p.admitsDayOf (dateOf t)) &&
      p.admitsTrailing (dateOf t)) := by
  rw [admits, admitsDate, admitsDay, admitsTrailing, Bool.eq_iff_iff]
  simp only [Bool.and_eq_true]
  constructor <;> rintro ⟨⟩ <;> simp [*] at *

theorem ReadFrom.admitsDayOf_iff (hp : p.ReadFrom mi h d mo dw) (date : Date) :
    p.admitsDayOf date = true ↔ DayFits d dw date := by
  have hm := isWildcard_iff_of_readField (hp.not_blank d (by simp)) hp.dayOfMonth
  have hw := isWildcard_iff_of_readField (hp.not_blank dw (by simp)) hp.dayOfWeek
  have hmtext := toList_text_of_readField hp.dayOfMonth
  have hwtext := toList_text_of_readField hp.dayOfWeek
  rw [String.toList_ofList] at hmtext hwtext
  rw [admitsDayOf, DayFits, ← hmtext, ← hwtext, ← p.dayOfMonth.admitsDay_iff_of_dayOfMonth,
    ← p.dayOfWeek.admitsDay_iff_of_dayOfWeek]
  cases hmw : p.dayOfMonth.isWildcard <;> cases hww : p.dayOfWeek.isWildcard <;>
    simp_all

theorem ReadFrom.minuteFits_iff (hp : p.ReadFrom mi h d mo dw) :
    (p.minute.admits (minuteOf t) && p.hour.admits (hourOf t) && p.month.admits (dateOf t).month &&
      p.admitsDayOf (dateOf t)) = true ↔ MinuteFits mi h d mo dw t := by
  have hmi := admits_iff_of_readField (v := minuteOf t) (by decide) hp.minute
  have hh := admits_iff_of_readField (v := hourOf t) (by decide) hp.hour
  have hmo := admits_iff_of_readField (v := (dateOf t).month) (by decide) hp.month
  simp only [Bool.and_eq_true, hmi, hh, hmo, hp.admitsDayOf_iff]
  constructor
  · rintro ⟨⟨⟨hmi, hh⟩, hmo⟩, hd⟩
    exact ⟨hmi, hh, hmo, hd⟩
  · rintro ⟨hmi, hh, hmo, hd⟩
    exact ⟨⟨⟨hmi, hh⟩, hmo⟩, hd⟩

end Plan

namespace Schedule

variable {s s' : Schedule} {mi h d mo dw : List Char} {second : String} {z : Zone}

def IsPlain (s : Schedule) : Prop := s.special = none ∧ s.timezone = none

theorem readFrom_of_ofFields (hb : ∀ w ∈ [d, dw], ∀ c ∈ w, isBlank c = false)
    (hs : ofFields second (String.ofList mi) (String.ofList h) (String.ofList d) (String.ofList mo)
      (String.ofList dw) = .ok s) (z : Zone) :
    readField .second second = .ok (s.plan z).second ∧ (s.plan z).ReadFrom mi h d mo dw := by
  simp only [ofFields, bind_eq_ok_iff] at hs
  obtain ⟨f₁, h₁, f₂, h₂, f₃, h₃, f₄, h₄, f₅, h₅, f₆, h₆, hs⟩ := hs
  cases hs
  exact ⟨h₁, h₂, h₃, h₄, h₅, h₆, hb⟩

theorem rest_of_ofFields {mi h d mo dw : String} (hs : ofFields second mi h d mo dw = .ok s) :
    s.IsPlain ∧ s.year = none ∧ s.weekOfYear = none := by
  simp only [ofFields, bind_eq_ok_iff] at hs
  obtain ⟨f₁, -, f₂, -, f₃, -, f₄, -, f₅, -, f₆, -, hs⟩ := hs
  cases hs
  exact ⟨⟨rfl, rfl⟩, rfl, rfl⟩

theorem admitsTrailing_of_ofFields {mi h d mo dw : String}
    (hs : ofFields second mi h d mo dw = .ok s) (z : Zone) (date : Date) :
    (s.plan z).admitsTrailing date = true := by
  obtain ⟨-, hy, hw⟩ := rest_of_ofFields hs
  simp [Plan.admitsTrailing, Plan.admitsYear, plan, hy, hw]

theorem admitsTrailing_of_withTrailing {w : List Char} (hy : s.year = none)
    (hw : s.weekOfYear = none) (hs : s.withTrailing (String.ofList w) = .ok s') (date : Date) :
    (s'.plan z).admitsTrailing date = true ↔ TrailingFits w date := by
  rw [withTrailing] at hs
  split at hs
  · next hr =>
    have hr := not_restricted_iff.1 hr
    cases hs
    simp [Plan.admitsTrailing, Plan.admitsYear, plan, hy, hw, TrailingFits, hr]
  · next hr =>
    have hr : Restricted w := Classical.not_not.1 (mt not_restricted_iff.2 hr)
    rw [String.toList_ofList] at hs
    split at hs
    · next hl =>
      obtain ⟨f, hf, rfl⟩ := map_eq_ok_iff.1 hs
      simp only [TrailingFits, hr, hl, if_true, forall_const, Plan.admitsTrailing, Plan.admitsYear, plan,
        hw, Option.all_none, Bool.and_true, Bool.and_eq_true, decide_eq_true_eq,
        admits_iff_of_readField (k := .year) (by decide) hf]
      constructor
      · rintro ⟨hnonneg, hd⟩
        exact ⟨date.year.toNat, (Int.toNat_of_nonneg hnonneg).symm, hd⟩
      · rintro ⟨y, he, hd⟩
        rw [he]
        exact ⟨Int.natCast_nonneg y, hd⟩
    · next hl =>
      obtain ⟨f, hf, rfl⟩ := map_eq_ok_iff.1 hs
      simp [TrailingFits, hr, hl, Plan.admitsTrailing, Plan.admitsYear, plan, hy,
        admits_iff_of_readField (k := .weekOfYear) (by decide) hf]

theorem isPlain_of_withTrailing {w : String} (h : s.IsPlain) (hs : s.withTrailing w = .ok s') :
    s'.IsPlain := by
  rw [withTrailing] at hs
  split at hs
  · cases hs
    exact h
  · split at hs <;> obtain ⟨f, -, rfl⟩ := map_eq_ok_iff.1 hs <;> exact h

theorem readFrom_of_withTrailing {w : String} (hs : s.withTrailing w = .ok s')
    (hp : (s.plan z).ReadFrom mi h d mo dw) :
    (s'.plan z).second = (s.plan z).second ∧ (s'.plan z).ReadFrom mi h d mo dw := by
  rw [withTrailing] at hs
  split at hs
  · cases hs
    exact ⟨rfl, hp⟩
  · split at hs <;> obtain ⟨f, -, rfl⟩ := map_eq_ok_iff.1 hs <;> exact ⟨rfl, { hp with }⟩

theorem admits_iff_fits {ws : List (List Char)} (hb : ∀ w ∈ ws, ∀ c ∈ w, isBlank c = false)
    (hn : 5 ≤ ws.length) (hs : ofWords (ws.map String.ofList) = .ok s) (z : Zone) (t : Int) :
    s.IsPlain ∧ ((s.plan z).admits t = true ↔ Fits t ws) := by
  match ws, hb, hn, hs with
  | [mi, h, d, mo, dw], hb, _, hs =>
    obtain ⟨hsecond, hread⟩ := readFrom_of_ofFields (by simp_all) hs z
    refine ⟨(rest_of_ofFields hs).1, ?_⟩
    rw [Plan.admits_eq, admitsTrailing_of_ofFields hs, Bool.and_true, Bool.and_eq_true,
      hread.minuteFits_iff, admits_zero_iff hsecond]
    rfl
  | [se, mi, h, d, mo, dw], hb, _, hs =>
    obtain ⟨hsecond, hread⟩ := readFrom_of_ofFields (by simp_all) hs z
    refine ⟨(rest_of_ofFields hs).1, ?_⟩
    rw [Plan.admits_eq, admitsTrailing_of_ofFields hs, Bool.and_true, Bool.and_eq_true,
      hread.minuteFits_iff, admits_iff_of_readField (by decide) hsecond]
    rfl
  | [se, mi, h, d, mo, dw, trailing], hb, _, hs =>
    obtain ⟨s₀, h₀, hs⟩ := bind_eq_ok_iff.1 hs
    obtain ⟨hplain, hyear, hweek⟩ := rest_of_ofFields h₀
    obtain ⟨hsecond, hread⟩ := readFrom_of_ofFields (by simp_all) h₀ z
    obtain ⟨he, hread⟩ := readFrom_of_withTrailing hs hread
    refine ⟨isPlain_of_withTrailing hplain hs, ?_⟩
    rw [Plan.admits_eq, Bool.and_eq_true, Bool.and_eq_true, hread.minuteFits_iff,
      admitsTrailing_of_withTrailing hyear hweek hs, he, admits_iff_of_readField (by decide) hsecond,
      and_assoc]
    rfl
  | _ :: _ :: _ :: _ :: _ :: _ :: _ :: _ :: _, _, _, hs => cases hs
  | [], _, hn, _ | [_], _, hn, _ | [_, _], _, hn, _ | [_, _, _], _, hn, _ | [_, _, _, _], _, hn, _ =>
    exact absurd hn (by simp)

end Schedule

namespace Engine

/-- It is decided whether an instant matches, and it does exactly if the second that the engine's clocks
show fits the words. -/
def DecidesFit (e : Engine) (s : Schedule) (t : Instant) (ws : List (List Char)) : Prop :=
  ∃ b, e.isMatch s t = .ok b ∧ (b = true ↔ Fits (e.timezone.zone.wallAt t).second ws)

theorem isMatch_iff_fits {text : String} {s : Schedule} (hs : Schedule.parseCron text = .ok s)
    (hn : 5 ≤ (words text.toList).length) (e : Engine) (t : Instant) :
    (e.DecidesFit s t (words text.toList) ↔ (e.timezone.zone.wallAt t).InRange) ∧
      (e.isMatch s t = .outOfRange ↔ ¬ (e.timezone.zone.wallAt t).InRange) := by
  have hb : ∀ w ∈ words text.toList, ∀ c ∈ w, isBlank c = false :=
    fun w hw c hc => isBlank_eq_false_of_mem_words hw hc
  obtain ⟨⟨hspecial, hzone⟩, hfits⟩ :=
    Schedule.admits_iff_fits hb hn hs e.timezone.zone (e.timezone.zone.wallAt t).second
  have hz : e.timezoneOf s = e.timezone := by rw [timezoneOf, hzone]; rfl
  refine ⟨⟨?_, fun hin => ⟨_, isMatch_of_inRange hspecial (hz.symm ▸ hin), ?_⟩⟩, ?_⟩
  · rintro ⟨b, hdecided, -⟩
    have hin := ((isMatch_eq_ok_iff hspecial).1 hdecided).1
    rwa [hz] at hin
  · rw [hz]
    exact hfits
  · rw [isMatch_eq_outOfRange_iff hspecial, hz]

def fridayThirteenth : Instant := ⟨1726220430, 250000000, by decide⟩ -- 2024-09-13T09:40:30.25Z

theorem isMatch_fridayThirteenth :
    ∃ s, Schedule.parseCron "30 0/20 9-17 31 JAN,sep FRI#2,6L 2024-2032/4" = .ok s ∧
      default.isMatch s fridayThirteenth = .ok true ∧
      5 ≤ (words "30 0/20 9-17 31 JAN,sep FRI#2,6L 2024-2032/4".toList).length ∧
      (default.timezone.zone.wallAt fridayThirteenth).InRange ∧
      default.DecidesFit s fridayThirteenth
        (words "30 0/20 9-17 31 JAN,sep FRI#2,6L 2024-2032/4".toList) := by
  have hread : (Schedule.parseCron "30 0/20 9-17 31 JAN,sep FRI#2,6L 2024-2032/4").map
      (default.isMatch · fridayThirteenth) = .ok (.ok true) := by rfl
  have hn : 5 ≤ (words "30 0/20 9-17 31 JAN,sep FRI#2,6L 2024-2032/4".toList).length := by decide +kernel
  have hin : (default.timezone.zone.wallAt fridayThirteenth).InRange := by decide
  obtain ⟨s, hs, hm⟩ := map_eq_ok_iff.1 hread
  exact ⟨s, hs, hm, hn, hin, (isMatch_iff_fits hs hn default fridayThirteenth).1.2 hin⟩

theorem not_decidesFit_lastHour : ∃ s, Schedule.parseCron "* * * * *" = .ok s ∧
    Fits (inKolkata.timezone.zone.wallAt lastHour).second (words "* * * * *".toList) ∧
    inKolkata.isMatch s lastHour = .outOfRange ∧
    ¬ inKolkata.DecidesFit s lastHour (words "* * * * *".toList) := by
  have hread : (Schedule.parseCron "* * * * *").map (fun s => (inKolkata.isMatch s lastHour,
      (s.plan Zone.kolkata).admits (Zone.kolkata.wallAt lastHour).second)) =
        .ok (.outOfRange, true) := by rfl
  obtain ⟨s, hs, hm⟩ := map_eq_ok_iff.1 hread
  obtain ⟨hmatch, hadmits⟩ := Prod.mk.inj hm
  have hblank : ∀ w ∈ words "* * * * *".toList, ∀ c ∈ w, isBlank c = false :=
    fun _ hw _ hc => isBlank_eq_false_of_mem_words hw hc
  have hfits := Schedule.admits_iff_fits hblank (by decide) hs Zone.kolkata
    (Zone.kolkata.wallAt lastHour).second
  refine ⟨s, hs, hfits.2.1 hadmits, hmatch, ?_⟩
  rintro ⟨b, hb, -⟩
  cases hmatch.symm.trans hb

end Engine

end Timetable
