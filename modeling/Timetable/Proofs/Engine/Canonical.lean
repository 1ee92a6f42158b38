import Timetable.Proofs.Engine.Compile
import Timetable.Proofs.Engine.Matching
import Timetable.Proofs.Schedule.Agreement

namespace Timetable

open Text Calendar

theorem Calendar.Date.isoWeek_bounds (d : Date) : 1 ≤ d.isoWeek ∧ d.isoWeek ≤ 53 := by
  have h₁ := yearStart_yearOf_le (d.number - d.daysFromMonday + 3)
  have h₂ := lt_yearStart_yearOf_succ (d.number - d.daysFromMonday + 3)
  rw [yearStart_succ] at h₂
  rw [Date.isoWeek]
  split at h₂ <;> omega

namespace Field

variable {k : FieldKind}

theorem eq_of_text_eq {f g : Field k} (h : f.text = g.text) : f = g := by
  have hf := f.readField_text
  rw [h, g.readField_text] at hf
  exact (Except.ok.inj hf).symm

theorem admits_any {v : Nat} (h₁ : k.min ≤ v) (h₂ : v ≤ k.openEnd) : (any k).admits v = true := by
  simp [admits, any, Term.contains, h₁, h₂, Nat.mod_one]

end Field

theorem admits_of_admits_second_year {f : Field .year} {g : Field .weekOfYear}
    (hg : readField .weekOfYear f.text = .ok g) (hf : f.admits 1971 = true) {v : Nat} (h₁ : 1 ≤ v)
    (h₂ : v ≤ 53) : g.admits v = true := by
  have htext : g.text = f.text := text_of_readField rfl f.isBlank_eq_false hg
  obtain ⟨w, hw, a, b, n, hd, ha, hb, hn⟩ := (f.admits_iff (by decide)).1 hf
  have hadmits {u : Nat} (h : Denotes .weekOfYear w u) : g.admits u = true := by
    rw [g.admits_iff (by decide), htext]
    exact ⟨w, hw, h⟩
  rcases hd.wildcard_or (Nat.le_trans ha hb) .weekOfYear with ⟨rfl, hd'⟩ | ⟨b', hab', hd'⟩
  · have hone : n = 1 := Nat.dvd_one.1 hn
    subst hone
    exact hadmits ⟨1, 53, 1, hd', h₁, h₂, Nat.one_dvd _⟩
  · -- the number is a year, so it is no week
    have hyear : f.admits a = true :=
      (f.admits_iff (by decide)).2 ⟨w, hw, a, b, n, hd, Nat.le_refl a, Nat.le_trans ha hb, by simp⟩
    have hweek : g.admits a = true := hadmits ⟨a, b', n, hd', Nat.le_refl a, hab', by simp⟩
    have hlow : 1970 ≤ a := (Field.bounds_of_admits hyear).1
    have hhigh : a ≤ 53 := (Field.bounds_of_admits hweek).2
    omega

namespace Schedule

variable {s r : Schedule}

def InYears (d : Date) : Prop := 1970 ≤ d.year ∧ d.year ≤ 9999

/-- The years keep their meaning in the seventh place of a text: nothing constrains them, their numbers
tell them from weeks, or they are read as weeks, all of which belong to them as all years do. -/
def YearKept (s : Schedule) : Prop :=
  ∀ f, s.year = some f → f.text = "*" ∨ looksLikeYears f.text.toList = true ∨
    (s.weekOfYear = none ∧ (∃ g, readField .weekOfYear f.text = .ok g) ∧
      ∀ y, 1970 ≤ y → y ≤ 9999 → f.admits y = true)

/-- The bound of the sessions can be read from a text and is not an additive one with a calendar
length. -/
def BoundRead (s : Schedule) : Prop :=
  ∀ d, s.endOfDuration = some d → (∃ text, Duration.parse text = .ok d) ∧
    (d.reference.isAnchored = true ∨ d.hasCalendarLength = false)

/-- Every engine answers alike for both schedules, as far as years can be told by a field. -/
def SameAnswers (s s' : Schedule) : Prop :=
  ∀ (e : Engine) (t : Instant),
    (InYears (dateOf ((e.timezoneOf s).zone.wallAt t).second) → e.isMatch s' t = e.isMatch s t) ∧
      e.endOf s' t = e.endOf s t

def KeepsMeaning [TimezoneDatabase] (s : Schedule) : Prop :=
  ∃ x s', Expression.parse s.canonical = .ok x ∧ x.schedule? = some s' ∧ SameAnswers s s'

theorem clausesReread_of_boundRead [TimezoneDatabase] (hz : s.TimezoneKnown) (hd : s.BoundRead) : s.ClausesReread := by
  refine ⟨hz, fun d hs => ?_⟩
  obtain ⟨⟨text, ht⟩, hlength⟩ := hd d hs
  rw [Duration.parse_canonical (Duration.wellFormed_of_parse ht), Duration.reread_eq_self hlength]

def SameTrailing (s r : Schedule) : Prop :=
  ∀ z d, InYears d → (r.plan z).admitsTrailing d = (s.plan z).admitsTrailing d

theorem admitsYear_of_admits_all {f : Field .year} (hy : s.year = some f) {d : Date} (hd : InYears d)
    (h : ∀ y, 1970 ≤ y → y ≤ 9999 → f.admits y = true) (z : Zone) :
    (s.plan z).admitsYear d.year = true := by
  obtain ⟨h₁, h₂⟩ := hd
  have hf := h d.year.toNat (by omega) (by omega)
  simp only [Plan.admitsYear, plan, hy, hf, Bool.and_true, decide_eq_true_eq]
  omega

theorem admits_all_of_star {f : Field .year} (h : f.text = "*") {y : Nat} (h₁ : 1970 ≤ y)
    (h₂ : y ≤ 9999) : f.admits y = true := by
  have hf : f = .any .year := Field.eq_of_text_eq h
  rw [hf]
  exact Field.admits_any h₁ h₂

theorem exists_baseReadAs (h : s.YearKept) : ∃ y w,
    s.BaseReadAs { s.filled with year := y, weekOfYear := w } ∧
      s.SameTrailing ({ s.filled with year := y, weekOfYear := w }.withClausesOf s) := by
  by_cases hyears : ∀ f, s.year = some f → looksLikeYears f.text.toList = true
  · refine ⟨s.year, none, ⟨ofWords_baseWords hyears, .inr rfl, rfl, rfl⟩, fun z d _ => ?_⟩
    simp [Plan.admitsTrailing, Plan.admitsYear, plan, withClausesOf]
  · obtain ⟨f, hf, hl⟩ : ∃ f, s.year = some f ∧ looksLikeYears f.text.toList ≠ true := by
      simpa only [Classical.not_forall, exists_prop] using hyears
    have hall : ∀ y, 1970 ≤ y → y ≤ 9999 → f.admits y = true := by
      rcases h f hf with hstar | hyear | ⟨-, -, hall⟩
      · exact fun y => admits_all_of_star hstar
      · exact absurd hyear hl
      · exact hall
    have hwords := ofWords_baseWords_of_year hf
    by_cases hstar : f.text = "*" ∨ f.text = "?"
    · rw [withTrailing, if_pos hstar] at hwords
      refine ⟨none, none, ⟨hwords, .inr rfl, rfl, rfl⟩, fun z d hd => ?_⟩
      have hyear := admitsYear_of_admits_all hf hd hall z
      simp [Plan.admitsTrailing, hyear]
      simp [Plan.admitsYear, plan, withClausesOf]
    · obtain ⟨hweeks, ⟨g, hg⟩, -⟩ : s.weekOfYear = none ∧
          (∃ g, readField .weekOfYear f.text = .ok g) ∧ _ :=
        ((h f hf).resolve_left fun he => hstar (.inl he)).resolve_left hl
      rw [withTrailing, if_neg hstar, if_neg hl, withWeekOfYear, hg] at hwords
      refine ⟨none, some g, ⟨hwords, .inl hweeks, rfl, rfl⟩, fun z d hd => ?_⟩
      have hyear := admitsYear_of_admits_all hf hd hall z
      have hweek : g.admits d.isoWeek = true :=
        admits_of_admits_second_year hg (hall 1971 (by decide) (by decide)) d.isoWeek_bounds.1
          d.isoWeek_bounds.2
      simp [Plan.admitsTrailing, hyear]
      simp [Plan.admitsYear, plan, withClausesOf, hweeks, hweek]

theorem admits_plan_congr {y : Option (Field .year)} {w : Option (Field .weekOfYear)} {z : Zone}
    {t : Int} (h : s.SameTrailing ({ s.filled with year := y, weekOfYear := w }.withClausesOf s))
    (ht : InYears (dateOf t)) :
    (({ s.filled with year := y, weekOfYear := w }.withClausesOf s).plan z).admits t =
      (s.plan z).admits t := by
  rw [Plan.admits_eq, Plan.admits_eq, h z (dateOf t) ht]
  rfl

theorem keepsMeaning_of_calendar [TimezoneDatabase] (hz : s.TimezoneKnown) (hd : s.BoundRead) (hs : s.special = none)
    (hy : s.YearKept) : s.KeepsMeaning := by
  obtain ⟨y, w, hbase, hsame⟩ := exists_baseReadAs hy
  refine ⟨_, _, Expression.parse_canonical_of_base (clausesReread_of_boundRead hz hd) hbase hs,
    Expression.schedule?_ofSchedule _, fun e t => ⟨fun ht => ?_, rfl⟩⟩
  rw [Engine.isMatch_eq rfl, Engine.isMatch_eq hs]
  exact congrArg (fun b => if ((e.timezoneOf s).zone.wallAt t).InRange then Outcome.ok b
    else .outOfRange) (admits_plan_congr hsame ht)

theorem parse_canonical_of_reboot [TimezoneDatabase] (hs : s.special = some .reboot) :
    Expression.parse s.canonical = .ok (.cron reboot) := by
  have hcanonical : s.canonical = "@reboot" := by
    rw [canonical, canonicalText, hs]
    rfl
  have hread : parseCron "@reboot" = .ok reboot := rfl
  rw [hcanonical, Expression.parse_of_parseCron hread]
  rfl

theorem isMatch_of_reboot {e : Engine} {t : Instant} (hs : s.special = some .reboot) :
    e.isMatch s t = .ok false := by
  rw [Engine.isMatch, Engine.plan, hs]

theorem keepsMeaning_of_reboot [TimezoneDatabase] (hs : s.special = some .reboot) (hb : s.endOfDuration = none) :
    s.KeepsMeaning := by
  refine ⟨_, reboot, parse_canonical_of_reboot hs, rfl, fun e t => ⟨fun _ => ?_, ?_⟩⟩
  · rw [isMatch_of_reboot hs, isMatch_of_reboot rfl]
  · rw [Engine.endOf, Engine.endOf, hb]
    rfl

/-- The canonical text keeps the meaning of every schedule that can be obtained if its years keep theirs
and it does not bound sessions that begin with the host. Of a schedule that waits for its host it is read
as the bare marker, which does not match any instant either. -/
theorem keepsMeaning_of_obtainable [TimezoneDatabase] (h : s.Obtainable) (hd : s.BoundRead) :
    ((s.special = none → s.YearKept) ∧ (s.special = some .reboot → s.endOfDuration = none) →
      s.KeepsMeaning) ∧
    (s.special = some .reboot → Expression.parse s.canonical = .ok (.cron reboot) ∧
      ∀ (e : Engine) t, e.isMatch reboot t = e.isMatch s t) := by
  constructor
  · rintro ⟨hyear, hbound⟩
    by_cases hs : s.special = none
    · exact keepsMeaning_of_calendar h.timezoneKnown hd hs (hyear hs)
    · have hr := Engine.special_of_ne_none hs
      exact keepsMeaning_of_reboot hr (hbound hr)
  · intro hs
    refine ⟨parse_canonical_of_reboot hs, fun e t => ?_⟩
    rw [isMatch_of_reboot hs, isMatch_of_reboot rfl]

def eightHours : Duration := { Duration.ending .stop with hours := 8 }

theorem boundRead_eightHours : (s.withEndOfDuration eightHours).BoundRead := by
  intro d hd
  cases hd
  exact ⟨⟨"E8H", by rfl⟩, .inr rfl⟩

def leapYears : Except Error Schedule := do
  let s ← ({} : Schedule).withYear "2024-2048/4"
  let s ← s.withWeekOfYear "1-8"
  return s.withEndOfDuration eightHours

theorem keepsMeaning_leapYears : ∃ s, leapYears = .ok s ∧ s.Obtainable ∧ s.BoundRead ∧
    ((s.special = none → s.YearKept) ∧ (s.special = some .reboot → s.endOfDuration = none)) ∧
    s.canonical = "* * * * * * 2024-2048/4 WOY:1-8 EOD:E8H" ∧ s.KeepsMeaning := by
  have hread : leapYears.map (fun s => (s.special, s.year.map Field.text, s.canonical)) =
      .ok (none, some "2024-2048/4", "* * * * * * 2024-2048/4 WOY:1-8 EOD:E8H") := by rfl
  obtain ⟨s, hs, he⟩ := map_eq_ok_iff.1 hread
  simp only [Prod.mk.injEq] at he
  obtain ⟨hspecial, hyear, htext⟩ := he
  have hleap := hs
  obtain ⟨s₁, h₁, h⟩ := bind_eq_ok_iff.1 hs
  obtain ⟨s₂, h₂, h⟩ := bind_eq_ok_iff.1 h
  cases h
  have hobtained : (s₂.withEndOfDuration eightHours).Obtainable :=
    .withEndOfDuration _ (.withWeekOfYear (.withYear .default h₁) h₂)
  have hkept : (s₂.withEndOfDuration eightHours).YearKept := by
    intro f hf
    rw [hf, Option.map_some, Option.some.injEq] at hyear
    rw [hyear]
    exact .inr (.inl (by decide))
  have hcases : ((s₂.withEndOfDuration eightHours).special = none →
      (s₂.withEndOfDuration eightHours).YearKept) ∧
      ((s₂.withEndOfDuration eightHours).special = some .reboot →
        (s₂.withEndOfDuration eightHours).endOfDuration = none) := by
    refine ⟨fun _ => hkept, fun hr => ?_⟩
    cases hspecial.symm.trans hr
  exact ⟨_, hleap, hobtained, boundRead_eightHours, hcases, htext,
    (keepsMeaning_of_obtainable hobtained boundRead_eightHours).1 hcases⟩

def LosesMeaning [TimezoneDatabase] (s : Schedule) (text : String) : Prop :=
  s.Obtainable ∧ s.BoundRead ∧ s.canonical = text ∧ ¬ s.KeepsMeaning

theorem boundRead_of_none (h : s.endOfDuration = none) : s.BoundRead := by
  intro d hd
  cases h.symm.trans hd

theorem losesMeaning_reboot : (reboot.withEndOfDuration eightHours).LosesMeaning "@reboot" := by
  refine ⟨.withEndOfDuration _ .reboot, boundRead_eightHours, rfl, ?_⟩
  rintro ⟨x, s', hp, hx, h⟩
  rw [parse_canonical_of_reboot rfl] at hp
  cases hp
  cases hx
  have hend := (h Engine.default (.ofSecond 0)).2
  cases hend

def firstWeek : Instant := .ofSecond 31881600 -- 1971-01-05T00:00:00Z

theorem losesMeaning_fourthYear :
    ∃ s, ({} : Schedule).withYear "*/4" = .ok s ∧ s.LosesMeaning "* * * * * * */4" := by
  have hread : (({} : Schedule).withYear "*/4").map (fun s => (s.endOfDuration, s.canonical,
      Engine.default.isMatch s firstWeek)) = .ok (none, "* * * * * * */4", .ok false) := by rfl
  have hweeks : (parseCron "* * * * * * */4").map (Engine.default.isMatch · firstWeek) =
      .ok (.ok true) := by rfl
  have hyears : InYears (dateOf (Timezone.utc.zone.wallAt firstWeek).second) := by
    constructor <;> decide +kernel
  obtain ⟨s, hs, he⟩ := map_eq_ok_iff.1 hread
  obtain ⟨r, hr, hmatch⟩ := map_eq_ok_iff.1 hweeks
  simp only [Prod.mk.injEq] at he
  obtain ⟨hbound, htext, hnomatch⟩ := he
  refine ⟨s, hs, .withYear .default hs, boundRead_of_none hbound, htext, ?_⟩
  rintro ⟨x, s', hp, hx, hsame⟩
  rw [htext, Expression.parse_of_parseCron hr] at hp
  cases hp
  rw [Expression.schedule?_ofSchedule] at hx
  cases hx
  obtain ⟨f, -, rfl⟩ := map_eq_ok_iff.1 hs
  have hmatches := (hsame Engine.default firstWeek).1 hyears
  rw [hmatch, hnomatch] at hmatches
  cases hmatches

theorem losesMeaning_signedYear :
    ∃ s, ({} : Schedule).withYear "+2024" = .ok s ∧ s.LosesMeaning "* * * * * * +2024" := by
  have hread : (({} : Schedule).withYear "+2024").map (fun s => (s.endOfDuration, s.canonical)) =
      .ok (none, "* * * * * * +2024") := by rfl
  have herror : (Expression.parse "* * * * * * +2024").toBool = false := by decide +kernel
  obtain ⟨s, hs, he⟩ := map_eq_ok_iff.1 hread
  simp only [Prod.mk.injEq] at he
  obtain ⟨hbound, htext⟩ := he
  refine ⟨s, hs, .withYear .default hs, boundRead_of_none hbound, htext, ?_⟩
  rintro ⟨x, s', hp, -⟩
  rw [htext] at hp
  rw [hp] at herror
  cases herror

theorem not_keepsMeaning_always :
    (reboot.withEndOfDuration eightHours).LosesMeaning "@reboot" ∧
      (∃ s, ({} : Schedule).withYear "*/4" = .ok s ∧ s.LosesMeaning "* * * * * * */4") ∧
      ∃ s, ({} : Schedule).withYear "+2024" = .ok s ∧ s.LosesMeaning "* * * * * * +2024" :=
  ⟨losesMeaning_reboot, losesMeaning_fourthYear, losesMeaning_signedYear⟩

end Schedule

end Timetable
