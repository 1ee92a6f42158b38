import Mathlib.Data.String.Basic
import Timetable.Calendar.Rfc3339
import Timetable.Proofs.Result
import Timetable.Proofs.Search.Horizon

namespace Timetable

open Calendar Text

namespace Text

variable {w n : Nat} {c : Char}

theorem length_paddedDecimal (hw : 0 < w) (h : n < 10 ^ w) :
    (paddedDecimal w n).length = w := by
  have hlength : (decimal n).length ≤ w := (Nat.length_toDigits_le_iff (by decide) hw).2 h
  rw [paddedDecimal, List.length_leftpad]
  omega

theorem isDigit_of_mem_paddedDecimal (h : c ∈ paddedDecimal w n) : c.isDigit = true := by
  rw [paddedDecimal, List.leftpad, List.mem_append] at h
  rcases h with h | h
  · rw [List.eq_of_mem_replicate h]
    decide
  · exact isDigit_of_mem_decimal h

theorem not_mem_paddedDecimal (hc : c.isDigit = false) : c ∉ paddedDecimal w n := by
  intro h
  rw [isDigit_of_mem_paddedDecimal h] at hc
  cases hc

theorem paddedDecimal_ne_nil (w n : Nat) : paddedDecimal w n ≠ [] := by
  rw [paddedDecimal, List.leftpad]
  exact List.append_ne_nil_of_right_ne_nil _ (decimal_ne_nil n)

theorem ofDigitChars_paddedDecimal (w n : Nat) :
    Nat.ofDigitChars 10 (paddedDecimal w n) 0 = n := by
  rw [paddedDecimal, List.leftpad, Nat.ofDigitChars_append, Nat.ofDigitChars_replicate_zero,
    Nat.mul_zero, decimal, Nat.ofDigitChars_ten_toDigits]

theorem digitsValue?_paddedDecimal (w n : Nat) :
    digitsValue? (paddedDecimal w n) = some n := by
  have hall : (paddedDecimal w n).all Char.isDigit = true :=
    List.all_eq_true.2 fun _ => isDigit_of_mem_paddedDecimal
  have hne : (paddedDecimal w n).isEmpty = false :=
    List.isEmpty_eq_false_iff.2 (paddedDecimal_ne_nil w n)
  simp [digitsValue?, hall, hne, ofDigitChars_paddedDecimal]

theorem ofDigitChars_lt {cs : List Char} (h : ∀ c ∈ cs, c.isDigit = true) (v : Nat) :
    Nat.ofDigitChars 10 cs v < (v + 1) * 10 ^ cs.length := by
  induction cs generalizing v with
  | nil => simp [Nat.ofDigitChars]
  | cons c cs ih =>
    obtain ⟨hc, hcs⟩ := List.forall_mem_cons.1 h
    have hdigit : c.toNat - '0'.toNat ≤ 9 := by
      simp only [Char.isDigit, Bool.and_eq_true, decide_eq_true_eq, UInt32.le_iff_toNat_le] at hc
      have hnine : c.toNat ≤ 57 := hc.2
      have hzero : '0'.toNat = 48 := rfl
      omega
    rw [Nat.ofDigitChars_cons]
    calc Nat.ofDigitChars 10 cs (10 * v + (c.toNat - '0'.toNat))
        < (10 * v + (c.toNat - '0'.toNat) + 1) * 10 ^ cs.length := ih hcs _
      _ ≤ (10 * (v + 1)) * 10 ^ cs.length := Nat.mul_le_mul_right _ (by omega)
      _ = (v + 1) * 10 ^ (c :: cs).length := by
        rw [List.length_cons, Nat.pow_succ, Nat.mul_comm 10, Nat.mul_assoc, Nat.mul_comm 10]

theorem digitsValue?_lt {cs : List Char} {v : Nat} (h : digitsValue? cs = some v) :
    v < 10 ^ cs.length := by
  rw [digitsValue?] at h
  split at h
  · next hd =>
    cases h
    simp only [Bool.and_eq_true, List.all_eq_true] at hd
    have hlt := ofDigitChars_lt hd.2 0
    omega
  · cases h

theorem length_le_utf8ByteSize (cs : List Char) : cs.length ≤ (String.ofList cs).utf8ByteSize := by
  rw [String.utf8ByteSize_ofList]
  induction cs with
  | nil => exact Nat.le_refl _
  | cons c cs ih =>
    have := c.utf8Size_pos
    rw [String.utf8Len_cons, List.length_cons]
    omega

end Text

namespace Calendar

variable {w n : Nat} {rest : List Char}

theorem takeDigits?_paddedDecimal (hw : 0 < w) (h : n < 10 ^ w) (rest : List Char) :
    takeDigits? w (paddedDecimal w n ++ rest) = some (n, rest) := by
  have hlength := length_paddedDecimal hw h
  rw [takeDigits?, List.take_left' hlength, List.drop_left' hlength, digitsValue?_paddedDecimal,
    Option.bind_some, if_pos (by rw [List.length_append]; omega)]

theorem takeDigits?_lt {cs : List Char} {v : Nat} (h : takeDigits? w cs = some (v, rest)) :
    v < 10 ^ w := by
  obtain ⟨u, hu, h⟩ := Option.bind_eq_some_iff.1 h
  split at h
  · next hlength =>
    cases h
    have hlt := digitsValue?_lt hu
    rwa [List.length_take, Nat.min_eq_left hlength] at hlt
  · cases h

theorem nanosOfDigits_paddedDecimal (hw : 0 < w) (hw' : w ≤ 9) (h : n < 10 ^ w) :
    nanosOfDigits (paddedDecimal w n) = 10 ^ (9 - w) * n := by
  have hlength := length_paddedDecimal hw h
  have hcut : (paddedDecimal w n ++ List.replicate 9 '0').take 9 =
      paddedDecimal w n ++ List.replicate (9 - w) '0' := by
    rw [List.take_append, hlength, List.take_of_length_le (by omega), List.take_replicate,
      Nat.min_eq_left (by omega)]
  rw [nanosOfDigits, hcut, Nat.ofDigitChars_append, ofDigitChars_paddedDecimal,
    Nat.ofDigitChars_replicate_zero]

theorem takeNanos_paddedDecimal (hw : 0 < w) (hw' : w ≤ 9) (h : n < 10 ^ w)
    {c : Char} (hc : c.isDigit = false) (cs : List Char) :
    takeNanos (paddedDecimal w n ++ c :: cs) =
      (Fin.ofNat 1000000000 (10 ^ (9 - w) * n), c :: cs) := by
  have hall : ∀ d ∈ paddedDecimal w n, d.isDigit = true :=
    fun _ => isDigit_of_mem_paddedDecimal
  rw [takeNanos, List.takeWhile_append_of_pos hall, List.dropWhile_append_of_pos hall,
    List.takeWhile_cons_of_neg (by simp [hc]), List.dropWhile_cons_of_neg (by simp [hc]),
    List.append_nil, nanosOfDigits_paddedDecimal hw hw' h]

namespace Reading

variable {c : Clock} {r : Reading c}

def LeapEndsMinute (r : Reading c) : Prop := r.isLeap = true → r.second % 60 = 59

instance (r : Reading c) : Decidable r.LeapEndsMinute := inferInstanceAs (Decidable (_ → _))

def face (r : Reading c) : ClockFace :=
  ⟨r.secondOfDay / 3600, r.secondOfDay / 60 % 60,
    if r.isLeap then r.secondOfDay % 60 + 1 else r.secondOfDay % 60⟩

def fraction (r : Reading c) : Nat := if r.isLeap then r.nano - nanosPerSecond else r.nano

theorem valid_face (r : Reading c) : r.face.Valid := by
  have hday := r.secondOfDay_lt
  simp only [ClockFace.Valid, face]
  split <;> omega

theorem fraction_lt (r : Reading c) : r.fraction < 1000000000 := by
  have hnano := r.nano_lt
  have hN : nanosPerSecond = 1000000000 := rfl
  rw [fraction]
  split
  · omega
  · next h =>
    rw [isLeap, decide_eq_true_eq] at h
    omega

theorem timeText_eq (r : Reading c) : r.timeText = paddedDecimal 2 r.face.hour ++
    ':' :: paddedDecimal 2 r.face.minute ++ ':' :: paddedDecimal 2 r.face.second ++
      fractionText r.fraction := rfl

theorem onDate_face (h : r.LeapEndsMinute) {n : Fin 1000000000} (hn : n.val = r.fraction) :
    r.face.onDate r.date n c = r := by
  have hN : nanosPerSecond = 1000000000 := rfl
  simp only [eq_iff, ClockFace.onDate, hn]
  cases hl : r.isLeap with
  | true =>
    have hend := h hl
    have hle : nanosPerSecond ≤ r.nano := by simpa [isLeap] using hl
    have hsecond : r.face.second = 60 := by
      simp only [face, hl, if_true, secondOfDay, secondsPerDay]
      omega
    simp only [ClockFace.isLeap, ClockFace.secondOfDay, hsecond, fraction, hl]
    simp only [face, secondOfDay, date, dateOf, dayStart, secondsPerDay]
    constructor
    · omega
    · simp
      omega
  | false =>
    have hsecond : r.face.second = r.secondOfDay % 60 := by simp [face, hl]
    have hplain : r.face.isLeap = false := by
      simp only [ClockFace.isLeap, hsecond, decide_eq_false_iff_not]
      omega
    simp only [hplain, ClockFace.secondOfDay, hsecond, fraction, hl]
    simp only [face, secondOfDay, date, dateOf, dayStart, secondsPerDay]
    constructor
    · omega
    · simp

end Reading

theorem takeClockFace?_timeText {c : Clock} (r : Reading c) (rest : List Char) :
    takeClockFace? (r.timeText ++ rest) = some (r.face, fractionText r.fraction ++ rest) := by
  obtain ⟨hhour, hminute, hsecond⟩ := r.valid_face
  have hhour := takeDigits?_paddedDecimal (w := 2) (n := r.face.hour) (by decide) (by omega)
  have hminute := takeDigits?_paddedDecimal (w := 2) (n := r.face.minute) (by decide) (by omega)
  have hsecond := takeDigits?_paddedDecimal (w := 2) (n := r.face.second) (by decide) (by omega)
  simp [Reading.timeText_eq, takeClockFace?, expect?, hhour, hminute, hsecond]

theorem fractionText_cases (hn : n < 1000000000) : (n = 0 ∧ fractionText n = []) ∨
    ∃ w k, 0 < w ∧ w ≤ 9 ∧ k < 10 ^ w ∧ 10 ^ (9 - w) * k = n ∧
      fractionText n = '.' :: paddedDecimal w k := by
  rw [fractionText]
  split
  · exact .inl ⟨‹_›, rfl⟩
  split
  · exact .inr ⟨3, n / 1000000, by decide, by decide, by omega, by omega, rfl⟩
  split
  · exact .inr ⟨6, n / 1000, by decide, by decide, by omega, by omega, rfl⟩
  · exact .inr ⟨9, n, by decide, by decide, by omega, by omega, rfl⟩

namespace Stamp

theorem takeStampTime_of_digits {face : ClockFace} {cs ds : List Char} (hv : face.Valid)
    (hc : takeClockFace? cs = some (face, '.' :: ds ++ rest)) (hne : ds ≠ [])
    (hd : ∀ c ∈ ds, c.isDigit = true) : takeStampTime cs =
      .ok ((face, (takeNanos (ds ++ rest)).1), (takeNanos (ds ++ rest)).2) := by
  obtain ⟨c, ds, rfl⟩ := List.exists_cons_of_ne_nil hne
  have hdigit := hd c List.mem_cons_self
  rw [takeStampTime, hc]
  refine bind_eq_ok_iff.2 ⟨_, rfl, ?_⟩
  simp only [List.cons_append, hdigit, if_true]
  refine bind_eq_ok_iff.2 ⟨_, rfl, if_pos hv⟩

theorem takeStampTime_timeText {c : Clock} (r : Reading c) : ∃ n : Fin 1000000000,
    n.val = r.fraction ∧ takeStampTime (r.timeText ++ ['Z']) = .ok ((r.face, n), ['Z']) := by
  have hface := takeClockFace?_timeText r ['Z']
  rcases fractionText_cases r.fraction_lt with ⟨hzero, htext⟩ | ⟨w, k, hw, hw', hk, hn, htext⟩
  · rw [htext] at hface
    refine ⟨noFraction, hzero.symm, ?_⟩
    rw [takeStampTime, hface]
    exact bind_eq_ok_iff.2 ⟨_, rfl, bind_eq_ok_iff.2 ⟨_, rfl, if_pos r.valid_face⟩⟩
  · rw [htext] at hface
    refine ⟨Fin.ofNat 1000000000 r.fraction, Nat.mod_eq_of_lt r.fraction_lt, ?_⟩
    rw [takeStampTime_of_digits r.valid_face hface (paddedDecimal_ne_nil w k)
      fun _ => isDigit_of_mem_paddedDecimal, takeNanos_paddedDecimal hw hw' hk (by decide), hn]

theorem ofCivil?_civil {d : Date} (h₀ : 0 ≤ d.year) (h₁ : d.year ≤ 9999) :
    Date.ofCivil? d.civil = some d := by
  have hlo := d.yearStart_le_number
  have hhi := d.number_lt_yearStart_succ
  have hfirst := yearStart_le_of_le h₀
  have hlast := yearStart_le_of_le (y := d.year + 1) (z := 10000) (by omega)
  have hin : d.InRange := by
    simp only [Date.InRange, Date.earliest, Date.latest, Date.year, yearStart] at *
    omega
  rw [Date.ofCivil?, if_pos d.civil_valid, d.toDate_civil, Date.inRange?, if_pos hin]

theorem takeStampDate_text {d : Date} (h₀ : 0 ≤ d.year) (h₁ : d.year ≤ 9999) (rest : List Char) :
    takeStampDate (d.text ++ rest) = .ok (d, rest) := by
  obtain ⟨hm, hm', hd, hd'⟩ := d.civil_valid
  have hlast := daysInMonth_le d.civil.year d.civil.month
  have hyear := takeDigits?_paddedDecimal (w := 4) (n := d.civil.year.toNat) (by decide)
    (by rw [Date.year] at h₀ h₁; omega)
  have hmonth := takeDigits?_paddedDecimal (w := 2) (n := d.civil.month) (by decide) (by omega)
  have hday := takeDigits?_paddedDecimal (w := 2) (n := d.civil.day) (by decide) (by omega)
  have hcivil : (⟨d.civil.year.toNat, d.civil.month, d.civil.day⟩ : Civil) = d.civil :=
    congrArg (Civil.mk · _ _) (Int.toNat_of_nonneg h₀)
  have htext : yearText d.civil.year = paddedDecimal 4 d.civil.year.toNat := if_pos ⟨h₀, h₁⟩
  refine bind_eq_ok_iff.2 ⟨(d.civil, rest), ?_, ?_⟩
  · rw [← hcivil]
    simp [Date.text, htext, expect?, hyear, hmonth, hday]
  · simp only [ofCivil?_civil h₀ h₁]

end Stamp

namespace Instant

variable {t : Instant}

theorem minBytes_le_length_stamp (h₀ : 0 ≤ t.date.year) (h₁ : t.date.year ≤ 9999) :
    Stamp.minBytes ≤ t.stamp.length := by
  obtain ⟨hm, hm', hd, hd'⟩ := t.date.civil_valid
  have hlast := daysInMonth_le t.date.civil.year t.date.civil.month
  obtain ⟨hhour, hminute, hsecond⟩ := t.valid_face
  have htext : yearText t.date.civil.year = paddedDecimal 4 t.date.civil.year.toNat :=
    if_pos ⟨h₀, h₁⟩
  have hyear := length_paddedDecimal (w := 4) (n := t.date.civil.year.toNat) (by decide)
    (by rw [Date.year] at h₀ h₁; omega)
  have hpair {n : Nat} (h : n < 100) := length_paddedDecimal (w := 2) (n := n) (by decide) h
  simp only [stamp, Reading.text, Date.text, htext, Reading.timeText_eq, List.length_append,
    List.length_cons, hyear, hpair (show t.date.civil.month < 100 by omega),
    hpair (show t.date.civil.day < 100 by omega), hpair (show t.face.hour < 100 by omega),
    hpair (show t.face.minute < 100 by omega), hpair (show t.face.second < 100 by omega),
    Stamp.minBytes]
  omega

/-- What is printed for an instant reads back as that instant. -/
theorem ofText_stamp (h₀ : 0 ≤ t.date.year) (h₁ : t.date.year ≤ 9999) (hl : t.LeapEndsMinute) :
    Instant.ofText t.stamp = .ok t := by
  have hbytes : ¬ (String.ofList t.stamp).utf8ByteSize < Stamp.minBytes := by
    have := minBytes_le_length_stamp h₀ h₁
    have := length_le_utf8ByteSize t.stamp
    omega
  obtain ⟨n, hn, htime⟩ := Stamp.takeStampTime_timeText t
  have hdate := Stamp.takeStampDate_text h₀ h₁ ('T' :: t.timeText ++ ['Z'])
  have hstamp : t.stamp = t.date.text ++ ('T' :: t.timeText ++ ['Z']) := by
    simp [stamp, Reading.text]
  have hread : Stamp.ofText t.stamp = .ok ⟨t, 0⟩ := by
    rw [Stamp.ofText, if_neg hbytes, hstamp]
    refine bind_eq_ok_iff.2 ⟨_, hdate, bind_eq_ok_iff.2 ⟨t.timeText ++ ['Z'], rfl, ?_⟩⟩
    refine bind_eq_ok_iff.2 ⟨_, htime, bind_eq_ok_iff.2 ⟨(0, []), rfl, ?_⟩⟩
    have hinstant : (⟨(t.face.onDate t.date n .common).second - 0, _,
        (t.face.onDate t.date n .common).nano_lt⟩ : Instant) = t := by
      rw [Reading.onDate_face hl hn, Reading.eq_iff]
      exact ⟨Int.sub_zero _, rfl⟩
    exact congrArg (fun u => Except.ok (Stamp.mk u 0)) hinstant
  rw [Instant.ofText, hread]
  rfl

end Instant

namespace Reading

def InWrittenYears {c : Clock} (r : Reading c) : Prop :=
  -719529 * 86400 ≤ r.second ∧ r.second < 2932898 * 86400

end Reading

namespace Stamp

theorem eq_some_of_elim_eq_ok {α : Type} {x : Option α} {e : StampError} {a : α}
    (h : x.elim (.error e) .ok = Except.ok a) : x = some a := by
  cases x with
  | none => cases h
  | some b => exact congrArg some (Except.ok.inj h)

theorem number_bounds_of_takeStampDate {cs : List Char} {d : Date}
    (h : takeStampDate cs = .ok (d, rest)) : -719528 ≤ d.number ∧ d.number ≤ 2932896 := by
  obtain ⟨⟨civil, cs'⟩, hfields, h⟩ := bind_eq_ok_iff.1 h
  obtain ⟨⟨y, cs₁⟩, hyear, hfields⟩ := Option.bind_eq_some_iff.1 (eq_some_of_elim_eq_ok hfields)
  obtain ⟨cs₂, -, hfields⟩ := Option.bind_eq_some_iff.1 hfields
  obtain ⟨m, -, hfields⟩ := Option.bind_eq_some_iff.1 hfields
  obtain ⟨cs₃, -, hfields⟩ := Option.bind_eq_some_iff.1 hfields
  obtain ⟨day, -, hfields⟩ := Option.bind_eq_some_iff.1 hfields
  have hlt := takeDigits?_lt hyear
  have hcivil : civil.year = y := by
    cases hfields
    rfl
  cases hd : Date.ofCivil? civil with
  | none =>
    simp only [hd] at h
    cases h
  | some e =>
    simp only [hd] at h
    cases h
    obtain ⟨rfl, hvalid, -⟩ := Date.eq_toDate_of_ofCivil?_eq_some hd
    have hyearOf : yearOf civil.toDate.number = y := by
      rw [← hcivil]
      exact congrArg Civil.year (Civil.civil_toDate hvalid)
    have hlo := yearStart_yearOf_le civil.toDate.number
    have hhi := lt_yearStart_yearOf_succ civil.toDate.number
    rw [hyearOf] at hlo hhi
    simp only [yearStart] at hlo hhi
    omega

theorem valid_of_takeStampTime {cs : List Char} {face : ClockFace} {nano : Fin 1000000000}
    (h : takeStampTime cs = .ok ((face, nano), rest)) : face.Valid := by
  obtain ⟨⟨face', cs₁⟩, -, h⟩ := bind_eq_ok_iff.1 h
  have hvalid {n : Fin 1000000000} {cs' : List Char}
      (h : (if face'.Valid then Except.ok ((face', n), cs') else Except.error StampError.outOfRange) =
        .ok ((face, nano), rest)) : face.Valid := by
    split at h
    · next hv =>
      cases h
      exact hv
    · cases h
  simp only at h
  split at h
  · cases h
  · split at h
    · exact hvalid h
    · cases h
  · exact hvalid h

end Stamp

namespace Instant

theorem inWrittenYears_of_ofText {cs : List Char} (h : Instant.ofText cs = .ok t) :
    t.InWrittenYears := by
  obtain ⟨stamp, hread, rfl⟩ := map_eq_ok_iff.1 h
  rw [Stamp.ofText] at hread
  split at hread
  · cases hread
  obtain ⟨⟨d, cs₁⟩, hdate, hread⟩ := bind_eq_ok_iff.1 hread
  obtain ⟨cs₂, -, hread⟩ := bind_eq_ok_iff.1 hread
  obtain ⟨⟨⟨face, nano⟩, cs₃⟩, htime, hread⟩ := bind_eq_ok_iff.1 hread
  obtain ⟨⟨offset, cs₄⟩, -, hread⟩ := bind_eq_ok_iff.1 hread
  obtain ⟨hlo, hhi⟩ := Stamp.number_bounds_of_takeStampDate hdate
  obtain ⟨hhour, hminute, -⟩ := Stamp.valid_of_takeStampTime htime
  simp only at hread
  split at hread
  · cases hread
  split at hread
  · cases hread
  cases hread
  simp only [Reading.InWrittenYears, ClockFace.onDate, ClockFace.secondOfDay, dayStart, secondsPerDay]
  omega

theorem head?_stamp_isDigit_iff (t : Instant) :
    t.stamp.head?.any Char.isDigit = true ↔ 0 ≤ t.date.year ∧ t.date.year ≤ 9999 := by
  rw [stamp, Reading.text, Date.text, yearText, ← Date.year]
  split
  · next h =>
    obtain ⟨c, cs, hyear⟩ := List.exists_cons_of_ne_nil (paddedDecimal_ne_nil 4 t.date.year.toNat)
    have hc : c ∈ paddedDecimal 4 t.date.year.toNat := hyear ▸ List.mem_cons_self
    rw [hyear]
    exact iff_of_true (isDigit_of_mem_paddedDecimal hc) h
  · next h =>
    refine iff_of_false ?_ h
    split
    · exact (by decide : ¬ '-'.isDigit = true)
    · exact (by decide : ¬ '+'.isDigit = true)

theorem exists_stamp_eq (t : Instant) : ∃ u : Instant, u.LeapEndsMinute ∧ u.stamp = t.stamp := by
  by_cases hl : t.LeapEndsMinute
  · exact ⟨t, hl, rfl⟩
  · obtain ⟨hleap, hinside⟩ : t.isLeap = true ∧ t.second % 60 ≠ 59 := Classical.not_imp.1 hl
    have hN : nanosPerSecond = 1000000000 := rfl
    have hnano := t.nano_lt
    obtain ⟨u, hu⟩ : ∃ u : Instant, u = ⟨t.second + 1, t.nano - nanosPerSecond, by omega⟩ := ⟨_, rfl⟩
    have hplain : u.isLeap = false := by
      rw [hu, Reading.isLeap, decide_eq_false_iff_not]
      simp only
      omega
    have hday : u.secondOfDay = t.secondOfDay + 1 := by
      simp only [hu, Reading.secondOfDay, secondsPerDay]
      omega
    have hminute : t.secondOfDay % 60 ≠ 59 := by
      simp only [Reading.secondOfDay, secondsPerDay]
      omega
    have hdate : u.date = t.date := by
      simp only [hu, Reading.date, dateOf, secondsPerDay, Date.mk.injEq]
      omega
    have hface : u.face = t.face := by
      simp only [Reading.face, hplain, hleap, hday, ClockFace.mk.injEq]
      simp
      omega
    have hfraction : u.fraction = t.fraction := by
      simp only [Reading.fraction, hplain, hleap, if_true, Bool.false_eq_true, if_false]
      rw [hu]
    refine ⟨u, fun h => absurd (hplain.symm.trans h) (by decide), ?_⟩
    rw [stamp, stamp, Reading.text, Reading.text, Reading.timeText_eq, Reading.timeText_eq, hdate,
      hface, hfraction]

theorem newline_not_mem_stamp (t : Instant) : '\n' ∉ t.stamp := by
  have hdigits {w n : Nat} : '\n' ∉ paddedDecimal w n := not_mem_paddedDecimal (by decide)
  have hyear : '\n' ∉ yearText t.date.civil.year := by
    rw [yearText]
    repeat' split
    all_goals simp [hdigits]
  have hfraction : '\n' ∉ fractionText t.fraction := by
    rw [fractionText]
    repeat' split
    all_goals simp [hdigits]
  simp [stamp, Reading.text, Date.text, Reading.timeText_eq, hdigits, hyear, hfraction]

end Instant

end Calendar

end Timetable
