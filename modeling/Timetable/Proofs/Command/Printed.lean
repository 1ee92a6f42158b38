import Timetable.CommandLine.Invocation
import Timetable.Proofs.Calendar.Stamp
import Timetable.Zone.Known

namespace Timetable

open Calendar

namespace CommandLine

variable {s : Signature} {arg name line text : String} {u : Instant}

/-- A line on which the commands read `u` as the time that they are asked about. -/
structure PassesBack (line : String) (u : Instant) : Prop where
  next : ∀ now text, looksLikeOption text = false →
    Invocation.ofArgs now ["next", "--from", line, text] = some (.command (.next text u 1))
  prev : ∀ now text, looksLikeOption text = false →
    Invocation.ofArgs now ["prev", "--from", line, text] = some (.command (.prev text u))
  isMatch : ∀ now text, looksLikeOption text = false →
    Invocation.ofArgs now ["match", "--at", line, text] = some (.command (.isMatch text u))
  endOf : ∀ now text, looksLikeOption text = false →
    Invocation.ofArgs now ["end", "--at", line, text] = some (.command (.endOf text u))

theorem ofArgs_word (h : looksLikeOption text = false) :
    Arguments.ofArgs s [text] = some { words := [text] } := by
  have hdashes : text ≠ "--" := by
    rintro rfl
    cases h
  have hlong : text ≠ "--help" := by
    rintro rfl
    cases h
  have hhelp : isHelp text = false := by
    rw [isHelp, Bool.or_eq_false_iff, beq_eq_false_iff_ne, isShort]
    refine ⟨hlong, ?_⟩
    split
    · next c cs he =>
      rw [looksLikeOption, he] at h
      cases h
    · rfl
  simp [Arguments.ofArgs, hhelp, hdashes, h]

theorem ofArgs_option (hhelp : isHelp arg = false) (hdashes : arg ≠ "--")
    (harg : looksLikeOption arg = true) (hlong : longOption? arg = some (name, none))
    (hname : name ∈ s.options) (hline : looksLikeOption line = false)
    (htext : looksLikeOption text = false) :
    Arguments.ofArgs s [arg, line, text] = some { words := [text], options := [(name, line)] } := by
  have hword := ofArgs_word (s := s) htext
  rw [Arguments.ofArgs, hword]
  simp [hhelp, hdashes, harg, hlong, hname, hline, Arguments.addOption]

theorem ofArgs_from (hname : "from" ∈ s.options) (hline : looksLikeOption line = false)
    (htext : looksLikeOption text = false) : Arguments.ofArgs s ["--from", line, text] =
      some { words := [text], options := [("from", line)] } :=
  ofArgs_option (by decide) (by decide) (by decide) (by decide +kernel) hname hline htext

theorem ofArgs_at (hname : "at" ∈ s.options) (hline : looksLikeOption line = false)
    (htext : looksLikeOption text = false) : Arguments.ofArgs s ["--at", line, text] =
      some { words := [text], options := [("at", line)] } :=
  ofArgs_option (by decide) (by decide) (by decide) (by decide +kernel) hname hline htext

theorem passesBack_of_ofText (hline : looksLikeOption line = false)
    (hread : Instant.ofText line.toList = .ok u) : PassesBack line u := by
  constructor
  · intro now text htext
    rw [Invocation.ofArgs, Invocation.ofCommandArgs, ofArgs_from (by decide) hline htext]
    simp [Arguments.word?, Arguments.instantOr?, Arguments.count?, hread, Except.toOption]
  · intro now text htext
    rw [Invocation.ofArgs, Invocation.ofCommandArgs, ofArgs_from (by decide) hline htext]
    simp [Arguments.word?, Arguments.instantOr?, hread, Except.toOption]
  · intro now text htext
    rw [Invocation.ofArgs, Invocation.ofCommandArgs, ofArgs_at (by decide) hline htext]
    simp [Arguments.word?, Arguments.instantOr?, hread, Except.toOption]
  · intro now text htext
    rw [Invocation.ofArgs, Invocation.ofCommandArgs, ofArgs_at (by decide) hline htext]
    simp [Arguments.word?, Arguments.instantOr?, hread, Except.toOption]

theorem looksLikeOption_stamp (h₀ : 0 ≤ u.date.year) (h₁ : u.date.year ≤ 9999) :
    looksLikeOption (String.ofList u.stamp) = false := by
  have hdigit := u.head?_stamp_isDigit_iff.2 ⟨h₀, h₁⟩
  rw [looksLikeOption, String.toList_ofList]
  split
  · next he =>
    rw [he] at hdigit
    cases hdigit
  · rfl

theorem passesBack_stamp (h₀ : 0 ≤ u.date.year) (h₁ : u.date.year ≤ 9999)
    (hl : u.LeapEndsMinute) : PassesBack (String.ofList u.stamp) u := by
  refine passesBack_of_ofText (looksLikeOption_stamp h₀ h₁) ?_
  rw [String.toList_ofList]
  exact Instant.ofText_stamp h₀ h₁ hl

end CommandLine

namespace Command

variable {e : Engine} {cmd : Command} {t : Instant} {text out : String} {count : UInt64}

def AnswersInstants : Command → Prop
  | next .. | prev .. | endOf .. => True
  | parse .. | isMatch .. => False

def PrintsInstants (out : String) : Prop :=
  ∃ us : List Instant, us ≠ [] ∧ out = "\n".intercalate (us.map stampText)

theorem printsInstants_stampText (t : Instant) : PrintsInstants (stampText t) :=
  ⟨[t], List.cons_ne_nil _ _, (String.intercalate_singleton).symm⟩

theorem printsInstants_of_runNext [TimezoneDatabase] (h : runNext e text t count = .ok out) : PrintsInstants out := by
  obtain ⟨x, -, h⟩ := bind_eq_ok_iff.1 h
  split at h
  · obtain ⟨u, -, h⟩ := bind_eq_ok_iff.1 h
    cases h
    exact printsInstants_stampText u
  · obtain ⟨found, -, h⟩ := bind_eq_ok_iff.1 h
    split at h
    · cases h
    · next hne =>
      cases h
      exact ⟨found, hne, rfl⟩

theorem printsInstants_of_runPrev [TimezoneDatabase] (h : runPrev e text t = .ok out) : PrintsInstants out := by
  obtain ⟨x, -, h⟩ := bind_eq_ok_iff.1 h
  split at h
  · cases h
  · obtain ⟨u, -, h⟩ := bind_eq_ok_iff.1 h
    cases h
    exact printsInstants_stampText u

theorem printsInstants_of_runEnd [TimezoneDatabase] (h : runEnd e text t = .ok out) :
    out = "none" ∨ PrintsInstants out := by
  obtain ⟨u, -, h⟩ := bind_eq_ok_iff.1 h
  cases h
  cases u with
  | none => exact .inl rfl
  | some u => exact .inr (printsInstants_stampText u)

theorem printsInstants_of_run [TimezoneDatabase] (hc : cmd.AnswersInstants) (h : cmd.run e = .ok out) :
    out = "none" ∨ PrintsInstants out := by
  cases cmd with
  | next => exact .inr (printsInstants_of_runNext h)
  | prev => exact .inr (printsInstants_of_runPrev h)
  | endOf => exact printsInstants_of_runEnd h
  | parse => exact hc.elim
  | isMatch => exact hc.elim

theorem splitOn_of_printsInstants (h : PrintsInstants out) {line : List Char}
    (hl : line ∈ out.toList.splitOn '\n') : ∃ t : Instant, line = t.stamp := by
  obtain ⟨us, hne, rfl⟩ := h
  have hlines : ("\n".intercalate (us.map stampText)).toList =
      ['\n'].intercalate (us.map Instant.stamp) := by
    rw [String.toList_intercalate, List.map_map]
    congr 1
    exact List.map_congr_left fun t _ => String.toList_ofList
  rw [hlines, List.splitOn_intercalate '\n' ?_ (by simpa using hne)] at hl
  · obtain ⟨t, -, rfl⟩ := List.mem_map.1 hl
    exact ⟨t, rfl⟩
  · intro w hw
    obtain ⟨t, -, rfl⟩ := List.mem_map.1 hw
    exact t.newline_not_mem_stamp

open CommandLine in
theorem printed_passesBack [TimezoneDatabase] :
    (∀ t : Instant, 0 ≤ t.date.year → t.date.year ≤ 9999 → t.LeapEndsMinute →
      Instant.ofText t.stamp = .ok t) ∧
    ∀ (e : Engine) (cmd : Command) (out : String), cmd.AnswersInstants → cmd.run e = .ok out →
      ∀ line ∈ out.toList.splitOn '\n', line = "none".toList ∨
        ∃ u : Instant, u.LeapEndsMinute ∧ line = u.stamp ∧
          (0 ≤ u.date.year → u.date.year ≤ 9999 → PassesBack (String.ofList line) u) := by
  refine ⟨fun t => Instant.ofText_stamp, ?_⟩
  intro e cmd out hc hr line hl
  rcases printsInstants_of_run hc hr with rfl | hprints
  · left
    have hnone : "none".toList.splitOn '\n' = ["none".toList] := by decide +kernel
    rw [hnone] at hl
    exact List.mem_singleton.1 hl
  · right
    obtain ⟨t, rfl⟩ := splitOn_of_printsInstants hprints hl
    obtain ⟨u, hends, hstamp⟩ := t.exists_stamp_eq
    refine ⟨u, hends, hstamp.symm, fun h₀ h₁ => ?_⟩
    rw [← hstamp]
    exact passesBack_stamp h₀ h₁ hends

open CommandLine in
theorem printed_passesBack_newYear :
    (∃ leap : Instant, leap = ⟨1483228799, 1123456789, by decide⟩ ∧
      leap.stamp = "2016-12-31T23:59:60.123456789Z".toList ∧ Instant.ofText leap.stamp = .ok leap) ∧
    (endOf "E0D" (.ofSecond 1483228700)).run .default = .ok "2016-12-31T23:59:59.999999999Z" ∧
    ∃ u, PassesBack "2016-12-31T23:59:59.999999999Z" u := by
  obtain ⟨hread, hlines⟩ := printed_passesBack
  refine ⟨⟨_, rfl, by decide +kernel,
    hread _ (by decide +kernel) (by decide +kernel) (by decide)⟩, ?_⟩
  have hrun : (endOf "E0D" (.ofSecond 1483228700)).run .default =
      .ok "2016-12-31T23:59:59.999999999Z" := by decide +kernel
  obtain hnone | ⟨u, -, hstamp, hback⟩ := hlines .default
    (endOf "E0D" (.ofSecond 1483228700)) _ trivial hrun _
    (by decide +kernel : "2016-12-31T23:59:59.999999999Z".toList ∈ _)
  · exact absurd hnone (by decide +kernel)
  · have hyear := u.head?_stamp_isDigit_iff.1 (hstamp ▸ by decide +kernel)
    have hback := hback hyear.1 hyear.2
    rw [String.ofList_toList] at hback
    exact ⟨hrun, u, hback⟩

end Command

end Timetable
