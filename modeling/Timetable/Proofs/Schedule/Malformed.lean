import Timetable.Expression

namespace Timetable

section
variable {ε α β : Type} {r : Except Error α}

structure FailsMalformed (r : Except Error α) : Prop where
  isMalformed : ∀ c, r = .error c → c.isMalformed = true

theorem failsMalformed_ok (a : α) : FailsMalformed (.ok a) where
  isMalformed := nofun

theorem failsMalformed_error {c : Error} (h : c.isMalformed = true) :
    FailsMalformed (.error c : Except Error α) where
  isMalformed d hd := by
    cases hd
    exact h

theorem FailsMalformed.bind {f : α → Except Error β} (h : FailsMalformed r)
    (hf : ∀ a, FailsMalformed (f a)) : FailsMalformed (r >>= f) := by
  cases r with
  | ok a => exact hf a
  | error c => exact failsMalformed_error (h.isMalformed c rfl)

theorem FailsMalformed.map {f : α → β} (h : FailsMalformed r) : FailsMalformed (r.map f) := by
  cases r with
  | ok a => exact failsMalformed_ok _
  | error c => exact failsMalformed_error (h.isMalformed c rfl)

theorem failsMalformed_mapError {x : Except ε α} {f : ε → Error}
    (h : ∀ cause, (f cause).isMalformed = true) : FailsMalformed (x.mapError f) := by
  cases x with
  | ok a => exact failsMalformed_ok _
  | error cause => exact failsMalformed_error (h cause)

end

theorem failsMalformed_readField (k : FieldKind) (text : String) :
    FailsMalformed (readField k text) := failsMalformed_mapError fun _ => rfl

theorem failsMalformed_readTimezone [TimezoneDatabase] (name : String) : FailsMalformed (readTimezone name) := by
  rw [readTimezone]
  cases TimezoneDatabase.find? name with
  | none => exact failsMalformed_error rfl
  | some z => exact failsMalformed_ok z

namespace Schedule

theorem failsMalformed_ofFields (second minute hour dayOfMonth month dayOfWeek : String) :
    FailsMalformed (ofFields second minute hour dayOfMonth month dayOfWeek) := by
  refine .bind (failsMalformed_readField ..) fun _ => .bind (failsMalformed_readField ..) fun _ =>
    .bind (failsMalformed_readField ..) fun _ => .bind (failsMalformed_readField ..) fun _ =>
    .bind (failsMalformed_readField ..) fun _ => .bind (failsMalformed_readField ..) fun _ => ?_
  exact failsMalformed_ok _

theorem failsMalformed_withTrailing (s : Schedule) (text : String) :
    FailsMalformed (s.withTrailing text) := by
  rw [withTrailing]
  split
  · exact failsMalformed_ok s
  · split
    · exact (failsMalformed_readField ..).map
    · exact (failsMalformed_readField ..).map

theorem failsMalformed_ofMacro (name : String) : FailsMalformed (ofMacro name) := by
  rw [ofMacro]
  split
  · exact failsMalformed_error rfl
  · exact failsMalformed_ok reboot
  · exact failsMalformed_ofFields ..
  · exact failsMalformed_error rfl

theorem failsMalformed_ofWords (ws : List String) : FailsMalformed (ofWords ws) := by
  rw [ofWords.eq_def]
  split
  · exact failsMalformed_error rfl
  · exact failsMalformed_ofFields ..
  · exact failsMalformed_ofFields ..
  · exact (failsMalformed_ofFields ..).bind fun s => s.failsMalformed_withTrailing _
  · split
    · exact failsMalformed_ofMacro _
    · exact failsMalformed_error rfl
  · exact failsMalformed_error rfl

theorem failsMalformed_addWeeks (s : Schedule) (weeks : Option String) :
    FailsMalformed (s.addWeeks weeks) := by
  cases weeks with
  | none => exact failsMalformed_ok s
  | some text =>
    rw [addWeeks]
    split
    · exact failsMalformed_error rfl
    · exact (failsMalformed_readField ..).map

theorem failsMalformed_addTimezone [TimezoneDatabase] (s : Schedule) (name : Option String) :
    FailsMalformed (s.addTimezone name) := by
  cases name with
  | none => exact failsMalformed_ok s
  | some name => exact (failsMalformed_readTimezone name).map

theorem failsMalformed_addEndOfDuration (s : Schedule) (text : Option String) :
    FailsMalformed (s.addEndOfDuration text) := by
  cases text with
  | none => exact failsMalformed_ok s
  | some text => exact (failsMalformed_mapError fun _ => rfl).map

theorem failsMalformed_set? (p : Parts) (c : Clause) (value : String) :
    FailsMalformed (p.set? c value) := by
  cases c <;>
    · simp only [Parts.set?]
      split
      · exact failsMalformed_error rfl
      · exact failsMalformed_ok _

theorem failsMalformed_addWords (p : Parts) (inside : Bool) (ws : List (List Char)) :
    FailsMalformed (p.addWords inside ws) := by
  induction ws generalizing p inside with
  | nil => exact failsMalformed_ok p
  | cons w ws ih =>
    rw [Parts.addWords]
    split
    · split
      · exact failsMalformed_error rfl
      · split
        · exact failsMalformed_error rfl
        · exact (failsMalformed_set? ..).bind fun _ => ih _ _
    · split
      · exact ih _ _
      · exact ih _ _

theorem failsMalformed_parseExtended [TimezoneDatabase] (text : String) : FailsMalformed (parseExtended text) :=
  (failsMalformed_addWords ..).bind fun _ => (failsMalformed_ofWords _).bind fun s =>
    (s.failsMalformed_addWeeks _).bind fun s => (s.failsMalformed_addTimezone _).bind fun s =>
      s.failsMalformed_addEndOfDuration _

theorem failsMalformed_parseHybrid (text : String) : FailsMalformed (parseHybrid text) := by
  rw [parseHybrid]
  split
  · exact failsMalformed_ofWords _
  · exact (failsMalformed_ofWords _).bind fun s => s.failsMalformed_addEndOfDuration _

end Schedule

namespace Expression

theorem failsMalformed_readSchedule [TimezoneDatabase] (text : String) : FailsMalformed (readSchedule text) := by
  rw [readSchedule]
  split
  · exact Schedule.failsMalformed_parseExtended text
  · split
    · exact Schedule.failsMalformed_parseHybrid text
    · exact Schedule.failsMalformed_ofWords _

theorem failsMalformed_parse [TimezoneDatabase] (text : String) : FailsMalformed (parse text) := by
  have hduration (text : String) :
      FailsMalformed (((Duration.parse text).mapError Error.duration).map duration) :=
    (failsMalformed_mapError fun _ => rfl).map
  rw [parse]
  split
  · exact failsMalformed_error rfl
  · split
    · exact hduration _
    · exact failsMalformed_error rfl
  · split
    · exact hduration _
    · exact failsMalformed_error rfl
  · exact (failsMalformed_readSchedule _).map

end Expression

end Timetable
