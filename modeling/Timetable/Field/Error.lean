namespace Timetable

inductive FieldError where
  | empty
  | questionMark
  | emptyElement
  | badValue (text : String)
  | valueOutOfRange (value min max : Nat)
  | badOccurrence (occurrence element : String)
  | occurrenceOutOfRange (occurrence : Nat)
  | badStep (text : String)
  | stepOutOfRange (step max : Nat)
  | backwards (start stop : Nat)
deriving DecidableEq, Repr

namespace FieldError

def message : FieldError → String
  | empty => "empty field"
  | questionMark => "'?' is only allowed in day-of-month and day-of-week"
  | emptyElement => "empty list element"
  | badValue text => s!"invalid value '{text}'"
  | valueOutOfRange value min max => s!"value {value} out of range {min}..={max}"
  | badOccurrence occurrence element => s!"invalid occurrence '{occurrence}' in '{element}'"
  | occurrenceOutOfRange occurrence => s!"occurrence {occurrence} out of range 1..=5"
  | badStep text => s!"invalid step '{text}' - expected a number"
  | stepOutOfRange step max => s!"step {step} out of range 1..={max}"
  | backwards start stop => s!"range start {start} > end {stop}"

end FieldError

end Timetable
