namespace Timetable

inductive DurationError where
  | empty
  | badStart (text : String)
  | noUnits (text : String)
  | noUnitAfter (digits : String)
  | noAmountBefore (unit : Char)
  | badNumber (digits : String)
  | tooLarge (amount limit : Nat)
  | unknownUnit (text : String)
  | notTimeUnit (unit : Char)
  | unnamedEvent (clause : String)
  | secondEvent (clause : String)
  | secondSuffix (clause : String)
  | nothing (text : String)
deriving DecidableEq, Repr

namespace DurationError

def message : DurationError → String
  | empty => "empty duration expression"
  | badStart text => s!"duration must start with 'E' or 'S', got: {text}"
  | noUnits text => s!"no duration units found in: {text}"
  | noUnitAfter digits => s!"invalid number: '{digits}' has no unit"
  | noAmountBefore unit => s!"invalid number: missing magnitude before '{unit}'"
  | badNumber digits => s!"invalid number: {digits}"
  | tooLarge amount limit => s!"invalid number: {amount} exceeds maximum magnitude {limit}"
  | unknownUnit text => s!"unknown duration unit: {text}"
  | notTimeUnit unit => s!"unknown duration unit: '{unit}' is not a time unit"
  | unnamedEvent clause => s!"unknown duration unit: empty event name in '{clause}'"
  | secondEvent clause => s!"unknown duration unit: duplicate event clause '{clause}'"
  | secondSuffix clause => s!"unknown duration unit: duplicate reference suffix '{clause}'"
  | nothing text => s!"duration has no magnitude, anchor, or event: {text}"

end DurationError

end Timetable
