import Timetable.Duration.Basic

namespace Timetable.Duration

def endOfDay (hours minutes seconds : UInt32) : Duration :=
  { ending .day with hours, minutes, seconds }

def endOfWeek (days hours minutes : UInt32) : Duration :=
  { ending .week with days, hours, minutes }

def endOfMonth (days hours minutes : UInt32) : Duration :=
  { ending .month with days, hours, minutes }

def advanced (d : Duration) (n : UInt32) : Duration :=
  match d.reference with
  | .day => { d with days := n }
  | .week => { d with weeks := n }
  | .month | .quarter => { d with months := n }
  | .year => { d with years := n }
  | .start | .stop => { d with hours := n }

def endOf (r : Reference) (n : UInt32) : Duration := (ending r).advanced n

def startOf (r : Reference) (n : UInt32) : Duration := (starting r).advanced n

def untilEvent (name : String) (hours minutes seconds : UInt32) : Duration :=
  { ending .stop with hours, minutes, seconds, event := some name }

end Timetable.Duration
