import Timetable.Settings.Basic
import Timetable.Text.Blank

namespace Timetable

inductive Issue where
  | noHorizon
  | longHorizon
  | blankTimezone
  | unknownTimezone (name : String)
  | noDelay
deriving DecidableEq, Repr

namespace Issue

def isFatal : Issue → Bool
  | noHorizon | blankTimezone | unknownTimezone _ => true
  | longHorizon | noDelay => false

def setting : Issue → String
  | noHorizon | longHorizon => "engine.search_horizon_years"
  | blankTimezone | unknownTimezone _ => "engine.default_timezone"
  | noDelay => "retry.retry_delay_ms"

def message : Issue → String
  | noHorizon => "search horizon must be at least 1 year"
  | longHorizon => s!"search horizon is clamped to {maxHorizon} years"
  | blankTimezone => "default timezone must not be empty"
  | unknownTimezone name => (Error.unknownTimezone name).message
  | noDelay => "retries are enabled with no delay between attempts"

def text (i : Issue) : String :=
  let tag := if i.isFatal then "ERROR" else "WARN"
  s!"[{tag}] {i.setting}: {i.message}"

end Issue

namespace SearchSettings

def horizonIssues (s : SearchSettings) : List Issue :=
  if s.horizon = 0 then [.noHorizon]
  else if maxHorizon < s.horizon.toNat then [.longHorizon]
  else []

def hasBlankTimezone (s : SearchSettings) : Bool := s.timezone.toList.all Text.isBlank

def timezoneIssues (s : SearchSettings) : List Issue :=
  if s.hasBlankTimezone then [.blankTimezone] else []

def unknownTimezoneIssues [TimezoneDatabase] (s : SearchSettings) : List Issue :=
  if s.hasBlankTimezone || (TimezoneDatabase.find? s.timezone).isSome then []
  else [.unknownTimezone s.timezone]

end SearchSettings

def RetrySettings.issues (s : RetrySettings) : List Issue :=
  if 0 < s.maxRetries ∧ s.delayMillis = 0 then [.noDelay] else []

namespace Settings

def issues (s : Settings) : List Issue :=
  s.search.horizonIssues ++ s.search.timezoneIssues ++ s.retry.issues

def allIssues [TimezoneDatabase] (s : Settings) : List Issue := s.issues ++ s.search.unknownTimezoneIssues

end Settings

end Timetable
