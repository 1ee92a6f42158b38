import Timetable.Settings.Basic
import Timetable.Toml.Parser
import Timetable.Toml.Printer

namespace Timetable

open Text Toml

namespace SearchSettings

def ofTomlValue (v : Value) : Except TomlError SearchSettings := do
  let member ← v.members "engine"
  let horizon ← member.valueOr 0 "search_horizon_years" Value.asUInt32? initial.horizon
  let timezone ← member.valueOr 1 "default_timezone" Value.asString? initial.timezone
  return { horizon, timezone }

def toSection (s : SearchSettings) : Section where
  name := "engine"
  entries := [("search_horizon_years", decimal s.horizon.toNat),
    ("default_timezone", stringText s.timezone)]

end SearchSettings

namespace RetrySettings

def ofTomlValue (v : Value) : Except TomlError RetrySettings := do
  let member ← v.members "retry"
  let maxRetries ← member.valueOr 0 "max_retries" Value.asUInt32? initial.maxRetries
  let delayMillis ← member.valueOr 1 "retry_delay_ms" Value.asUInt64? initial.delayMillis
  return { maxRetries, delayMillis }

def toSection (s : RetrySettings) : Section where
  name := "retry"
  entries := [("max_retries", decimal s.maxRetries.toNat),
    ("retry_delay_ms", decimal s.delayMillis.toNat)]

end RetrySettings

namespace LogSettings

def ofTomlValue (v : Value) : Except TomlError LogSettings := do
  let member ← v.members "observability"
  let filter ← member.valueOr 0 "log_filter" Value.asString? initial.filter
  let json ← member.valueOr 1 "json_logs" Value.asBool? initial.json
  return { filter, json }

def toSection (s : LogSettings) : Section where
  name := "observability"
  entries := [("log_filter", stringText s.filter), ("json_logs", (toString s.json).toList)]

end LogSettings

namespace Settings

def ofTomlValue (v : Value) : Except TomlError Settings := do
  let member ← v.members "document"
  let search ← member.recordOr 0 "engine" SearchSettings.ofTomlValue .initial
  let retry ← member.recordOr 1 "retry" RetrySettings.ofTomlValue .initial
  let log ← member.recordOr 2 "observability" LogSettings.ofTomlValue .initial
  return { search, retry, log }

def ofToml (text : String) : Except TomlError Settings := do ofTomlValue (← Value.ofText text.toList)

def toToml (s : Settings) : String :=
  sectionsText [s.search.toSection, s.retry.toSection, s.log.toSection]

end Settings

end Timetable
