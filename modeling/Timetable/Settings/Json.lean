import Timetable.Json.Decode
import Timetable.Settings.Basic

namespace Timetable

namespace SearchSettings

def toJson (s : SearchSettings) : Json :=
  .object [("default_timezone", .string s.timezone),
    ("search_horizon_years", .integer s.horizon.toNat)]

def ofMembers (ms : List (String × Json)) : Json.Decoded SearchSettings := do
  let timezone ← memberOr ms "default_timezone" Json.asString initial.timezone
  let horizon ← memberOr ms "search_horizon_years" Json.asUInt32 initial.horizon
  return { horizon, timezone }

def ofElements : Json.Elements SearchSettings := do
  return {
    horizon := ← Json.elementOr Json.asUInt32 initial.horizon
    timezone := ← Json.elementOr Json.asString initial.timezone }

def ofJson : Json → Json.Decoded SearchSettings := Json.asRecord "EngineConfig" 2 ofMembers ofElements

end SearchSettings

namespace RetrySettings

def toJson (s : RetrySettings) : Json :=
  .object [("max_retries", .integer s.maxRetries.toNat),
    ("retry_delay_ms", .integer s.delayMillis.toNat)]

def ofMembers (ms : List (String × Json)) : Json.Decoded RetrySettings := do
  let maxRetries ← memberOr ms "max_retries" Json.asUInt32 initial.maxRetries
  let delayMillis ← memberOr ms "retry_delay_ms" Json.asUInt64 initial.delayMillis
  return { maxRetries, delayMillis }

def ofElements : Json.Elements RetrySettings := do
  return {
    maxRetries := ← Json.elementOr Json.asUInt32 initial.maxRetries
    delayMillis := ← Json.elementOr Json.asUInt64 initial.delayMillis }

def ofJson : Json → Json.Decoded RetrySettings := Json.asRecord "RetryOptions" 2 ofMembers ofElements

end RetrySettings

namespace LogSettings

def toJson (s : LogSettings) : Json :=
  .object [("json_logs", .bool s.json), ("log_filter", .string s.filter)]

def ofMembers (ms : List (String × Json)) : Json.Decoded LogSettings := do
  let json ← memberOr ms "json_logs" Json.asBool initial.json
  let filter ← memberOr ms "log_filter" Json.asString initial.filter
  return { filter, json }

def ofElements : Json.Elements LogSettings := do
  return {
    filter := ← Json.elementOr Json.asString initial.filter
    json := ← Json.elementOr Json.asBool initial.json }

def ofJson : Json → Json.Decoded LogSettings := Json.asRecord "ObservabilityConfig" 2 ofMembers ofElements

end LogSettings

namespace Settings

def toJson (s : Settings) : Json :=
  .object [("engine", s.search.toJson), ("observability", s.log.toJson), ("retry", s.retry.toJson)]

def ofMembers (ms : List (String × Json)) : Json.Decoded Settings := do
  let search ← memberOr ms "engine" SearchSettings.ofJson .initial
  let log ← memberOr ms "observability" LogSettings.ofJson .initial
  let retry ← memberOr ms "retry" RetrySettings.ofJson .initial
  return { search, retry, log }

def ofElements : Json.Elements Settings := do
  return {
    search := ← Json.elementOr SearchSettings.ofJson .initial
    retry := ← Json.elementOr RetrySettings.ofJson .initial
    log := ← Json.elementOr LogSettings.ofJson .initial }

def ofJson : Json → Json.Decoded Settings := Json.asRecord "Config" 3 ofMembers ofElements

end Settings

end Timetable
