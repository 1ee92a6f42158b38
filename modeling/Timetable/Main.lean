import Std.Time.DateTime
import Timetable.CommandLine.Run
import Timetable.Zone.Known

open Timetable Calendar

def readSettings (path : String) : IO (Except String (Option String)) := do
  try
    return .ok (some (← IO.FS.readFile path))
  catch
    | .noFileOrDirectory .. => return .ok none
    | e => return .error (toString e)

def readClock : IO Instant := do
  let nanos := (← Std.Time.Timestamp.now).toNanosecondsSinceUnixEpoch.val
  return Reading.carry 0 nanos

def main (args : List String) : IO UInt32 := do
  let path := (← IO.getEnv "CADENCE_CONFIG").getD "cadence.toml"
  let file : CommandLine.SettingsFile := ⟨path, ← readSettings path⟩
  let output := CommandLine.run file (← readClock) args
  IO.print output.out
  IO.eprint output.err
  return UInt32.ofNat output.status
