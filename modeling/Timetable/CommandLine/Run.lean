import Timetable.CommandLine.Invocation
import Timetable.Settings.Issue
import Timetable.Settings.Toml

namespace Timetable.CommandLine

open Calendar

def versionText : String := "cadence 0.1.0"

def usageText : String := "\n".intercalate [
  "Usage: cadence <COMMAND>",
  "",
  "Commands:",
  "  parse [--json] <EXPRESSION>",
  "  next [--from <INSTANT>] [--count <COUNT>] <EXPRESSION>",
  "  prev [--from <INSTANT>] <EXPRESSION>",
  "  match --at <INSTANT> <EXPRESSION>",
  "  end --at <INSTANT> <EXPRESSION>",
  "  config validate",
  "  config show",
  "  version",
  "  help"]

structure Output where
  status : Nat
  out : String
  err : String
deriving DecidableEq, Repr

structure SettingsFile where
  path : String
  text : Except String (Option String)

namespace SettingsFile

def load (f : SettingsFile) : Except String Settings :=
  match f.text with
  | .error reason => .error s!"reading {f.path}: {reason}"
  | .ok none => .ok .initial
  | .ok (some text) => (Settings.ofToml text).mapError fun e => s!"parsing {f.path}: {e.message}"

end SettingsFile

def succeed (out : String) : Output := ⟨0, out, ""⟩

def fail (status : Nat) (message : String) : Output := ⟨status, "", "Error: " ++ message ++ "\n"⟩

def indented (text : String) : String :=
  String.ofList ("    ".toList ++ text.toList.flatMap fun c => if c = '\n' then "\n    ".toList else [c])

def report (path : String) (issues : List Issue) : Output :=
  if issues.isEmpty then succeed s!"Config OK ({path})\n"
  else
    let fatal := issues.countP Issue.isFatal
    let lines := String.join (issues.map fun i => i.text ++ "\n")
    let summary := s!"\n{fatal} error(s), {issues.length - fatal} warning(s) in {path}\n"
    ⟨if fatal = 0 then 0 else 1, lines ++ summary, ""⟩

def withSettings (f : SettingsFile) (k : Settings → Output) : Output :=
  match f.load with
  | .error message => fail 1 message
  | .ok s => k s

section
variable [TimezoneDatabase]

def runCommand (f : SettingsFile) (c : Command) : Output :=
  withSettings f fun s =>
    match s.search.engine with
    | .error e => fail 1 s!"engine settings in {f.path}\n\nCaused by:\n{indented e.message}"
    | .ok engine =>
      match c.run engine with
      | .ok text => succeed (text ++ "\n")
      | .error failure => fail failure.exitCode failure.message

def runInvocation (f : SettingsFile) : Invocation → Output
  | .command c => runCommand f c
  | .validateSettings => withSettings f fun s => report f.path s.allIssues
  | .showSettings => withSettings f fun s => succeed s.toToml
  | .version => succeed (versionText ++ "\n")
  | .help => succeed (usageText ++ "\n")

def run (f : SettingsFile) (now : Instant) (args : List String) : Output :=
  match Invocation.ofArgs now args with
  | none => ⟨2, "", usageText ++ "\n"⟩
  | some i => runInvocation f i

end

end Timetable.CommandLine
