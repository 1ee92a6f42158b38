import Timetable.Command
import Timetable.CommandLine.Arguments
import Timetable.Text.Numeral

namespace Timetable.CommandLine

open Calendar Text

inductive Invocation where
  | command (c : Command)
  | validateSettings
  | showSettings
  | version
  | help
deriving DecidableEq, Repr

def maxCount : Nat := UInt64.size - 1

namespace Arguments

def word? (as : Arguments) : Option String :=
  match as.words with
  | [word] => some word
  | _ => none

def instantOr? (as : Arguments) (name : String) (default : Option Instant) : Option Instant :=
  match as.options.lookup name with
  | none => default
  | some text => (Instant.ofText text.toList).toOption

def count? (as : Arguments) : Option UInt64 :=
  match as.options.lookup "count" with
  | none => some 1
  | some text => (readNat? maxCount text.toList).map UInt64.ofNat

end Arguments

namespace Invocation

def ofCommandArgs (s : Signature) (args : List String) (build : Arguments → Option Invocation) :
    Option Invocation := do
  let as ← Arguments.ofArgs s args
  if as.help then return help else build as

def plain (i : Invocation) (args : List String) : Option Invocation :=
  ofCommandArgs {} args fun as => if as.words.isEmpty then some i else none

def commands : List String :=
  ["parse", "next", "prev", "match", "end", "config", "version", "help"]

def settingsCommands : List String := ["validate", "show", "help"]

def helpOn? (names : List String) : List String → Option Invocation
  | [] => some help
  | [name] => if name ∈ names then some help else none
  | _ => none

def ofSettingsArgs : List String → Option Invocation
  | [] => none
  | "validate" :: args => plain validateSettings args
  | "show" :: args => plain showSettings args
  | "help" :: args => helpOn? settingsCommands args
  | arg :: _ => if isHelp arg then some help else none

def ofArgs (now : Instant) : List String → Option Invocation
  | [] => none
  | "parse" :: args => ofCommandArgs { flags := ["json"] } args fun as => do
    return command (.parse (← as.word?) ("json" ∈ as.flags))
  | "next" :: args => ofCommandArgs { options := ["from", "count"] } args fun as => do
    return command (.next (← as.word?) (← as.instantOr? "from" (some now)) (← as.count?))
  | "prev" :: args => ofCommandArgs { options := ["from"] } args fun as => do
    return command (.prev (← as.word?) (← as.instantOr? "from" (some now)))
  | "match" :: args => ofCommandArgs { options := ["at"] } args fun as => do
    return command (.isMatch (← as.word?) (← as.instantOr? "at" none))
  | "end" :: args => ofCommandArgs { options := ["at"] } args fun as => do
    return command (.endOf (← as.word?) (← as.instantOr? "at" none))
  | "config" :: args => ofSettingsArgs args
  | "version" :: args => plain version args
  | "help" :: "config" :: args => helpOn? settingsCommands args
  | "help" :: args => helpOn? commands args
  | arg :: _ =>
    if arg = "--version" ∨ isShort 'V' arg then some version
    else if isHelp arg then some help
    else none

end Invocation

end Timetable.CommandLine
