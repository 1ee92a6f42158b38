import Timetable.Text.Split

namespace Timetable.CommandLine

open Text

structure Signature where
  flags : List String := []
  options : List String := []

structure Arguments where
  words : List String := []
  flags : List String := []
  options : List (String × String) := []
  help : Bool := false
deriving DecidableEq, Repr

def looksLikeOption (arg : String) : Bool :=
  match arg.toList with
  | '-' :: _ :: _ => true
  | _ => false

def longOption? (arg : String) : Option (String × Option String) :=
  match arg.toList with
  | '-' :: '-' :: cs =>
    match cutAt ['='] cs with
    | none => some (String.ofList cs, none)
    | some (name, value) => some (String.ofList name, some (String.ofList value))
  | _ => none

def isShort (letter : Char) (arg : String) : Bool :=
  match arg.toList with
  | '-' :: c :: _ => c == letter
  | _ => false

def isHelp (arg : String) : Bool := arg == "--help" || isShort 'h' arg

namespace Arguments

def addFlag (s : Signature) (name : String) (as : Arguments) : Option Arguments :=
  if name ∈ s.flags ∧ name ∉ as.flags then some { as with flags := name :: as.flags } else none

def addOption (s : Signature) (name value : String) (as : Arguments) : Option Arguments :=
  if name ∈ s.options ∧ (as.options.lookup name).isNone then
    some { as with options := (name, value) :: as.options }
  else none

def ofArgs (s : Signature) : List String → Option Arguments
  | [] => some {}
  | [arg] =>
    if isHelp arg then some { help := true }
    else if arg = "--" then some {}
    else if looksLikeOption arg then
      match longOption? arg with
      | some (name, some value) => addOption s name value {}
      | some (name, none) => addFlag s name {}
      | none => none
    else some { words := [arg] }
  | arg :: value :: args =>
    if isHelp arg then some { help := true }
    else if arg = "--" then some { words := value :: args }
    else if looksLikeOption arg then
      match longOption? arg with
      | some (name, some value') => (ofArgs s (value :: args)).bind (addOption s name value')
      | some (name, none) =>
        if name ∈ s.options then
          if looksLikeOption value then none else (ofArgs s args).bind (addOption s name value)
        else (ofArgs s (value :: args)).bind (addFlag s name)
      | none => none
    else (ofArgs s (value :: args)).map fun as => { as with words := arg :: as.words }

end Arguments

end Timetable.CommandLine
