import Timetable.Text.Numeral
import Timetable.Text.Split

namespace Timetable.Toml

open Text

def escapedChar (c : Char) : List Char :=
  match c with
  | '\x08' => ['\\', 'b']
  | '\t' => ['\\', 't']
  | '\n' => ['\\', 'n']
  | '\x0c' => ['\\', 'f']
  | '\r' => ['\\', 'r']
  | '"' => ['\\', '"']
  | '\\' => ['\\', '\\']
  | c =>
    if c.toNat < 0x20 ∨ c.toNat = 0x7F then
      '\\' :: 'u' :: ((Nat.toDigits 16 c.toNat).map Char.toUpper).leftpad 4 '0'
    else [c]

def escapedLines (before : Nat) : List Char → List Char
  | [] => []
  | c :: cs =>
    if c = '"' ∧ before < 2 then c :: escapedLines (before + 1) cs
    else if c = '\n' then c :: escapedLines 0 cs
    else escapedChar c ++ escapedLines 0 cs

def needsEscape (c : Char) : Bool := (c.toNat < 0x20 && c != '\t' && c != '\n') || c.toNat == 0x7F

def hasTriple (quote : Char) (cs : List Char) : Bool := (cutAt (List.replicate 3 quote) cs).isSome

inductive Quotes where
  | single
  | double
  | tripleSingle
  | tripleDouble
deriving DecidableEq, Repr

def quotesFor (cs : List Char) : Quotes :=
  let lines := '\n' ∈ cs
  if cs.any needsEscape then if lines then .tripleDouble else .double
  else if !lines ∧ '"' ∉ cs ∧ '\\' ∉ cs then .double
  else if !lines ∧ '\'' ∉ cs then .single
  else if '\\' ∉ cs ∧ !hasTriple '"' cs then .tripleDouble
  else if !hasTriple '\'' cs then .tripleSingle
  else if lines then .tripleDouble
  else .double

def stringText (s : String) : List Char :=
  let cs := s.toList
  let between (quotes text : List Char) : List Char :=
    quotes ++ (if quotes.length = 3 ∧ '\n' ∈ cs then ['\n'] else []) ++ text ++ quotes
  match quotesFor cs with
  | .single => between ['\''] cs
  | .double => between ['"'] (cs.flatMap escapedChar)
  | .tripleSingle => between ['\'', '\'', '\''] cs
  | .tripleDouble => between ['"', '"', '"'] (escapedLines 0 cs)

structure Section where
  name : String
  entries : List (String × List Char)
deriving DecidableEq, Repr

def entryText (e : String × List Char) : List Char :=
  e.1.toList ++ " = ".toList ++ e.2 ++ ['\n']

def Section.text (s : Section) : List Char :=
  '[' :: s.name.toList ++ [']', '\n'] ++ s.entries.flatMap entryText

def sectionsText (sections : List Section) : String :=
  String.ofList (['\n'].intercalate (sections.map Section.text))

end Timetable.Toml
