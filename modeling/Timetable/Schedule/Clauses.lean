import Timetable.Error
import Timetable.Text.Blank
import Timetable.Text.Split

namespace Timetable

open Text

structure Parts where
  fields : List String := []
  weekOfYear : Option String := none
  timezone : Option String := none
  endOfDuration : Option String := none
deriving DecidableEq, Repr

def clause? (word : List Char) : Option (String × String) :=
  match cutAt [':'] word with
  | none => none
  | some (keyword, value) =>
    if keyword.isEmpty || !keyword.all Char.isAlpha then none
    else some (String.ofList (keyword.map Char.toUpper), String.ofList value)

def isTrailer (word : List Char) : Bool :=
  match word with
  | [c] => c ∈ ['D', 'W', 'M', 'Q', 'Y']
  | 'E' :: '[' :: rest => rest.getLast? == some ']'
  | _ => false

namespace Parts

def set? (p : Parts) (c : Clause) (value : String) : Except Error Parts :=
  let once (old : Option String) (new : Parts) : Except Error Parts :=
    if old.isSome then .error (.repeatedClause c) else .ok new
  match c with
  | .weekOfYear => once p.weekOfYear { p with weekOfYear := some value }
  | .timezone => once p.timezone { p with timezone := some value }
  | .endOfDuration => once p.endOfDuration { p with endOfDuration := some value }

/-- Reads the words of an expression into parts; `inside` tells whether an `EOD` clause and nothing
but its trailers came directly before them. -/
def addWords (p : Parts) (inside : Bool) : List (List Char) → Except Error Parts
  | [] => .ok p
  | word :: words =>
    let text := String.ofList word
    match clause? word with
    | some (keyword, value) =>
      if value.isEmpty then .error (.clauseWithoutValue keyword)
      else
        match Clause.ofKeyword? keyword with
        | none => .error (.unknownClause text)
        | some c => do
          let p ← p.set? c value
          addWords p (c = .endOfDuration) words
    | none =>
      if inside && isTrailer word then
        addWords { p with endOfDuration := p.endOfDuration.map (· ++ " " ++ text) } true words
      else addWords { p with fields := p.fields ++ [text] } false words

def ofText (cs : List Char) : Except Error Parts := addWords {} false (words cs)

def split (text : String) : Except Error Parts := ofText text.toList

end Parts

end Timetable
