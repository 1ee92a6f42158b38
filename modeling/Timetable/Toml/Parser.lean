import Timetable.Toml.Scalar
import Timetable.Toml.Table

/-! Reading the text of a document of settings, one statement after the other. -/

namespace Timetable.Toml

open Text

def maxDepth : Nat := 79

def maxKeyParts : Nat := 79

def isKeyChar (c : Char) : Bool := c.isAlphanum || c == '_' || c == '-'

def takeKeyPart (cs : List Char) : Option (String × List Char) :=
  match takeShortString cs with
  | some (s, rest) => some (String.ofList s, rest)
  | none =>
    let key := cs.takeWhile isKeyChar
    if key.isEmpty then none else some (String.ofList key, cs.dropWhile isKeyChar)

/-- Reads the parts of a key, with the blanks around them. There are fewer parts than characters. -/
def takeKeyParts : Nat → List Char → Option (List String × List Char)
  | 0, _ => none
  | fuel + 1, cs => do
    let (part, cs) ← takeKeyPart (skipSpace cs)
    match skipSpace cs with
    | '.' :: cs =>
      let (parts, cs) ← takeKeyParts fuel cs
      return (part :: parts, cs)
    | cs => return ([part], cs)

def takeKey (cs : List Char) : Option (KeyPath × List Char) := do
  let (parts, cs) ← takeKeyParts cs.length cs
  if parts.length ≤ maxKeyParts then
    (parts.getLast?).map fun key => (⟨parts.dropLast, key⟩, cs)
  else none

def skipLines (inComment : Bool) : List Char → List Char
  | [] => []
  | c :: cs =>
    if c = '\n' then skipLines false cs
    else if inComment then if isControl c then c :: cs else skipLines true cs
    else if isSpace c then skipLines false cs
    else if c = '#' then skipLines true cs
    else c :: cs

mutual

/-- Reads a value in which arrays and tables go `depth` deep at most. One step of
two takes a character, so twice as much fuel as there are characters is enough. -/
def takeValue (depth : Nat) : Nat → List Char → Option (Value × List Char)
  | 0, _ => none
  | fuel + 1, '[' :: cs =>
    if depth = 0 then none
    else (takeElements (depth - 1) fuel cs).map fun (vs, cs) => (.array vs, cs)
  | fuel + 1, '\x7b' :: cs =>
    if depth = 0 then none
    else do
      let (new, cs) ←
        match skipSpace cs with
        | '\x7d' :: cs => some ([], cs)
        | cs => takeMembers (depth - 1) fuel cs
      let es ← (Entries.addAll [] new).toOption
      return (.table .braces es, cs)
  | _ + 1, cs => takeScalar cs

def takeElements (depth : Nat) : Nat → List Char → Option (List Value × List Char)
  | 0, _ => none
  | fuel + 1, cs =>
    match skipLines false cs with
    | ']' :: cs => some ([], cs)
    | cs => do
      let (v, cs) ← takeValue depth fuel cs
      match skipLines false cs with
      | ',' :: cs =>
        let (vs, cs) ← takeElements depth fuel cs
        return (v :: vs, cs)
      | ']' :: cs => return ([v], cs)
      | _ => none

def takeMembers (depth : Nat) : Nat → List Char → Option (List (KeyPath × Value) × List Char)
  | 0, _ => none
  | fuel + 1, cs => do
    let (path, cs) ← takeKey cs
    match cs with
    | '=' :: cs =>
      let (v, cs) ← takeValue depth fuel (skipSpace cs)
      match skipSpace cs with
      | ',' :: cs =>
        let (es, cs) ← takeMembers depth fuel cs
        return ((path, v) :: es, cs)
      | '\x7d' :: cs => return ([(path, v)], cs)
      | _ => none
    | _ => none

end

inductive Statement where
  | header (path : KeyPath)
  | element (path : KeyPath)
  | entry (path : KeyPath) (v : Value)

def endLine? (cs : List Char) : Option (List Char) :=
  let rest :=
    match skipSpace cs with
    | '#' :: cs => cs.dropWhile (! isControl ·)
    | cs => cs
  match rest with
  | [] => some []
  | '\n' :: rest => some rest
  | _ => none

def takeHeader (cs : List Char) : Option (Statement × List Char) :=
  match cs with
  | '[' :: cs => do
    match ← takeKey cs with
    | (path, ']' :: ']' :: cs) => return (.element path, cs)
    | _ => none
  | cs => do
    match ← takeKey cs with
    | (path, ']' :: cs) => return (.header path, cs)
    | _ => none

def takeEntry (cs : List Char) : Option (Statement × List Char) := do
  match ← takeKey cs with
  | (path, '=' :: cs) =>
    let (v, cs) ← takeValue maxDepth (2 * cs.length + 1) (skipSpace cs)
    return (.entry path v, cs)
  | _ => none

def takeStatement (cs : List Char) : Option (Statement × List Char) := do
  let (s, cs) ←
    match cs with
    | '[' :: cs => takeHeader cs
    | cs => takeEntry cs
  return (s, ← endLine? cs)

def badLine (cs : List Char) : TomlError := .badLine (String.ofList (cs.takeWhile (· != '\n')))

def takeStatements : Nat → List Char → Except TomlError (List Statement)
  | 0, _ => .ok []
  | fuel + 1, cs =>
    match skipLines false cs with
    | [] => .ok []
    | cs =>
      match takeStatement cs with
      | none => .error (badLine cs)
      | some (s, cs) => (takeStatements fuel cs).map (s :: ·)

def leading : List Statement → List (KeyPath × Value)
  | .entry path v :: rest => (path, v) :: leading rest
  | _ => []

def addStatements (es : Entries) : List Statement → Except TomlError Entries
  | [] => .ok es
  | .entry .. :: rest => addStatements es rest
  | .header path :: rest => do addStatements (← es.addTable path (leading rest)) rest
  | .element path :: rest => do addStatements (← es.addElement path (leading rest)) rest

def withLineFeeds : List Char → List Char
  | [] => []
  | '\r' :: '\n' :: cs => '\n' :: withLineFeeds cs
  | c :: cs => c :: withLineFeeds cs

def withoutByteOrderMark : List Char → List Char
  | '\uFEFF' :: cs => cs
  | cs => cs

def Value.ofText (cs : List Char) : Except TomlError Value := do
  let cs := withLineFeeds (withoutByteOrderMark cs)
  let statements ← takeStatements (cs.length + 1) cs
  let top ← Entries.addAll [] (leading statements)
  return .table .header (← addStatements top statements)

end Timetable.Toml
