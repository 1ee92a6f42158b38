import Timetable.Calendar.Iso8601

namespace Timetable.Calendar

open Timetable.Text

inductive StampError where
  | endOfText
  | badCharacter
  | outOfRange
  | trailing
deriving DecidableEq, Repr

def StampError.message : StampError → String
  | endOfText => "premature end of input"
  | badCharacter => "input contains invalid characters"
  | outOfRange => "input is out of range"
  | trailing => "trailing input"

def StampError.report (e : StampError) : String :=
  "expected an RFC 3339 timestamp like 2024-01-15T10:00:00Z: " ++ e.message

structure Stamp where
  instant : Instant
  offset : Int
deriving DecidableEq, Repr

def offsetText (offset : Int) : List Char :=
  let minutes := (offset.natAbs + 30) / 60
  (if offset < 0 then '-' else '+') :: paddedDecimal 2 (minutes / 60) ++
    ':' :: paddedDecimal 2 (minutes % 60)

def Instant.stamp (t : Instant) : List Char := t.text ++ ['Z']

def WallTime.stamp (w : WallTime) (offset : Int) : List Char := w.text ++ offsetText offset

namespace Stamp

def takePair (cs : List Char) : Except StampError (Nat × List Char) :=
  if (String.ofList cs).utf8ByteSize < 2 then .error .endOfText
  else (takeDigits? 2 cs).elim (.error .badCharacter) .ok

def takeOffset (cs : List Char) : Except StampError (Int × List Char) := do
  let signed (sign : Int) (cs : List Char) : Except StampError (Int × List Char) := do
    let (h, cs) ← takePair cs
    match cs with
    | [] => .error .endOfText
    | ':' :: cs =>
      let (m, cs) ← takePair cs
      if 60 ≤ m then .error .outOfRange else .ok (sign * (3600 * h + 60 * m), cs)
    | _ => .error .badCharacter
  match cs with
  | [] => .error .endOfText
  | 'Z' :: cs | 'z' :: cs => .ok (0, cs)
  | '+' :: cs => signed 1 cs
  | '-' :: cs | '\u2212' :: cs => signed (-1) cs
  | _ => .error .badCharacter

def takeStampDate (cs : List Char) : Except StampError (Date × List Char) := do
  let fields : Option (Civil × List Char) := do
    let (y, cs) ← takeDigits? 4 cs
    let (m, cs) ← takeDigits? 2 (← expect? '-' cs)
    let (d, cs) ← takeDigits? 2 (← expect? '-' cs)
    return (⟨y, m, d⟩, cs)
  let (civil, cs) ← fields.elim (.error .badCharacter) .ok
  match Date.ofCivil? civil with
  | none => .error .outOfRange
  | some d => .ok (d, cs)

def takeSeparator : List Char → Except StampError (List Char)
  | 'T' :: cs | 't' :: cs | ' ' :: cs => .ok cs
  | _ => .error .badCharacter

def takeStampTime (cs : List Char) : Except StampError ((ClockFace × Fin 1000000000) × List Char) := do
  let (face, cs) ← (takeClockFace? cs).elim (.error .badCharacter) .ok
  let (nano, cs) ← match cs with
    | ['.'] => .error .endOfText
    | '.' :: c :: cs => if c.isDigit then .ok (takeNanos (c :: cs)) else .error .badCharacter
    | _ => .ok (noFraction, cs)
  if face.Valid then .ok ((face, nano), cs) else .error .outOfRange

def minBytes : Nat := 19

def ofText (cs : List Char) : Except StampError Stamp := do
  if (String.ofList cs).utf8ByteSize < minBytes then .error .endOfText
  let (d, cs) ← takeStampDate cs
  let ((face, nano), cs) ← takeStampTime (← takeSeparator cs)
  let (offset, cs) ← takeOffset cs
  if !cs.isEmpty then .error .trailing
  if 86400 ≤ offset.natAbs then .error .outOfRange
  let wall := face.onDate d nano .common
  return ⟨⟨wall.second - offset, wall.nano, wall.nano_lt⟩, offset⟩

end Stamp

def Instant.ofText (cs : List Char) : Except StampError Instant :=
  (Stamp.ofText cs).map Stamp.instant

end Timetable.Calendar
