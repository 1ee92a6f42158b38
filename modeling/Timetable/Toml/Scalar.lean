import Timetable.Calendar.Iso8601
import Timetable.Toml.Basic

/-! Values that have no parts. Line ends are line feeds here. -/

namespace Timetable.Toml

open Calendar Text

def isSpace (c : Char) : Bool := c == ' ' || c == '\t'

def isControl (c : Char) : Bool := (c.toNat < 0x20 && c != '\t') || c.toNat == 0x7F

def skipSpace (cs : List Char) : List Char := cs.dropWhile isSpace

def digitValue (c : Char) : Nat :=
  if c.isDigit then c.toNat - '0'.toNat else c.toLower.toNat - 'a'.toNat + 10

def isHexDigit (c : Char) : Bool := c.isDigit || ('a' ≤ c.toLower && c.toLower ≤ 'f')

def valueInBase (base : Nat) (cs : List Char) : Nat :=
  cs.foldl (fun n c => base * n + digitValue c) 0

def charOfHex? (cs : List Char) : Option Char :=
  let n := valueInBase 16 cs
  if cs.all isHexDigit ∧ n.isValidChar then some (Char.ofNat n) else none

def charOfEscape? : Char → Option Char
  | 'b' => some '\x08'
  | 't' => some '\t'
  | 'n' => some '\n'
  | 'f' => some '\x0c'
  | 'r' => some '\r'
  | '"' => some '"'
  | '\\' => some '\\'
  | _ => none

def prepend (c : Option Char) (rest : Option (List Char × List Char)) :
    Option (List Char × List Char) :=
  c.bind fun c => rest.map fun (s, cs) => (c :: s, cs)

def unlessControl (c : Char) : Option Char := if isControl c then none else some c

def takeEscaped : List Char → Option (List Char × List Char)
  | [] => none
  | '"' :: cs => some ([], cs)
  | '\\' :: 'u' :: a :: b :: c :: d :: cs => prepend (charOfHex? [a, b, c, d]) (takeEscaped cs)
  | '\\' :: 'U' :: a :: b :: c :: d :: e :: f :: g :: h :: cs =>
    prepend (charOfHex? [a, b, c, d, e, f, g, h]) (takeEscaped cs)
  | '\\' :: c :: cs => prepend (charOfEscape? c) (takeEscaped cs)
  | c :: cs => prepend (unlessControl c) (takeEscaped cs)

def takeLiteral : List Char → Option (List Char × List Char)
  | [] => none
  | '\'' :: cs => some ([], cs)
  | c :: cs => prepend (unlessControl c) (takeLiteral cs)

def closeLong (quote : Char) : List Char → List Char × List Char
  | a :: b :: cs =>
    if a = quote ∧ b = quote then ([quote, quote], cs)
    else if a = quote then ([quote], b :: cs)
    else ([], a :: b :: cs)
  | [a] => if a = quote then ([quote], []) else ([], [a])
  | [] => ([], [])

def unlessControlInLines (c : Char) : Option Char := if c = '\n' then some c else unlessControl c

/-- A backslash at the end of a line takes the blanks and line ends behind it away, which `skipping`
stands for. -/
def takeLongEscaped (skipping : Bool) : List Char → Option (List Char × List Char)
  | [] => none
  | '"' :: '"' :: '"' :: cs => some (closeLong '"' cs)
  | '\\' :: 'u' :: a :: b :: c :: d :: cs =>
    prepend (charOfHex? [a, b, c, d]) (takeLongEscaped false cs)
  | '\\' :: 'U' :: a :: b :: c :: d :: e :: f :: g :: h :: cs =>
    prepend (charOfHex? [a, b, c, d, e, f, g, h]) (takeLongEscaped false cs)
  | '\\' :: c :: cs =>
    if (skipSpace (c :: cs)).head? = some '\n' then takeLongEscaped true cs
    else prepend (charOfEscape? c) (takeLongEscaped false cs)
  | c :: cs =>
    if skipping && (isSpace c || c == '\n') then takeLongEscaped true cs
    else prepend (unlessControlInLines c) (takeLongEscaped false cs)

def takeLongLiteral : List Char → Option (List Char × List Char)
  | [] => none
  | '\'' :: '\'' :: '\'' :: cs => some (closeLong '\'' cs)
  | c :: cs => prepend (unlessControlInLines c) (takeLongLiteral cs)

def dropLineEnd : List Char → List Char
  | '\n' :: cs => cs
  | cs => cs

def takeShortString : List Char → Option (List Char × List Char)
  | '"' :: cs => takeEscaped cs
  | '\'' :: cs => takeLiteral cs
  | _ => none

def takeString : List Char → Option (List Char × List Char)
  | '"' :: '"' :: '"' :: cs => takeLongEscaped false (dropLineEnd cs)
  | '\'' :: '\'' :: '\'' :: cs => takeLongLiteral (dropLineEnd cs)
  | cs => takeShortString cs

def digits? (isDigit : Char → Bool) (cs : List Char) : Option (List Char) :=
  if (cs.splitOn '_').all fun run => !run.isEmpty && run.all isDigit then some (cs.filter (· != '_'))
  else none

def natural? (cs : List Char) : Option Nat :=
  (digits? Char.isDigit cs).bind fun ds =>
    if ds.head? = some '0' ∧ ds ≠ ['0'] then none else digitsValue? ds

def unsigned : List Char → Bool × List Char
  | '-' :: cs => (true, cs)
  | '+' :: cs => (false, cs)
  | cs => (false, cs)

def anyInteger? : List Char → Option Int
  | '0' :: 'x' :: cs => (digits? isHexDigit cs).map fun ds => valueInBase 16 ds
  | '0' :: 'o' :: cs => (digits? (fun c => '0' ≤ c && c ≤ '7') cs).map fun ds => valueInBase 8 ds
  | '0' :: 'b' :: cs => (digits? (fun c => c == '0' || c == '1') cs).map fun ds => valueInBase 2 ds
  | cs => (natural? (unsigned cs).2).map fun n => if (unsigned cs).1 then -(n : Int) else n

def integer? (cs : List Char) : Option Int :=
  (anyInteger? cs).filter fun n => Int64.minValue.toInt ≤ n ∧ n ≤ Int64.maxValue.toInt

structure Floating where
  whole : List Char
  fraction : List Char
  exponent : Int
deriving DecidableEq, Repr

def exponent? : List Char → Option Int
  | [] => some 0
  | c :: cs =>
    if c == 'e' || c == 'E' then
      ((digits? Char.isDigit (unsigned cs).2).bind digitsValue?).map fun n =>
        if (unsigned cs).1 then -(n : Int) else n
    else none

def isNumeral (c : Char) : Bool := c.isDigit || c == '_'

def floating? (cs : List Char) : Option Floating := do
  let whole := cs.takeWhile isNumeral
  let _ ← natural? whole
  let whole ← digits? Char.isDigit whole
  match cs.dropWhile isNumeral with
  | [] => none
  | '.' :: rest => do
    let fraction ← digits? Char.isDigit (rest.takeWhile isNumeral)
    return ⟨whole, fraction, ← exponent? (rest.dropWhile isNumeral)⟩
  | rest => return ⟨whole, [], ← exponent? rest⟩

def infiniteFrom : Nat := Nat.pow 2 1024 - Nat.pow 2 970

def Floating.isInfinite (x : Floating) : Bool :=
  let ds := (x.whole ++ x.fraction).dropWhile (· == '0')
  let e := x.exponent - x.fraction.length
  let places := ds.length + e
  if ds.isEmpty || places < 309 then false
  else if 309 < places then true
  else infiniteFrom * Nat.pow 10 (-e).toNat ≤ Nat.ofDigitChars 10 ds 0 * Nat.pow 10 e.toNat

def isFloating (cs : List Char) : Bool :=
  let (negative, cs) := unsigned cs
  cs == "inf".toList || cs == "nan".toList ||
    (floating? cs).any fun x => negative || !x.isInfinite

def skipDate? (cs : List Char) : Option (List Char) := do
  let (y, cs) ← takeDigits? 4 cs
  let (m, cs) ← takeDigits? 2 (← expect? '-' cs)
  let (d, cs) ← takeDigits? 2 (← expect? '-' cs)
  if Civil.Valid ⟨y, m, d⟩ then some cs else none

def skipClock? (cs : List Char) : Option (List Char) := do
  let (face, cs) ← takeClockFace? cs
  if face.Valid then
    match cs with
    | '.' :: cs => if (cs.head?.any Char.isDigit) then some (cs.dropWhile Char.isDigit) else none
    | cs => some cs
  else none

def skipOffset? : List Char → Option (List Char)
  | [] => some []
  | c :: cs =>
    if c = 'Z' ∨ c = 'z' then some cs
    else if c = '+' ∨ c = '-' then do
      let (h, cs) ← takeDigits? 2 cs
      let (m, cs) ← takeDigits? 2 (← expect? ':' cs)
      if h ≤ 23 ∧ m ≤ 59 then some cs else none
    else none

def isClock (cs : List Char) : Bool := skipClock? cs == some []

def isOffsetClock (cs : List Char) : Bool := (skipClock? cs).bind skipOffset? == some []

def isDate (cs : List Char) : Bool := skipDate? cs == some []

def isMoment (cs : List Char) : Bool :=
  isClock cs ||
    match skipDate? cs with
    | some [] => true
    | some (c :: cs) => (c == 'T' || c == 't') && isOffsetClock cs
    | none => false

def bareValue? (cs : List Char) : Option Value :=
  if cs = "true".toList then some (.bool true)
  else if cs = "false".toList then some (.bool false)
  else if isMoment cs then some (.moment (String.ofList cs))
  else
    match integer? cs with
    | some n => some (.integer n)
    | none => if isFloating cs then some (.floating (String.ofList cs)) else none

def isBare (c : Char) : Bool := !(isSpace c || c ∈ ['\n', '#', ',', ']', '\x7d'])

def takeBare (cs : List Char) : Option (Value × List Char) :=
  let word := cs.takeWhile isBare
  let rest := cs.dropWhile isBare
  match rest with
  | ' ' :: later =>
    let clock := later.takeWhile isBare
    if isDate word && isOffsetClock clock then
      some (.moment (String.ofList (word ++ ' ' :: clock)), later.dropWhile isBare)
    else (bareValue? word).map (·, rest)
  | _ => (bareValue? word).map (·, rest)

def takeScalar (cs : List Char) : Option (Value × List Char) :=
  match cs with
  | '"' :: _ | '\'' :: _ => (takeString cs).map fun (s, rest) => (.string (String.ofList s), rest)
  | _ => takeBare cs

end Timetable.Toml
