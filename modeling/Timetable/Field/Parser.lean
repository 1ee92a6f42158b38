import Timetable.Field.Basic
import Timetable.Field.Error
import Timetable.Text.Blank
import Timetable.Text.Numeral
import Timetable.Text.Split

/-! Reading the text of a field: names are replaced by their numbers, and the rest is a list of elements. -/

namespace Timetable

open Text

def valueOfName (k : FieldKind) (word : List Char) : List Char :=
  match k.valueNames.idxOf? (String.ofList (word.map Char.toUpper)) with
  | some i => decimal (k.min + i)
  | none => word

def replaceWords (k : FieldKind) (word : List Char) : List Char → List Char
  | [] => valueOfName k word
  | c :: cs =>
    if c.isAlpha then replaceWords k (word ++ [c]) cs
    else valueOfName k word ++ c :: replaceWords k [] cs

def normalise (k : FieldKind) (cs : List Char) : List Char := replaceWords k [] (trim cs)

namespace Term

def readValue (min max : Nat) (cs : List Char) : Except FieldError Nat :=
  match readWord? cs with
  | none => .error (.badValue (String.ofList cs))
  | some n => if n < min ∨ max < n then .error (.valueOutOfRange n min max) else .ok n

def readStep (k : FieldKind) (cs : List Char) : Except FieldError Nat :=
  match readWord? cs with
  | none => .error (.badStep (String.ofList cs))
  | some n => if n = 0 ∨ k.max < n then .error (.stepOutOfRange n k.max) else .ok n

/-- Reads what stands before the step, if there is one. A single value with a step begins a
progression up to the end of the kind, unless it lies past that end. -/
def readRange (k : FieldKind) (step : Option Nat) (cs : List Char) : Except FieldError Term :=
  if cs = ['*'] ∨ cs = ['?'] then .ok (.progression k.min k.openEnd (step.getD 1))
  else
    match cutAt ['-'] cs with
    | some (lo, hi) => do
      let start ← readValue k.min k.max lo
      let stop ← readValue k.min k.max hi
      if stop < start then .error (.backwards start stop)
      else .ok (.progression start stop (step.getD 1))
    | none => do
      let v ← readValue k.min k.max cs
      let stop := if step.isSome ∧ v ≤ k.openEnd then k.openEnd else v
      return .progression v stop (step.getD 1)

def readProgression (k : FieldKind) (cs : List Char) : Except FieldError Term :=
  match cutAt ['/'] cs with
  | none => readRange k none cs
  | some (range, step) => do
    let n ← readStep k step
    readRange k (some n) range

def readNth (element weekday nth : List Char) : Except FieldError Term := do
  let w ← readValue 0 7 weekday
  match readWord? nth with
  | none => .error (.badOccurrence (String.ofList nth) (String.ofList element))
  | some n => if 1 ≤ n ∧ n ≤ 5 then .ok (.nthWeekday w n) else .error (.occurrenceOutOfRange n)

def readDayOfWeek (cs : List Char) : Except FieldError Term :=
  match dropLast? 'L' cs with
  | some weekday => (readValue 0 7 weekday).map .lastWeekday
  | none =>
    match cutAt ['#'] cs with
    | some (weekday, nth) => readNth cs weekday nth
    | none => readProgression .dayOfWeek cs

def read (k : FieldKind) (cs : List Char) : Except FieldError Term :=
  if cs.isEmpty then .error .emptyElement
  else
    match k with
    | .dayOfMonth => if cs = ['L'] then .ok .lastDay else readProgression .dayOfMonth cs
    | .dayOfWeek => readDayOfWeek cs
    | k => readProgression k cs

end Term

def readTerms (k : FieldKind) (cs : List Char) : Except FieldError (List Term) :=
  if cs.isEmpty then .error .empty
  else if cs = ['?'] ∧ !k.allowsQuestionMark then .error .questionMark
  else (cs.splitOn ',').mapM (Term.read k)

structure Field (k : FieldKind) where
  text : String
  terms : List Term
  terms_eq : readTerms k text.toList = .ok terms
deriving DecidableEq

namespace Field
variable {k : FieldKind}

def ofNormal (k : FieldKind) (cs : List Char) : Except FieldError (Field k) :=
  match h : readTerms k cs with
  | .ok terms => .ok ⟨String.ofList cs, terms, by rw [String.toList_ofList, h]⟩
  | .error e => .error e

def ofText (k : FieldKind) (cs : List Char) : Except FieldError (Field k) :=
  ofNormal k (normalise k cs)

def parse (k : FieldKind) (text : String) : Except FieldError (Field k) := ofText k text.toList

def any (k : FieldKind) : Field k :=
  ⟨"*", [.progression k.min k.openEnd 1], by cases k <;> rfl⟩

/-- Nothing but `*` or `?`; with a step they constrain the field. -/
def isWildcard (f : Field k) : Bool := f.text == "*" || f.text == "?"

/-- Whether a number belongs to the field; 0 is a Sunday where 7 is. -/
def admits (f : Field k) (v : Nat) : Bool :=
  f.terms.any (·.contains v) || (k == .dayOfWeek && v == 0 && f.terms.any (·.contains 7))

def admitsDay (f : Field k) (d : Calendar.Date) : Bool :=
  match k with
  | .dayOfMonth => f.admits d.day || f.terms.any (·.containsDay d)
  | .dayOfWeek => f.admits d.daysFromSunday || f.terms.any (·.containsDay d)
  | _ => false

def next? (f : Field k) (v : Nat) : Option Nat :=
  (List.range' (max v k.min) (k.max + 1 - max v k.min)).find? f.admits

def prev? (f : Field k) (v : Nat) : Option Nat :=
  (List.range' k.min (min v k.max + 1 - k.min)).reverse.find? f.admits

theorem le_of_next?_eq_some {f : Field k} {v w : Nat} (h : f.next? v = some w) : v ≤ w := by
  have := List.mem_of_find?_eq_some h
  simp only [List.mem_range'_1] at this
  omega

theorem le_of_prev?_eq_some {f : Field k} {v w : Nat} (h : f.prev? v = some w) : w ≤ v := by
  have := List.mem_of_find?_eq_some h
  simp only [List.mem_reverse, List.mem_range'_1] at this
  omega

theorem admits_of_next?_eq_some {f : Field k} {v w : Nat} (h : f.next? v = some w) :
    f.admits w = true := List.find?_some h

theorem admits_of_prev?_eq_some {f : Field k} {v w : Nat} (h : f.prev? v = some w) :
    f.admits w = true := List.find?_some h

end Field

end Timetable
