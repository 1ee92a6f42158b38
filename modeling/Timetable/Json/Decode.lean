import Timetable.Error
import Timetable.Json.Basic
import Timetable.Text.Quoted

/-! Reading typed values out of JSON. Of several wrong members the first in ascending order of names
decides. -/

namespace Timetable

namespace Json

inductive DecodeError where
  | wrongType (got want : String)
  | outOfRange (n : Int) (want : String)
  | missing (name : String)
  | unknownVariant (got : String) (names : List String)
  | notOneMember
  | tooShort (length : Nat) (kind : String) (members : Nat)
  | tooLong (length : Nat)
  | malformed (cause : Error)
deriving DecidableEq, Repr

def DecodeError.message : DecodeError → String
  | wrongType got want => s!"invalid type: {got}, expected {want}"
  | outOfRange n want => s!"invalid value: integer `{n}`, expected {want}"
  | missing name => s!"missing field `{name}`"
  | unknownVariant got [name] => s!"unknown variant `{got}`, expected `{name}`"
  | unknownVariant got names =>
    let quoted := ", ".intercalate (names.map fun name => s!"`{name}`")
    s!"unknown variant `{got}`, expected one of {quoted}"
  | notOneMember => "invalid value: map, expected map with a single key"
  | tooShort length kind members =>
    s!"invalid length {length}, expected struct {kind} with {members} elements"
  | tooLong length => s!"invalid length {length}, expected fewer elements in array"
  | malformed cause => cause.message

def described : Json → String
  | null => "null"
  | bool b => s!"boolean `{b}`"
  | integer n => s!"integer `{n}`"
  | floating negative x =>
    "floating point `" ++ String.ofList (Decimal.floatingText negative x) ++ "`"
  | string s => s!"string {Text.quoted s}"
  | array _ => "sequence"
  | object _ => "map"

abbrev Decoded := Except DecodeError

def mismatch {α : Type} (j : Json) (want : String) : Decoded α := .error (.wrongType j.described want)

def asBelow (bound : Nat) (want : String) : Json → Decoded Nat
  | integer n => if 0 ≤ n ∧ n < bound then .ok n.toNat else .error (.outOfRange n want)
  | j => j.mismatch want

def asUInt32 (j : Json) : Decoded UInt32 := (j.asBelow UInt32.size "u32").map UInt32.ofNat
def asUInt64 (j : Json) : Decoded UInt64 := (j.asBelow UInt64.size "u64").map UInt64.ofNat

def asBool : Json → Decoded Bool
  | bool b => .ok b
  | j => j.mismatch "a boolean"

def asString : Json → Decoded String
  | string s => .ok s
  | j => j.mismatch "a string"

/-- Reads the elements of a list from the left; the error is for a list that ends too soon. -/
abbrev Elements := ReaderT DecodeError (StateT (List Json) Decoded)

def element {α : Type} (read : Json → Decoded α) : Elements α := fun short xs =>
  match xs with
  | [] => .error short
  | x :: xs => (read x).map (·, xs)

def elementOr {α : Type} (read : Json → Decoded α) (default : α) : Elements α := fun _ xs =>
  match xs with
  | [] => .ok (default, [])
  | x :: xs => (read x).map (·, xs)

def asRecord {α : Type} (kind : String) (members : Nat)
    (ofMembers : List (String × Json) → Decoded α) (ofElements : Elements α) : Json → Decoded α
  | object ms => ofMembers ms
  | array xs => do
    let (a, rest) ← ofElements (.tooShort xs.length kind members) xs
    if rest.isEmpty then return a else .error (.tooLong xs.length)
  | j => j.mismatch s!"struct {kind}"

def asChoice {α : Type} (choices : List (String × α)) : Json → Decoded α
  | string s => choose s
  | object [(s, v)] => do
    let a ← choose s
    match v with
    | null => return a
    | v => v.mismatch "unit"
  | object _ => .error .notOneMember
  | j => j.mismatch "string or map"
where
  choose (s : String) : Decoded α :=
    (choices.lookup s).elim (.error (.unknownVariant s (choices.map Prod.fst))) .ok

def asOptional {α : Type} (read : Json → Decoded α) : Json → Decoded (Option α)
  | null => .ok none
  | j => (read j).map some

def optionalElement {α : Type} (read : Json → Decoded α) : Elements (Option α) :=
  elementOr (asOptional read) none

end Json

def member? {α : Type} (ms : List (String × Json)) (name : String) (read : Json → Json.Decoded α) :
    Json.Decoded (Option α) :=
  match ms.lookup name with
  | none => .ok none
  | some j => (read j).map some

def memberOr {α : Type} (ms : List (String × Json)) (name : String) (read : Json → Json.Decoded α)
    (default : α) : Json.Decoded α :=
  (member? ms name read).map (·.getD default)

def optionalMember {α : Type} (ms : List (String × Json)) (name : String)
    (read : Json → Json.Decoded α) : Json.Decoded (Option α) :=
  memberOr ms name (Json.asOptional read) none

def required {α : Type} (name : String) (value : Option α) : Json.Decoded α :=
  value.elim (.error (.missing name)) .ok

end Timetable
