/-! Documents of settings: tables of keys with values, where a value can be an array or a table itself. -/

namespace Timetable.Toml

inductive Origin where
  | braces
  | header
  | passed
  | dotted
deriving DecidableEq, Repr

inductive Value where
  | integer (n : Int)
  | floating (text : String)
  | string (s : String)
  | bool (b : Bool)
  | moment (text : String)
  | array (elements : List Value)
  | table (origin : Origin) (entries : List (String × Value))
  | tables (elements : List (List (String × Value)))

abbrev Entries := List (String × Value)

structure KeyPath where
  outer : List String
  key : String
deriving DecidableEq, Repr

inductive TomlError where
  | badLine (text : String)
  | repeatedName (name : String)
  | notTable (name : String)
  | badValue (key : String)
deriving DecidableEq, Repr

def TomlError.message : TomlError → String
  | badLine text => s!"TOML parse error: cannot read the line '{text}'"
  | repeatedName name => s!"TOML parse error: '{name}' is given more than once"
  | notTable name => s!"TOML parse error: '{name}' is not a table"
  | badValue key => s!"TOML parse error: the value of '{key}' does not fit"

namespace Value

def asBool? : Value → Option Bool
  | bool b => some b
  | _ => none

def asString? : Value → Option String
  | string s => some s
  | _ => none

def asBelow? (bound : Nat) : Value → Option Nat
  | integer n => if 0 ≤ n ∧ n < bound then some n.toNat else none
  | _ => none

def asUInt32? (v : Value) : Option UInt32 := (v.asBelow? UInt32.size).map UInt32.ofNat
def asUInt64? (v : Value) : Option UInt64 := (v.asBelow? UInt64.size).map UInt64.ofNat

end Value

abbrev Members := Nat → String → Option Value

def Value.members (name : String) : Value → Except TomlError Members
  | table _ es => .ok fun _ member => es.lookup member
  | array xs => .ok fun i _ => xs[i]?
  | tables ts => .ok fun i _ => ts[i]?.map (table .header)
  | _ => .error (.notTable name)

namespace Members
variable {α : Type}

def valueOr (m : Members) (i : Nat) (key : String) (read : Value → Option α) (default : α) :
    Except TomlError α :=
  match m i key with
  | none => .ok default
  | some v => (read v).elim (.error (.badValue key)) .ok

def recordOr (m : Members) (i : Nat) (key : String) (read : Value → Except TomlError α)
    (default : α) : Except TomlError α :=
  ((m i key).map read).getD (.ok default)

end Members

end Timetable.Toml
