import Timetable.Toml.Basic

namespace Timetable.Toml

inductive Via where
  | header
  | key
deriving DecidableEq, Repr

namespace Via

def origin : Via → Origin
  | header => .passed
  | key => .dotted

def admits : Via → Origin → Bool
  | _, .braces => false
  | header, _ => true
  | key, o => o != .header

end Via

namespace Entries

def put (name : String) (v : Value) : Entries → Entries
  | [] => [(name, v)]
  | e :: es => if e.1 = name then (name, v) :: es else e :: put name v es

/-- Changes the table at the end of a path. Tables that are missing are made, and of several tables
under one name the last one is entered. -/
def changeAt (via : Via) (change : Origin → Entries → Except TomlError Entries) :
    List String → Origin → Entries → Except TomlError Entries
  | [], origin, es => change origin es
  | name :: path, _, es =>
    match es.lookup name with
    | none => do
      let inner ← changeAt via change path via.origin []
      return es.put name (.table via.origin inner)
    | some (.table origin inner) =>
      if via.admits origin then do
        let inner ← changeAt via change path origin inner
        return es.put name (.table origin inner)
      else .error (.repeatedName name)
    | some (.tables ts) => do
      let last ← changeAt via change path .header (ts.getLast?.getD [])
      return es.put name (.tables (ts.dropLast ++ [last]))
    | some _ => .error (.notTable name)

def add (es : Entries) (path : KeyPath) (v : Value) : Except TomlError Entries :=
  es.changeAt .key (fun origin inner =>
    if (origin = .dotted ↔ path.outer ≠ []) ∧ (inner.lookup path.key).isNone then
      .ok (inner.put path.key v)
    else .error (.repeatedName path.key)) path.outer .header

def addAll (es : Entries) (new : List (KeyPath × Value)) : Except TomlError Entries :=
  new.foldlM (fun es (path, v) => es.add path v) es

def addTable (es : Entries) (path : KeyPath) (new : List (KeyPath × Value)) :
    Except TomlError Entries :=
  es.changeAt .header (fun _ outer =>
    match outer.lookup path.key with
    | none => do return outer.put path.key (.table .header (← addAll [] new))
    | some (.table .passed inner) => do
      return outer.put path.key (.table .header (← addAll inner new))
    | some _ => .error (.repeatedName path.key)) path.outer .header

def addElement (es : Entries) (path : KeyPath) (new : List (KeyPath × Value)) :
    Except TomlError Entries :=
  es.changeAt .header (fun _ outer =>
    match outer.lookup path.key with
    | none => do return outer.put path.key (.tables [← addAll [] new])
    | some (.tables ts) => do return outer.put path.key (.tables (ts ++ [← addAll [] new]))
    | some _ => .error (.repeatedName path.key)) path.outer .header

end Entries

end Timetable.Toml
