import Timetable.Json.Shortest

namespace Timetable

open Text

inductive Json where
  | null
  | bool (b : Bool)
  | integer (n : Int)
  | floating (negative : Bool) (magnitude : Decimal.Binary)
  | string (s : String)
  | array (elements : List Json)
  | object (members : List (String × Json))
deriving Repr, Inhabited

namespace Json

def present (ms : List (String × Option Json)) : List (String × Json) :=
  ms.filterMap fun (name, value) => value.map (name, ·)

def ofMembers (ms : List (String × Option Json)) : Json := object (present ms)

def intText (n : Int) : List Char :=
  if n < 0 then '-' :: decimal n.natAbs else decimal n.natAbs

def hexDigits (width n : Nat) : List Char := (Nat.toDigits 16 n).leftpad width '0'

def charText (c : Char) : List Char :=
  match c with
  | '"' => ['\\', '"']
  | '\\' => ['\\', '\\']
  | '\n' => ['\\', 'n']
  | '\r' => ['\\', 'r']
  | '\t' => ['\\', 't']
  | '\x08' => ['\\', 'b']
  | '\x0c' => ['\\', 'f']
  | c => if c.toNat < 0x20 then '\\' :: 'u' :: hexDigits 4 c.toNat else [c]

def stringText (s : String) : List Char := '"' :: s.toList.flatMap charText ++ ['"']

def newLine (depth : Nat) : List Char := '\n' :: List.replicate (2 * depth) ' '

mutual

def prettyText (depth : Nat) : Json → List Char
  | null => "null".toList
  | bool b => (toString b).toList
  | integer n => intText n
  | floating negative x => Decimal.floatingText negative x
  | string s => stringText s
  | array [] => ['[', ']']
  | array (x :: xs) =>
    '[' :: newLine (depth + 1) ++ prettyText (depth + 1) x ++ prettyElements (depth + 1) xs ++
      newLine depth ++ [']']
  | object [] => ['\x7b', '\x7d']
  | object ((k, v) :: ms) =>
    '\x7b' :: newLine (depth + 1) ++ stringText k ++ ':' :: ' ' :: prettyText (depth + 1) v ++
      prettyMembers (depth + 1) ms ++ newLine depth ++ ['\x7d']

def prettyElements (depth : Nat) : List Json → List Char
  | [] => []
  | x :: xs => ',' :: newLine depth ++ prettyText depth x ++ prettyElements depth xs

def prettyMembers (depth : Nat) : List (String × Json) → List Char
  | [] => []
  | (k, v) :: ms =>
    ',' :: newLine depth ++ stringText k ++ ':' :: ' ' :: prettyText depth v ++ prettyMembers depth ms

end

def pretty (j : Json) : String := String.ofList (prettyText 0 j)

theorem lookup_present_eq_none {ms : List (String × Option Json)} {name : String}
    (h : name ∉ ms.map Prod.fst) : (present ms).lookup name = none := by
  induction ms with
  | nil => rfl
  | cons m ms ih =>
    obtain ⟨k, v⟩ := m
    simp only [List.map_cons, List.mem_cons, not_or] at h
    have hk : (name == k) = false := beq_eq_false_iff_ne.2 h.1
    cases v <;> simpa [present, List.lookup_cons, hk] using ih h.2

theorem lookup_present {ms : List (String × Option Json)} (h : (ms.map Prod.fst).Nodup)
    (name : String) : (present ms).lookup name = (ms.lookup name).join := by
  induction ms with
  | nil => rfl
  | cons m ms ih =>
    obtain ⟨k, v⟩ := m
    simp only [List.map_cons, List.nodup_cons] at h
    by_cases hk : name = k
    · subst hk
      have := lookup_present_eq_none h.1
      cases v <;> simp_all [present]
    · have hk : (name == k) = false := beq_eq_false_iff_ne.2 hk
      cases v <;> simpa [present, List.lookup_cons, hk] using ih h.2

end Json

end Timetable
