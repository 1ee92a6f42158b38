import Timetable.Json.Basic

/-! Numerals of JSON texts. A floating point number is found in two roundings. -/

namespace Timetable

open Decimal Text

namespace Decimal.Binary

def quotient (x : Binary) : Nat × Nat := scale 2 x.exponent x.significand 1

def times (x y : Binary) : Binary :=
  nearest (x.quotient.1 * y.quotient.1) (x.quotient.2 * y.quotient.2)

def dividedBy (x y : Binary) : Binary :=
  nearest (x.quotient.1 * y.quotient.2) (x.quotient.2 * y.quotient.1)

def maxTens : Nat := 308

def powerOfTen (k : Nat) : Binary := nearest (Nat.pow 10 k) 1

/-- Divides by `10 ^ k`, where a division by the largest power is rounded on its own. -/
def overTens (x : Binary) (k : Nat) : Binary :=
  if x.significand = 0 then x
  else if _h : k ≤ maxTens then x.dividedBy (powerOfTen k)
  else overTens (x.dividedBy (powerOfTen maxTens)) (k - maxTens)
termination_by k
decreasing_by simp only [maxTens] at *; omega

def isFinite (x : Binary) : Bool := x.exponent ≤ 971

def scaleTens? (x : Binary) (e : Int) : Option Binary :=
  if x.significand = 0 then some x
  else if e < 0 then some (x.overTens (-e).toNat)
  else if e ≤ maxTens then some (x.times (powerOfTen e.toNat)) |>.filter isFinite
  else none

end Decimal.Binary

namespace Json

def gather (n : Nat) : List Char → Nat × Nat
  | [] => (n, 0)
  | c :: cs =>
    let next := 10 * n + (c.toNat - '0'.toNat)
    if next < UInt64.size then gather next cs else (n, cs.length + 1)

def exponent? : List Char → Option Int
  | [] => some 0
  | e :: cs =>
    if e = 'e' ∨ e = 'E' then
      match cs with
      | '-' :: cs => (digitsValue? cs).map fun n => -(n : Int)
      | '+' :: cs => (digitsValue? cs).map Int.ofNat
      | cs => (digitsValue? cs).map Int.ofNat
    else none

def floating? (negative : Bool) (whole fraction : List Char) (exponent : Int) : Option Json :=
  let (n, left) := gather 0 whole
  let (n, left') := gather n fraction
  let e := left + exponent - (fraction.length - left' : Nat)
  ((nearest n 1).scaleTens? e).map (floating negative)

def ofNumeral? (cs : List Char) : Option Json := do
  let (negative, cs) := match cs with
    | '-' :: cs => (true, cs)
    | cs => (false, cs)
  let whole := cs.takeWhile Char.isDigit
  let n ← digitsValue? whole
  match cs.dropWhile Char.isDigit with
  | [] =>
    let value : Int := if negative then -n else n
    if (negative ∧ n = 0) ∨ value < Int64.minValue.toInt ∨ UInt64.size ≤ value then floating? negative whole [] 0
    else return integer value
  | '.' :: cs =>
    let fraction := cs.takeWhile Char.isDigit
    let _ ← digitsValue? fraction
    floating? negative whole fraction (← exponent? (cs.dropWhile Char.isDigit))
  | cs => floating? negative whole [] (← exponent? cs)

end Json

end Timetable
