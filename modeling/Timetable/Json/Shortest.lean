import Timetable.Text.Numeral

/-! The shortest decimal that names a binary floating point number of 64 bits. -/

namespace Timetable.Decimal

open Text

structure Binary where
  significand : Nat
  exponent : Int
deriving DecidableEq, Repr

def scale (b : Nat) (e : Int) (n d : Nat) : Nat × Nat :=
  if 0 ≤ e then (n * b.pow e.toNat, d) else (n, d * b.pow (-e).toNat)

def divRoundEven (n d : Nat) : Nat :=
  let q := n / d
  let r := 2 * (n % d)
  if d < r ∨ (r = d ∧ q % 2 = 1) then q + 1 else q

def minExponent : Int := -1074

def leastFull : Nat := 1 <<< 52

def nearest (n d : Nat) : Binary :=
  let guess : Int := n.log2 - d.log2 - 52
  let (n', d') := scale 2 (-guess) n d
  let e := max (if n' < leastFull * d' then guess - 1 else guess) minExponent
  let (n', d') := scale 2 (-e) n d
  let m := divRoundEven n' d'
  if m = 2 * leastFull then ⟨leastFull, e + 1⟩ else ⟨m, e⟩

namespace Binary

/-- Compares `a * 10 ^ k` with `m` quarters of the unit in the last place. -/
def compareDecimal (x : Binary) (a : Nat) (k : Int) (m : Nat) : Ordering :=
  let (n, d) := scale 10 k a 1
  let (n', d') := scale 2 (x.exponent - 2) m 1
  compare (n * d') (n' * d)

def isNamedBy (x : Binary) (a : Nat) (k : Int) : Bool :=
  let down := if x.significand = leastFull ∧ minExponent < x.exponent then 1 else 2
  let low := x.compareDecimal a k (4 * x.significand - down)
  let high := x.compareDecimal a k (4 * x.significand + 2)
  let even := x.significand % 2 == 0
  (low == .gt || (even && low == .eq)) && (high == .lt || (even && high == .eq))

def floorOver (x : Binary) (k : Int) : Nat :=
  let (n, d) := scale 2 x.exponent x.significand 1
  let (n, d) := scale 10 (-k) n d
  n / d

def magnitude (x : Binary) : Int := (decimal (x.floorOver (-400))).length - 400

def withDigits? (x : Binary) (digits : Nat) : Option (Nat × Int) :=
  let k := x.magnitude - digits
  let a := x.floorOver k
  match x.isNamedBy a k, x.isNamedBy (a + 1) k with
  | true, false => some (a, k)
  | false, true => some (a + 1, k)
  | false, false => none
  | true, true =>
    -- twice the number lies between twice the one and twice the other decimal
    match x.compareDecimal (2 * a + 1) k (8 * x.significand) with
    | .lt => some (a + 1, k)
    | .eq => some (a + a % 2, k)
    | .gt => some (a, k)

def shortest (x : Binary) : Nat × Int :=
  ((List.range' 1 17).findSome? x.withDigits?).getD (x.floorOver (x.magnitude - 17), x.magnitude - 17)

end Binary

def positional (a : Nat) (k : Int) : List Char :=
  let ds := decimal a
  if 0 ≤ k then ds ++ List.replicate k.toNat '0' ++ ['.', '0']
  else
    let places := (-k).toNat
    let ds := ds.leftpad (places + 1) '0'
    let whole := ds.take (ds.length - places)
    let part := (ds.drop (ds.length - places)).reverse.dropWhile (· == '0')
    whole ++ '.' :: if part.isEmpty then ['0'] else part.reverse

def scientific (a : Nat) (k : Int) : List Char :=
  let ds := decimal a
  let e := k + ds.length - 1
  let part := (ds.tail.reverse.dropWhile (· == '0')).reverse
  ds.take 1 ++ (if part.isEmpty then [] else '.' :: part) ++
    ['e', if e < 0 then '-' else '+'] ++ decimal e.natAbs

def floatingText (negative : Bool) (x : Binary) : List Char :=
  let (a, k) := if x.significand = 0 then (0, 0) else x.shortest
  let places := k + (decimal a).length
  (if negative then ['-'] else []) ++
    if -5 < places ∧ places ≤ 16 then positional a k else scientific a k

end Timetable.Decimal
