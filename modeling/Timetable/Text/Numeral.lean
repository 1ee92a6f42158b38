namespace Timetable.Text

def decimal (n : Nat) : List Char := Nat.toDigits 10 n

def paddedDecimal (width n : Nat) : List Char := (decimal n).leftpad width '0'

def digitsValue? (cs : List Char) : Option Nat :=
  if !cs.isEmpty && cs.all Char.isDigit then some (Nat.ofDigitChars 10 cs 0) else none

def readNat? (limit : Nat) (cs : List Char) : Option Nat :=
  match cs with
  | '+' :: rest => (digitsValue? rest).filter (· ≤ limit)
  | _ => (digitsValue? cs).filter (· ≤ limit)

def maxWord : Nat := UInt32.size - 1

def readWord? (cs : List Char) : Option Nat := readNat? maxWord cs

theorem decimal_ne_nil (n : Nat) : decimal n ≠ [] := Nat.toDigits_ne_nil

theorem isDigit_of_mem_decimal {n : Nat} {c : Char} (h : c ∈ decimal n) : c.isDigit = true :=
  Nat.isDigit_of_mem_toDigits (by decide) (by decide) h

theorem digitsValue?_decimal (n : Nat) : digitsValue? (decimal n) = some n := by
  have h : (decimal n).all Char.isDigit = true :=
    List.all_eq_true.2 fun _ hc => isDigit_of_mem_decimal hc
  simp only [digitsValue?, h, Bool.and_true]
  simp [decimal, Nat.ofDigitChars_toDigits]

theorem readNat?_decimal {n limit : Nat} (h : n ≤ limit) : readNat? limit (decimal n) = some n := by
  have hd := digitsValue?_decimal n
  cases hc : decimal n with
  | nil => exact absurd hc (decimal_ne_nil n)
  | cons c cs =>
    have hp : c ≠ '+' := by
      rintro rfl
      have := isDigit_of_mem_decimal (n := n) (c := '+') (by simp [hc])
      exact absurd this (by decide)
    rw [hc] at hd
    simp only [readNat?, hd]
    split
    · next he => exact absurd (List.cons.inj he).1 hp
    · simp [h]

end Timetable.Text
