import RiscAssembly.Text.Basic

/-!
Numerals: natural numbers and integers as digits, and digits as natural numbers. A
numeral is read only if it has a digit and nothing but digits; signs, base marks and
limits are the business of those who read it.
-/

namespace RiscAssembly.Text

def decimal (n : Nat) : Text := Nat.toDigits 10 n

def signedDecimal : Int → Text
  | .ofNat n => decimal n
  | .negSucc n => '-' :: decimal (n + 1)

/-- Hexadecimal with capital letters and a least number of digits. -/
def hexadecimal (width n : Nat) : Text :=
  padStart width '0' ((Nat.toDigits 16 n).map Char.toUpper)

def isDigit (c : Char) : Bool := decide ('0' ≤ c) && decide (c ≤ '9')

/-- The value of a digit in a base of at most sixteen; letters count in either case. -/
def digit? (base : Nat) (c : Char) : Option Nat :=
  let value :=
    if isDigit c then some (c.toNat - '0'.toNat)
    else if decide ('a' ≤ c) && decide (c ≤ 'f') then some (c.toNat - 'a'.toNat + 10)
    else if decide ('A' ≤ c) && decide (c ≤ 'F') then some (c.toNat - 'A'.toNat + 10)
    else none
  value.filter (· < base)

/-- The value of `digits` written after a numeral with value `start`. -/
def digitsFrom? (base : Nat) : Nat → Text → Option Nat
  | start, [] => some start
  | start, c :: rest => (digit? base c).bind fun d => digitsFrom? base (base * start + d) rest

def natural? (base : Nat) (digits : Text) : Option Nat :=
  if digits.isEmpty then none else digitsFrom? base 0 digits

end RiscAssembly.Text
