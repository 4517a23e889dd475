import RiscAssembly.Text.Numeral

/-!
Decimal numbers: digits scaled by a power of ten, and their positional text, which has at
least one place behind the point and never an exponent.
-/

namespace RiscAssembly

/-- Plus or minus `digits * 10 ^ exponent`. -/
structure DecimalNumber where
  negative : Bool
  digits : Nat
  exponent : Int
  deriving DecidableEq

namespace DecimalNumber

open Text

/-- The number is less than this power of ten. -/
def magnitude (number : DecimalNumber) : Int :=
  ((decimal number.digits).length : Int) + number.exponent

/-- The text without the zeros at its end. -/
def dropZeros (text : Text) : Text := (text.reverse.dropWhile (· = '0')).reverse

def unsignedPositional (digits : Nat) (exponent : Int) : Text :=
  if digits = 0 then "0.0".toList
  else if 0 ≤ exponent then decimal digits ++ List.replicate exponent.toNat '0' ++ ".0".toList
  else
    let places := (-exponent).toNat
    let text := padStart (places + 1) '0' (decimal digits)
    let fraction := dropZeros (text.drop (text.length - places))
    text.take (text.length - places) ++ ".".toList
      ++ if fraction.isEmpty then "0".toList else fraction

def positional (number : DecimalNumber) : Text :=
  (if number.negative then "-".toList else [])
    ++ unsignedPositional number.digits number.exponent

end DecimalNumber

end RiscAssembly
