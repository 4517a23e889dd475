import RiscAssembly.Number.Decimal

/-!
Double precision numbers, in exact arithmetic on natural numbers: the double nearest to a
decimal number, where a tie goes to the even significand, and the shortest decimal number
that is nearest to a double. Of two shortest ones the closer is taken, and the greater if
they are equally close.
-/

namespace RiscAssembly

/-- Plus or minus `significand * 2 ^ exponent`. The significand has at most 53 bits; it has
fewer only at the least exponent. -/
structure Double where
  negative : Bool
  significand : Nat
  exponent : Int
  deriving DecidableEq

namespace Double

def leastExponent : Int := -1074

def greatestExponent : Int := 971

/-- The quotient of naturals, rounded to the nearest; a tie goes to the even number. -/
def roundQuotient (numerator denominator : Nat) : Nat :=
  let whole := numerator / denominator
  let rest := 2 * (numerator % denominator)
  if rest < denominator then whole
  else if rest = denominator ∧ whole % 2 = 0 then whole
  else whole + 1

def scaled (numerator denominator : Nat) (exponent : Int) : Nat × Nat :=
  (numerator * Nat.pow 2 (-exponent).toNat, denominator * Nat.pow 2 exponent.toNat)

/-- The exponent at which a positive quotient has 53 bits before the point, or the least
one. The logarithms tell it up to one. -/
def exponentOf (numerator denominator : Nat) : Int :=
  let low := max ((numerator.log2 : Int) - denominator.log2 - 53) leastExponent
  let parts := scaled numerator denominator low
  if Nat.pow 2 53 ≤ parts.1 / parts.2 then low + 1 else low

def ofQuotient (negative : Bool) (numerator denominator : Nat) : Option Double :=
  let exponent := exponentOf numerator denominator
  let parts := scaled numerator denominator exponent
  let rounded := roundQuotient parts.1 parts.2
  let result : Double :=
    if rounded = Nat.pow 2 53 then ⟨negative, Nat.pow 2 52, exponent + 1⟩
    else ⟨negative, rounded, exponent⟩
  if result.exponent ≤ greatestExponent then some result else none

/-- The nearest double. Numbers beyond all doubles have none, and those below half of the
least one are zero; both are told by their magnitude before any power is computed. -/
def nearest? (number : DecimalNumber) : Option Double :=
  if number.digits = 0 ∨ number.magnitude ≤ -324 then
    some ⟨number.negative, 0, leastExponent⟩
  else if 309 < number.magnitude then none
  else ofQuotient number.negative (number.digits * Nat.pow 10 number.exponent.toNat)
    (Nat.pow 10 (-number.exponent).toNat)

def compareScaled (digits : Nat) (power : Int) (count : Nat) (exponent : Int) : Ordering :=
  compare (digits * Nat.pow 10 power.toNat * Nat.pow 2 (-exponent).toNat)
    (count * Nat.pow 2 exponent.toNat * Nat.pow 10 (-power).toNat)

/-- Whether a decimal number is nearest to this double: it lies between the middles to both
neighbours, which count if the significand is even. Below a power of two the neighbour is
half as far away. -/
def isNearest (double : Double) (digits : Nat) (power : Int) : Bool :=
  let narrow := double.significand = Nat.pow 2 52 ∧ double.exponent ≠ leastExponent
  let low := if narrow then 4 * double.significand - 1 else 4 * double.significand - 2
  let atLow := compareScaled digits power low (double.exponent - 2)
  let atHigh := compareScaled digits power (4 * double.significand + 2) (double.exponent - 2)
  let closed := decide (double.significand % 2 = 0)
  (decide (atLow = .gt) || (closed && decide (atLow = .eq)))
    && (decide (atHigh = .lt) || (closed && decide (atHigh = .eq)))

def quotient (double : Double) : Nat × Nat :=
  (double.significand * Nat.pow 2 double.exponent.toNat, Nat.pow 2 (-double.exponent).toNat)

def decimalMagnitude (double : Double) : Int :=
  let parts := double.quotient
  if parts.2 ≤ parts.1 then (Text.decimal (parts.1 / parts.2)).length
  else 1 - ((Text.decimal ((parts.2 - 1) / parts.1)).length : Int)

def withDigits? (double : Double) (count : Nat) : Option DecimalNumber :=
  let power := double.decimalMagnitude - count
  let numerator := double.quotient.1 * Nat.pow 10 (-power).toNat
  let denominator := double.quotient.2 * Nat.pow 10 power.toNat
  let below := numerator / denominator
  let belowCloser := decide (2 * (numerator % denominator) < denominator)
  match double.isNearest below power, double.isNearest (below + 1) power with
  | true, true => some ⟨double.negative, if belowCloser then below else below + 1, power⟩
  | true, false => some ⟨double.negative, below, power⟩
  | false, true => some ⟨double.negative, below + 1, power⟩
  | false, false => none

def exact (double : Double) : DecimalNumber :=
  if 0 ≤ double.exponent then ⟨double.negative, double.quotient.1, 0⟩
  else ⟨double.negative, double.significand * Nat.pow 5 (-double.exponent).toNat, double.exponent⟩

/-- The shortest decimal number that is nearest to the double. Seventeen digits are always
enough. -/
def shortest (double : Double) : DecimalNumber :=
  if double.significand = 0 then ⟨double.negative, 0, 0⟩
  else (((List.range 17).map (· + 1)).findSome? double.withDigits?).getD double.exact

end Double

end RiscAssembly
