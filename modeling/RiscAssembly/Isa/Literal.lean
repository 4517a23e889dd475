import RiscAssembly.Isa.BitString

/-!
Integer literals: an optional sign, then decimal digits or `0x` and hexadecimal digits.
The value lies between -2^63 and 2^64 - 1, so that it has a 64-bit two's complement form;
positive literals are read as unsigned.
-/

namespace RiscAssembly.Literal

open Text

/-- Whether a literal has a minus sign, and what follows the sign. -/
def signAndBody : Text → Bool × Text
  | '-' :: body => (true, body)
  | '+' :: body => (false, body)
  | body => (false, body)

def magnitude? : Text → Option Nat
  | '0' :: 'x' :: digits => natural? 16 digits
  | '0' :: 'X' :: digits => natural? 16 digits
  | digits => natural? 10 digits

def value? (literal : Text) : Option Int :=
  match magnitude? (signAndBody literal).2 with
  | none => none
  | some magnitude =>
      if (signAndBody literal).1 then
        if magnitude ≤ UInt64.size / 2 then some (-(magnitude : Int)) else none
      else if magnitude < UInt64.size then some magnitude else none

def twosComplement (literal : Text) : Except InstructionError Text :=
  match value? literal with
  | none => .error (.literalFormat literal)
  | some value => .ok (BitString.binary 64 (value % UInt64.size).toNat)

/-- The low `width` bits of a literal; the width must lie between 1 and 64. -/
def field (literal : Text) (width : Nat) : Except InstructionError Text := do
  let bits ← twosComplement literal
  if width = 0 then .error (.fault .bitRange)
  else BitString.slice bits (width - 1) 0

end RiscAssembly.Literal
