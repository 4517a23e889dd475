import RiscAssembly.Isa.Error

/-!
Bit strings, most significant bit first. They are texts: what the machine words and the
artifact hold. A bit counts as one exactly if it is the character `1`, and widths are
byte lengths, which for strings of zeros and ones are the number of bits. `slice` asks
for a range inside the string; anything else is a fault.
-/

namespace RiscAssembly.BitString

open Text

def bit (value : Bool) : Char := if value then '1' else '0'

/-- The low `width` bits of `n`. -/
def binary : Nat → Nat → Text
  | 0, _ => []
  | width + 1, n => bit (n.testBit width) :: binary width n

/-- Bits `high` down to `low`, both included, where bit zero is the last one. -/
def slice (bits : Text) (high low : Nat) : Except InstructionError Text :=
  if low ≤ high ∧ high < byteLength bits then
    match cutBytes (byteLength bits - 1 - high) bits with
    | none => .error (.fault .bitRange)
    | some (_, tail) => match cutBytes (high - low + 1) tail with
      | none => .error (.fault .bitRange)
      | some (middle, _) => .ok middle
  else .error (.fault .bitRange)

def extend (fill : Char) (bits : Text) (width : Nat) : Except InstructionError Text :=
  if byteLength bits ≤ width then .ok (List.replicate (width - byteLength bits) fill ++ bits)
  else .error (.tooWide bits width)

def zeroExtend (bits : Text) (width : Nat) : Except InstructionError Text := extend '0' bits width

def signExtend (bits : Text) (width : Nat) : Except InstructionError Text :=
  extend (bits.head?.getD '0') bits width

/-- The value of the bits written after bits of value `start`, in 64-bit arithmetic. -/
def valueFrom : Nat → Text → Nat
  | start, [] => start
  | start, c :: rest => valueFrom ((2 * start + if c = '1' then 1 else 0) % UInt64.size) rest

def unsigned (bits : Text) : Nat := valueFrom 0 bits

/-- The two's complement value. From 64 bits on it is that of the low 64. -/
def signed (bits : Text) : Int :=
  let width := min (byteLength bits) 64
  let negative :=
    if width < 64 then decide (bits.head? = some '1') else decide (UInt64.size / 2 ≤ unsigned bits)
  if negative then (unsigned bits : Int) - (1 <<< width : Nat) else unsigned bits

end RiscAssembly.BitString
