import RiscAssembly.Text.Numeral

/-!
What a run of the command is asked for and what it leaves behind besides files. A base
address is written in decimal or, behind `0x`, in hexadecimal digits.
-/

namespace RiscAssembly

open Text

structure Options where
  input : Text
  output : Text
  dataBase : Option UInt64
  config : Option Text
  dump : Bool
  quiet : Bool
  deriving DecidableEq

structure Config where
  dataBase : UInt64 := 0
  deriving DecidableEq

structure Outcome where
  exit : Nat := 0
  stdout : Text := []
  stderr : Text := []
  deriving DecidableEq

inductive AddressError where
  | empty
  | invalidDigit
  | tooLarge
  deriving DecidableEq

def AddressError.message : AddressError → Text
  | .empty => "cannot parse integer from empty string".toList
  | .invalidDigit => "invalid digit found in string".toList
  | .tooLarge => "number too large to fit in target type".toList

/-- Digits read from the left, up to the first that is none or goes beyond 64 bits. -/
def addressDigits (base : Nat) : Nat → Text → Except AddressError UInt64
  | value, [] => .ok (UInt64.ofNat value)
  | value, c :: rest => match digit? base c with
    | none => .error .invalidDigit
    | some d =>
        if base * value + d < UInt64.size then addressDigits base (base * value + d) rest
        else .error .tooLarge

/-- A number with an optional plus sign. A sign alone is taken for a digit. -/
def addressNumber (base : Nat) : Text → Except AddressError UInt64
  | [] => .error .empty
  | '+' :: c :: rest => addressDigits base 0 (c :: rest)
  | digits => addressDigits base 0 digits

def parseAddress : Text → Except AddressError UInt64
  | '0' :: 'x' :: digits => addressNumber 16 digits
  | '0' :: 'X' :: digits => addressNumber 16 digits
  | digits => addressNumber 10 digits

end RiscAssembly
