import RiscAssembly.Isa.BitString

/-!
The 32 integer registers and their spellings: the calling convention's names, `fp` as a
second name of register eight, and `x` or `$` before a decimal number without leading
zeros.
-/

namespace RiscAssembly

abbrev Register := Fin 32

namespace Register

/-- The register that always reads as zero. -/
def zero : Register := 0

def names : List Text :=
  ["zero", "ra", "sp", "gp", "tp", "t0", "t1", "t2", "s0", "s1", "a0", "a1", "a2", "a3", "a4", "a5",
    "a6", "a7", "s2", "s3", "s4", "s5", "s6", "s7", "s8", "s9", "s10", "s11", "t3", "t4", "t5",
    "t6"].map String.toList

theorem names_length : names.length = 32 := rfl

def name (register : Register) : Text := names.get (register.cast names_length.symm)

def ofIndex? (index : Nat) : Option Register :=
  if inside : index < 32 then some ⟨index, inside⟩ else none

/-- A register number in decimal: no leading zero, unless it is the whole number. -/
def number? : Text → Option Nat
  | [] => none
  | [digit] => Text.natural? 10 [digit]
  | '0' :: _ => none
  | digits => Text.natural? 10 digits

def numbered? : Text → Option Register
  | 'x' :: digits => (number? digits).bind ofIndex?
  | '$' :: digits => (number? digits).bind ofIndex?
  | _ => none

def ofName? (text : Text) : Option Register :=
  if text = "fp".toList then some 8
  else match names.findIdx? (· = text) with
    | some index => ofIndex? index
    | none => numbered? text

def parse (text : Text) : Except InstructionError Register :=
  match ofName? text with
  | some register => .ok register
  | none => .error (.invalidRegister text)

def bits (register : Register) : Text := BitString.binary 5 register.val

end Register

end RiscAssembly
