import RiscAssembly.Number.Double

/-!
Plain YAML scalars and what they are read as. An integer has at most 128 bits. A number
with a fraction or an exponent, or a greater integer, counts if a double is near it. A
decimal integer with leading zeros is a string.
-/

namespace RiscAssembly.Yaml

open Text

inductive Scalar where
  | null
  | boolean (value : Bool)
  | integer (value : Int)
  | number (value : Double)
  | infinity (negative : Bool)
  | notANumber
  | string
  deriving DecidableEq

def oneOf (choices : List String) (text : Text) : Bool :=
  choices.any fun choice => decide (choice.toList = text)

/-- Digits with a base mark in front, or decimal ones without. -/
def magnitude? : Text → Option Nat
  | '0' :: 'x' :: digits => natural? 16 digits
  | '0' :: 'o' :: digits => natural? 8 digits
  | '0' :: 'b' :: digits => natural? 2 digits
  | digits => natural? 10 digits

def dropSign : Text → Text
  | '+' :: rest => rest
  | '-' :: rest => rest
  | text => text

def hasLeadingZeros (text : Text) : Bool :=
  match dropSign text with
  | '0' :: next :: rest => (next :: rest).all isDigit
  | _ => false

def integer? (text : Text) : Option Int :=
  if hasLeadingZeros text then none
  else match text with
    | '-' :: body => ((magnitude? body).filter (· ≤ Nat.pow 2 127)).map fun n => -(n : Int)
    | '+' :: body => ((magnitude? body).filter (· < Nat.pow 2 128)).map Int.ofNat
    | body => ((magnitude? body).filter (· < Nat.pow 2 128)).map Int.ofNat

def exponent? : Text → Option Int
  | '-' :: digits => (natural? 10 digits).map fun n => -(n : Int)
  | '+' :: digits => (natural? 10 digits).map Int.ofNat
  | digits => (natural? 10 digits).map Int.ofNat

/-- Digits with at most one point among them, and the number of those behind it. -/
def pointed? (text : Text) : Option (Nat × Nat) :=
  match cut (· = '.') text with
  | some (whole, fraction) => (natural? 10 (whole ++ fraction)).map fun n => (n, fraction.length)
  | none => (natural? 10 text).map fun n => (n, 0)

def unsignedNumber? (negative : Bool) (text : Text) : Option DecimalNumber :=
  match cut (fun c => decide (c = 'e') || decide (c = 'E')) text with
  | some (mantissa, power) => do
      let (digits, places) ← pointed? mantissa
      let exponent ← exponent? power
      return ⟨negative, digits, exponent - places⟩
  | none => (pointed? text).map fun (digits, places) => ⟨negative, digits, -(places : Int)⟩

def number? : Text → Option DecimalNumber
  | '-' :: body => unsignedNumber? true body
  | '+' :: body => unsignedNumber? false body
  | body => unsignedNumber? false body

def special? (text : Text) : Option Scalar :=
  if oneOf [".inf", ".Inf", ".INF", "+.inf", "+.Inf", "+.INF"] text then some (.infinity false)
  else if oneOf ["-.inf", "-.Inf", "-.INF"] text then some (.infinity true)
  else if oneOf [".nan", ".NaN", ".NAN"] text then some .notANumber
  else none

/-- A text read as a number that need not be whole. -/
def Scalar.ofNumber? (text : Text) : Option Scalar :=
  match special? text with
  | some scalar => some scalar
  | none => ((number? text).bind Double.nearest?).map .number

def isNull (text : Text) : Bool := oneOf ["null", "Null", "NULL", "~"] text

def boolean? (text : Text) : Option Bool :=
  if oneOf ["true", "True", "TRUE"] text then some true
  else if oneOf ["false", "False", "FALSE"] text then some false
  else none

def Scalar.ofPlain (text : Text) : Scalar :=
  if text.isEmpty || isNull text then .null
  else match boolean? text with
    | some value => .boolean value
    | none => match integer? text with
      | some value => .integer value
      | none => if hasLeadingZeros text then .string else (ofNumber? text).getD .string

end RiscAssembly.Yaml
