import RiscAssembly.Command.Options
import RiscAssembly.Text.Invisible
import RiscAssembly.Yaml.Document
import RiscAssembly.Yaml.Scalar

/-!
Config files: a YAML mapping whose only known key is the base address of the data segment,
a natural number of 64 bits that is not in quotes. An empty file is an empty mapping. The
parts of the document are checked in their order, so a value of the wrong kind counts
before a mistake further down. Messages show texts in double quotes, on one line in which
everything can be seen.
-/

namespace RiscAssembly

open Text

namespace Config

open Yaml

inductive Finding where
  | scalar (kind : Scalar) (text : Text)
  | sequence
  | mapping
  deriving DecidableEq

/-- The kinds of scalars that have a tag of their own. -/
inductive TagKind where
  | boolean
  | integer
  | number
  | null
  deriving DecidableEq

inductive Mismatch where
  | unexpected (found : Finding)
  | mistagged (text : Text) (tag : TagKind)
  deriving DecidableEq

inductive Place where
  | root
  | key
  /-- The base address, whose key may be written as an alias. -/
  | dataBase (aliased : Bool)
  deriving DecidableEq

inductive Error where
  | mismatch (place : Place) (cause : Mismatch) (mark : Mark)
  | repeatedKey (mark : Mark)
  | mistake (cause : Yaml.Error)
  | incomplete
  | moreDocuments
  deriving DecidableEq

def messageEscapes : List (Char × Text) :=
  [('\x00', "\\0".toList), ('\t', "\\t".toList), ('\n', "\\n".toList), ('\r', "\\r".toList),
    ('\"', "\\\"".toList), ('\\', "\\\\".toList)]

def quotedCharacter (c : Char) : Text :=
  match messageEscapes.lookup c with
  | some escape => escape
  | none =>
      if isInvisible c then "\\u\x7b".toList ++ Nat.toDigits 16 c.toNat ++ "\x7d".toList else [c]

def inQuotes (text : Text) : Text := "\"".toList ++ text.flatMap quotedCharacter ++ "\"".toList

def integerName (value : Int) : Text :=
  let name := "integer `".toList ++ signedDecimal value ++ "`".toList
  if UInt64.size ≤ value then name ++ " as u128".toList
  else if value < -(UInt64.size / 2 : Nat) then name ++ " as i128".toList
  else name

def numberName (text : Text) : Text := "floating point `".toList ++ text ++ "`".toList

def stringName (text : Text) : Text := "string ".toList ++ inQuotes text

def Finding.name : Finding → Text
  | .sequence => "sequence".toList
  | .mapping => "map".toList
  | .scalar kind text => match kind with
    | .null => "unit value".toList
    | .boolean true => "boolean `true`".toList
    | .boolean false => "boolean `false`".toList
    | .integer value => integerName value
    | .number value => numberName value.shortest.positional
    | .infinity negative => numberName (if negative then "-inf" else "inf").toList
    | .notANumber => numberName "NaN".toList
    | .string => stringName text

def TagKind.name : TagKind → String
  | .boolean => "a boolean"
  | .integer => "an integer"
  | .number => "a float"
  | .null => "null"

def Place.expected : Place → String
  | .root => "struct Config"
  | .key => "field identifier"
  | .dataBase _ => "u64"

def Place.path : Place → String
  | .root => ""
  | .key => ""
  | .dataBase false => "data_base: "
  | .dataBase true => "?: "

def Mismatch.message (place : Place) : Mismatch → Text
  | .unexpected found =>
      "invalid type: ".toList ++ found.name ++ ", expected ".toList ++ place.expected.toList
  | .mistagged text tag =>
      "invalid value: ".toList ++ stringName text ++ ", expected ".toList ++ tag.name.toList

def Error.message : Error → Text
  | .mismatch place cause mark => place.path.toList ++ cause.message place ++ mark.suffix
  | .repeatedKey mark => "duplicate field `data_base`".toList ++ mark.suffix
  | .mistake cause => cause.message
  | .incomplete => "EOF while parsing a value".toList
  | .moreDocuments =>
      "deserializing from YAML containing more than one document is not supported".toList

def knownTags : List (Text × TagKind) :=
  [("tag:yaml.org,2002:bool".toList, .boolean), ("tag:yaml.org,2002:int".toList, .integer),
    ("tag:yaml.org,2002:float".toList, .number), ("tag:yaml.org,2002:null".toList, .null)]

def TagKind.ofTag? (tag : Text) : Option TagKind := knownTags.lookup tag

def TagKind.read? (text : Text) : TagKind → Option Scalar
  | .boolean => (boolean? text).map .boolean
  | .integer => (integer? text).map .integer
  | .number => Scalar.ofNumber? text
  | .null => if isNull text then some .null else none

/-- A plain scalar shows by its text what it is, also with a tag of one's own. Any other
scalar is a string, unless its tag says what it is. -/
def scalarMismatch (leaf : ScalarLeaf) : Mismatch :=
  match leaf.tag.bind TagKind.ofTag? with
  | some tag => match tag.read? leaf.text with
    | some kind => .unexpected (.scalar kind leaf.text)
    | none => .mistagged leaf.text tag
  | none =>
      if leaf.style = .plain && leaf.tag.all (fun tag => tag.head? = some '!') then
        .unexpected (.scalar (.ofPlain leaf.text) leaf.text)
      else .unexpected (.scalar .string leaf.text)

def misplaced (place : Place) (part : Part) : Error :=
  match part.kind with
  | .scalar leaf => .mismatch place (scalarMismatch leaf) part.mark
  | .sequenceStart => .mismatch place (.unexpected .sequence) part.mark
  | .mappingStart => .mismatch place (.unexpected .mapping) part.mark
  | _ => .incomplete

def brokenOff (document : Document) : Error :=
  match document.mistake with
  | some cause => .mistake cause
  | none => .incomplete

/-- A part, or the one that it is an alias for. -/
def resolve (document : Document) (part : Part) : Part :=
  match part.kind with
  | .alias number => (document.target? number).getD part
  | _ => part

def isAlias (part : Part) : Bool :=
  match part.kind with
  | .alias _ => true
  | _ => false

/-- Every scalar is a key, whatever it would be as a value. -/
def keyName (document : Document) (part : Part) : Except Error Text :=
  let part := resolve document part
  match part.kind with
  | .scalar leaf => .ok leaf.text
  | _ => .error (misplaced .key part)

/-- A plain number, or a literal block with the tag of integers. -/
def address? (leaf : ScalarLeaf) : Option UInt64 :=
  let taggedBlock := leaf.style = .literal && leaf.tag.bind TagKind.ofTag? = some .integer
  if leaf.style ≠ .plain && !taggedBlock then none
  else match integer? leaf.text with
    | some (.ofNat n) =>
        if n < UInt64.size ∧ leaf.text.head? ≠ some '-' then some (UInt64.ofNat n) else none
    | _ => none

def address (document : Document) (place : Place) (part : Part) : Except Error UInt64 :=
  let part := resolve document part
  let mismatch := Except.error (misplaced place part)
  match part.kind with
  | .scalar leaf => match address? leaf with
    | some value => .ok value
    | none => mismatch
  | _ => mismatch

/-- How many collections are open behind a part. -/
def depthBehind (depth : Nat) : PartKind → Nat
  | .sequenceStart => depth + 1
  | .mappingStart => depth + 1
  | .sequenceEnd => depth - 1
  | .mappingEnd => depth - 1
  | _ => depth

def skipNode : Nat → List Part → Option (List Part)
  | _, [] => none
  | depth, part :: rest =>
      let depth := depthBehind depth part.kind
      if depth = 0 then some rest else skipNode depth rest

/-- The base address among the fields of the mapping that starts at a mark. The fuel bounds
the number of fields. -/
def fieldsFrom (document : Document) (start : Mark) :
    Nat → Option UInt64 → List Part → Except Error (Option UInt64)
  | 0, _, _ => .error (brokenOff document)
  | _, _, [] => .error (brokenOff document)
  | fuel + 1, base, part :: rest => do
      if part.kind = .mappingEnd then return base
      else
        let name ← keyName document part
        if name ≠ "data_base".toList then
          match skipNode 0 rest with
          | none => .error (brokenOff document)
          | some rest => fieldsFrom document start fuel base rest
        else if base.isSome then .error (.repeatedKey start)
        else match rest with
          | [] => .error (brokenOff document)
          | value :: rest =>
              let found ← address document (.dataBase (isAlias part)) value
              fieldsFrom document start fuel (some found) rest

def isEmptyLeaf (leaf : ScalarLeaf) : Bool := leaf.text.isEmpty && leaf.style = .plain

/-- The config in a document, leaving aside what follows it. -/
def ofParts (document : Document) : Except Error Config :=
  match document.parts with
  | [] => .error (brokenOff document)
  | part :: rest => match part.kind with
    | .nothing => .ok {}
    | .mappingStart => do
        let base ← fieldsFrom document part.mark (rest.length + 1) none rest
        return { dataBase := base.getD 0 }
    | .scalar leaf => if isEmptyLeaf leaf then .ok {} else .error (misplaced .root part)
    | _ => .error (misplaced .root part)

def ofDocument (document : Document) : Except Error Config := do
  let config ← ofParts document
  match document.mistake with
  | some cause => .error (.mistake cause)
  | none => if document.isLast then return config else .error .moreDocuments

def parse (text : Text) : Except Error Config := ofDocument (.ofText text)

end Config

end RiscAssembly
