import RiscAssembly.Text.Basic

/-!
Symbol tables. Symbols stand in the order of their first definition. A later definition
of the same name takes the place of the earlier one, and a warning remembers where that
was. All lines of an assembly are of one file, so that a line is all there is to say about
a place; reports put the path of the file before it.
-/

namespace RiscAssembly

structure Symbol (Address : Type) where
  name : Text
  line : Nat
  address : Address
  deriving DecidableEq

/-- A label that was defined again, with the line of the definition it replaces. -/
structure Warning where
  label : Text
  line : Nat
  previous : Nat
  deriving DecidableEq

/-- No two symbols have the same name. -/
@[ext]
structure SymbolTable (Address : Type) where
  symbols : List (Symbol Address)
  unique : (symbols.map Symbol.name).Nodup
  deriving DecidableEq

namespace SymbolTable

variable {Address : Type}

def empty : SymbolTable Address := ⟨[], List.nodup_nil⟩

def find? (table : SymbolTable Address) (name : Text) : Option (Symbol Address) :=
  table.symbols.find? fun symbol => symbol.name = name

def address? (table : SymbolTable Address) (name : Text) : Option Address :=
  (table.find? name).map Symbol.address

def insert (table : SymbolTable Address) (symbol : Symbol Address) : SymbolTable Address :=
  ⟨Text.put Symbol.name symbol table.symbols, Text.put_nodup Symbol.name symbol _ table.unique⟩

/-- The warning that a definition calls for. -/
def redefinition? (table : SymbolTable Address) (symbol : Symbol Address) : Option Warning :=
  (table.find? symbol.name).map fun previous => ⟨symbol.name, symbol.line, previous.line⟩

/-- The table after a sequence of definitions, and its warnings in order. -/
def define (table : SymbolTable Address) :
    List (Symbol Address) → SymbolTable Address × List Warning
  | [] => (table, [])
  | symbol :: rest =>
      let later := (table.insert symbol).define rest
      (later.1, (table.redefinition? symbol).toList ++ later.2)

end SymbolTable

end RiscAssembly
