import RiscAssembly.Program.Symbols
import RiscAssembly.Proofs.Text

/-!
Symbol tables against the list of definitions they were made from. A name means its last
definition, and since names do not occur twice, every entry of a table is the last
definition of its name.
-/

namespace RiscAssembly.SymbolTable

variable {Address : Type}

/-- The definition of a name that counts, among definitions in source order. -/
def lastDefinition? (definitions : List (Symbol Address)) (name : Text) :
    Option (Symbol Address) :=
  definitions.reverse.find? fun symbol => symbol.name = name

theorem lastDefinition_cons (first : Symbol Address) (rest : List (Symbol Address))
    (name : Text) :
    lastDefinition? (first :: rest) name =
      (lastDefinition? rest name).or (if first.name = name then some first else none) := by
  simp only [lastDefinition?, List.reverse_cons, List.find?_append]
  by_cases same : first.name = name <;> simp [same]

theorem find_define (table : SymbolTable Address) (definitions : List (Symbol Address))
    (name : Text) :
    (table.define definitions).1.find? name =
      (lastDefinition? definitions name).or (table.find? name) := by
  induction definitions generalizing table with
  | nil => simp [define, lastDefinition?]
  | cons first rest ih =>
      rw [define, ih, lastDefinition_cons, Option.or_assoc]
      congr 1
      simp only [find?, insert, Text.find_put]
      by_cases same : first.name = name <;> simp [same]

theorem find_define_empty (definitions : List (Symbol Address)) (name : Text) :
    (empty.define definitions).1.find? name = lastDefinition? definitions name := by
  rw [find_define]
  simp [find?, empty]

theorem address_define_empty (definitions : List (Symbol Address)) (name : Text) :
    (empty.define definitions).1.address? name =
      (lastDefinition? definitions name).map Symbol.address := by
  rw [address?, find_define_empty]

theorem find_of_mem (table : SymbolTable Address) (symbol : Symbol Address)
    (member : symbol ∈ table.symbols) : table.find? symbol.name = some symbol := by
  obtain ⟨symbols, unique⟩ := table
  unfold find?
  dsimp only at member ⊢
  induction symbols with
  | nil => cases member
  | cons first rest ih =>
      obtain ⟨fresh, tail⟩ := List.nodup_cons.mp unique
      rcases List.mem_cons.mp member with rfl | later
      · simp
      · have different : first.name ≠ symbol.name := by
          intro same
          exact fresh (same ▸ List.mem_map_of_mem later)
        simp [different, ih tail later]

theorem define_entry (definitions : List (Symbol Address)) (symbol : Symbol Address)
    (member : symbol ∈ (empty.define definitions).1.symbols) :
    lastDefinition? definitions symbol.name = some symbol := by
  rw [← find_define_empty]
  exact find_of_mem _ symbol member

/-- Definitions of different names stay as they are. -/
theorem define_fresh (table : SymbolTable Address) (definitions : List (Symbol Address))
    (unique : ((table.symbols ++ definitions).map Symbol.name).Nodup) :
    (table.define definitions).1.symbols = table.symbols ++ definitions := by
  induction definitions generalizing table with
  | nil => rw [define, List.append_nil]
  | cons first rest ih =>
      have fresh : first.name ∉ table.symbols.map Symbol.name := by
        intro earlier
        rw [List.map_append, List.nodup_append] at unique
        exact unique.2.2 _ earlier _ List.mem_cons_self rfl
      have inserted : (table.insert first).symbols = table.symbols ++ [first] :=
        Text.put_fresh Symbol.name first table.symbols fresh
      have regrouped : table.symbols ++ first :: rest = (table.insert first).symbols ++ rest := by
        rw [inserted, List.append_assoc, List.singleton_append]
      rw [regrouped] at unique ⊢
      exact ih (table.insert first) unique

end RiscAssembly.SymbolTable
