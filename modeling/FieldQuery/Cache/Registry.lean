/-!
# The registry of cached reads

Which keys of the cache hold rows of which tables.  No table without a key is kept.

Main definitions:

- `Registry.register`, `Registry.keysFor`, `Registry.forget`.
-/

namespace FieldQuery.Cache

/-- Tables with the keys of the reads that touched them. -/
structure Registry where
  tables : List (String × List String) := []
  deriving DecidableEq, Repr

namespace Registry

/-- The keys registered for one table. -/
def keys (registry : Registry) (table : String) : List String :=
  ((registry.tables.find? (·.1 == table)).map (·.2)).getD []

/-- Adds a key to a table's. -/
def insert (key : String) (table : String) :
    List (String × List String) → List (String × List String)
  | [] => [(table, [key])]
  | (known, keys) :: rest =>
    if known == table then (known, if keys.contains key then keys else keys ++ [key]) :: rest
    else (known, keys) :: insert key table rest

/-- Registers a key for each of several tables. -/
def register (tables : List String) (key : String) (registry : Registry) : Registry :=
  ⟨tables.foldl (fun known table => insert key table known) registry.tables⟩

/-- The keys registered for any of several tables, sorted, each once. -/
def keysFor (tables : List String) (registry : Registry) : List String :=
  (tables.flatMap registry.keys).eraseDups.mergeSort fun a b => decide (a ≤ b)

/-- Removes keys from every table, and tables that are left without one. -/
def forget (keys : List String) (registry : Registry) : Registry :=
  ⟨(registry.tables.map fun (table, known) => (table, known.filter (!keys.contains ·))).filter
    fun (_, known) => !known.isEmpty⟩

def isEmpty (registry : Registry) : Bool := registry.tables.isEmpty

end Registry

end FieldQuery.Cache
