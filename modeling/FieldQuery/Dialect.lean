/-!
# SQL dialects

How a database system wants identifiers quoted, values marked and results paged.

Main definitions:

- `Dialect`, and the three dialects `postgres`, `mysql` and `sqlite`.
- `Dialect.quotedTable`: a table's name, qualified by its schema if it has one.
-/

namespace FieldQuery

/-- The rules of a database system. -/
structure Dialect where
  name : String
  quote : String → String
  /-- The mark of a bound value, by its number from one on. -/
  placeholder : Nat → String
  /-- The clause in front of `OFFSET` that limits the rows to a marked number; without one the
  limit comes last, in the words of the standard. -/
  limitClause : String → Option String := fun _ => none
  /-- The clause that stands in front of a lone `OFFSET` where that needs a limit. -/
  unboundedLimit : Option String := none

namespace Dialect

/-- Doubles a quote character. -/
def doubled (mark c : Char) : List Char :=
  if c = mark then [mark, mark] else [c]

/-- An identifier between quote characters, each one inside it doubled. -/
def quoteWith (mark : Char) (identifier : String) : String :=
  String.ofList (mark :: identifier.toList.flatMap (doubled mark) ++ [mark])

def postgres : Dialect where
  name := "postgres"
  quote := quoteWith '"'
  placeholder index := "$" ++ toString index

def mysql : Dialect where
  name := "mysql"
  quote := quoteWith '\x60'
  placeholder _ := "?"
  limitClause mark := some ("LIMIT " ++ mark)
  unboundedLimit := some "LIMIT 18446744073709551615"

def sqlite : Dialect where
  name := "sqlite"
  quote := quoteWith '"'
  placeholder _ := "?"
  limitClause mark := some ("LIMIT " ++ mark)
  unboundedLimit := some "LIMIT -1"

/-- A table's quoted name, behind its quoted schema when that is not empty. -/
def quotedTable (dialect : Dialect) (schema : Option String) (table : String) : String :=
  match schema with
  | some schema =>
    if schema.isEmpty then dialect.quote table
    else dialect.quote schema ++ "." ++ dialect.quote table
  | none => dialect.quote table

end Dialect

end FieldQuery
