import FieldQuery.Dialect
import FieldQuery.Json.Access

/-!
# Dialects in scripts

A dialect is named, or described by the texts that it puts around names, in the place of values
and in front of limits.
-/

namespace FieldQuery.Script

/-- A text with another one in the place of each mark. -/
def fillIn (mark value text : String) : String :=
  value.intercalate (text.splitOn mark)

/-- A dialect that writes names as they are and numbers its marks. -/
def bareDialect : Dialect :=
  { name := "bare", quote := id, placeholder := fun n => ":" ++ toString n }

def namedDialect? : String → Option Dialect
  | "postgres" => some .postgres
  | "mysql" => some .mysql
  | "sqlite" => some .sqlite
  | "bare" => some bareDialect
  | _ => none

/-- Reads the description of a dialect. -/
def readCustomDialect? (j : Json) : Option Dialect := do
  let quote ← j.member? "quote" Json.text? ""
  let mark ← j.member? "placeholder" Json.text? "?"
  let limit ← j.optional? "limit" Json.text?
  return {
    name := "custom"
    quote := fun name => quote ++ name ++ quote
    placeholder := fun n => fillIn "#" (toString n) mark
    limitClause := fun count => limit.map (fillIn "\x7b\x7d" count)
    unboundedLimit := ← j.optional? "unbounded" Json.text? }

/-- Reads a dialect. -/
def readDialect? : Json → Option Dialect
  | .str name => namedDialect? name
  | .obj members => readCustomDialect? (.obj members)
  | _ => none

end FieldQuery.Script
