import FieldQuery.Script.Error
import FieldQuery.Script.Scope
import FieldQuery.Script.Value

/-!
# Filters in scripts

A filter is written as a list of a word and what the word needs; an operand is written as a value,
or as an object that names a field or wraps operands.

Main definitions:

- `readOperand`, `readFilter`: read an operand and a filter.
-/

namespace FieldQuery.Script

/-- Reads the path of a field. -/
def readField (j : Json) : Scoped Token := do
  fieldToken (← given j.text?)

mutual

/-- Reads an operand. -/
def readOperand : Json → Scoped Operand
  | .obj [("f", path)] => return .field (← readField path)
  | .obj [("w", .str template)] => return .wrapped template []
  | .obj [("args", .arr operands), ("w", .str template)] =>
    return .wrapped template (← readOperands operands)
  | .obj [("lower", inner)] => return (← readOperand inner).lower
  | .obj [("upper", inner)] => return (← readOperand inner).upper
  | .obj [("coalesce", .arr [path, fallback])] => do
    let token ← readField path
    return .coalesce token (← readOperand fallback)
  | value => return .value (← given (readValue? value))

def readOperands : List Json → Scoped (List Operand)
  | [] => return []
  | operand :: rest => return (← readOperand operand) :: (← readOperands rest)

end

/-- Reads a piece of a condition written by hand. -/
def readFragment : Json → Scoped Fragment
  | .arr [.str "sql", .str text] => return .sql text
  | .arr [.str "value", value] => return .value (← given (readValue? value))
  | .arr [.str "table_column", path] => return .qualifiedColumn (← readField path)
  | .arr [.str "column", path] => return .bareColumn (← readField path)
  | .arr [.str "fail", error] => return .fail (← given (readPlanError? error))
  | _ => refused

def readComparison? : String → Option Comparison
  | "eq" => some .equal
  | "ne" => some .notEqual
  | "lt" => some .less
  | "le" => some .lessOrEqual
  | "gt" => some .greater
  | "ge" => some .greaterOrEqual
  | "like" => some .like
  | _ => none

/-- One level of nesting around a filter. -/
def wrapped? (kind : String) (filter : Filter) : Option Filter :=
  match kind with
  | "not" => some (.not filter)
  | "and" => some (.and [filter])
  | "or" => some (.or [filter])
  | "and2" => some (.and [filter, .and []])
  | "or2" => some (.or [.or [], filter])
  | _ => none

/-- So many levels of nesting. -/
def nested? (kind : String) : Nat → Filter → Option Filter
  | 0, filter => some filter
  | depth + 1, filter => do nested? kind depth (← wrapped? kind filter)

mutual

/-- Reads a filter. -/
def readFilter : Json → Scoped Filter
  | .arr [.str "null", path] => return .null (.field (← readField path)) false
  | .arr [.str "not_null", path] => return .null (.field (← readField path)) true
  | .arr [.str "true", operand] => return .truth (← readOperand operand) false
  | .arr [.str "false", operand] => return .truth (← readOperand operand) true
  | .arr [.str "in", operand, .arr values] => do
    let operand ← readOperand operand
    return .inList operand (← given (values.mapM readValue?))
  | .arr [.str "in_sub", operand, .str name] => do
    let operand ← readOperand operand
    return .inPlan operand (← queryNamed name).plan
  | .arr [.str "and", .arr filters] => return .and (← readFilters filters)
  | .arr [.str "or", .arr filters] => return .or (← readFilters filters)
  | .arr [.str "not", filter] => return .not (← readFilter filter)
  | .arr [.str "ref", .str leftTable, .str leftColumn, .str rightTable, .str rightColumn] =>
    return .link leftTable leftColumn rightTable rightColumn
  | .arr [.str "invalid", error] => return .invalid (← given (readPlanError? error))
  | .arr [.str "custom", .arr fragments] => do
    let steps ← fragments.mapM readFragment
    return .custom fun _ => steps
  | .arr [.str "deep", .str kind, depth, filter] => do
    let inner ← readFilter filter
    given (nested? kind (← given depth.nat?) inner)
  | .arr [.str name, left, right] => do
    let comparison ← given (readComparison? name)
    let left ← readOperand left
    return .compare left comparison (← readOperand right)
  | _ => refused

def readFilters : List Json → Scoped (List Filter)
  | [] => return []
  | filter :: rest => return (← readFilter filter) :: (← readFilters rest)

end

end FieldQuery.Script
