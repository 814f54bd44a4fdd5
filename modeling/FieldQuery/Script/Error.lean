import FieldQuery.Error
import FieldQuery.Json.Access

/-!
# Errors in scripts

An error is written as a list of its kind and its texts, and shown with its kind and its message.
A field that is not mapped is shown by its path, because tokens mean nothing to a reader.

Main definitions:

- `planErrorKind`, `errorKind`: the kinds.
- `readError?`, `readPlanError?`: read an error.
- `showError`, `showPlanError`: show one.
-/

namespace FieldQuery.Script

def planErrorKind : PlanError → String
  | .mapping _ => "Mapping"
  | .unresolvedField _ => "UnresolvedField"
  | .transientField _ => "TransientField"
  | .malformedJoin _ => "MalformedJoin"
  | .invalidOrderDirection _ => "InvalidOrderDirection"
  | .orderWithoutField => "OrderWithoutField"
  | .noAssignments _ => "NoAssignments"

def errorKind : QueryError → String
  | .plan error => planErrorKind error
  | .connection _ => "Connection"
  | .query _ => "Query"
  | .uniqueViolation _ => "UniqueViolation"
  | .foreignKeyViolation _ => "ForeignKeyViolation"
  | .checkViolation _ => "CheckViolation"
  | .decode .. => "Decode"
  | .serialization _ => "Serialization"
  | .pool _ => "Pool"
  | .other _ => "Other"

/-- The error of a kind with its texts. -/
def errorOf? (kind text more : String) : Option QueryError :=
  match kind with
  | "Mapping" => some (.plan (.mapping (.other text)))
  | "TransientField" => some (.plan (.transientField text))
  | "MalformedJoin" => some (.plan (.malformedJoin (.other text)))
  | "InvalidOrderDirection" => some (.plan (.invalidOrderDirection text))
  | "OrderWithoutField" => some (.plan .orderWithoutField)
  | "NoAssignments" => some (.plan (.noAssignments text))
  | "Connection" => some (.connection text)
  | "Query" => some (.query text)
  | "UniqueViolation" => some (.uniqueViolation text)
  | "ForeignKeyViolation" => some (.foreignKeyViolation text)
  | "CheckViolation" => some (.checkViolation text)
  | "Decode" => some (.decode text more)
  | "Serialization" => some (.serialization text)
  | "Pool" => some (.pool text)
  | "Other" => some (.other text)
  | _ => none

/-- Reads an error; texts that are left out are empty. -/
def readError? (j : Json) : Option QueryError := do
  let parts ← j.items?
  let text (place : Nat) := ((parts[place]?).bind Json.text?).getD ""
  errorOf? (← (← parts[0]?).text?) (text 1) (text 2)

def readPlanError? (j : Json) : Option PlanError := do
  (← readError? j).planError?

/-- Shows an error of a plan; `pathOf` gives the paths of tokens. -/
def showPlanError (pathOf : Token → Option String) (error : PlanError) : Json :=
  match error with
  | .unresolvedField token =>
    .ofPairs [("error", .str "UnresolvedField"), ("field", .ofText? (pathOf token))]
  | error =>
    .ofPairs [("error", .str (planErrorKind error)), ("message", .str error.message)]

def showError (pathOf : Token → Option String) (error : QueryError) : Json :=
  match error with
  | .plan error => showPlanError pathOf error
  | error => .ofPairs [("error", .str (errorKind error)), ("message", .str error.message)]

end FieldQuery.Script
