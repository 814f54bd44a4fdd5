import FieldQuery.Reference

/-!
# Errors

What can be wrong with a plan, and what can go wrong when one is run.

Main definitions:

- `PlanError`, `QueryError`: the causes.
- `PlanError.message`, `QueryError.message`: their wording.
-/

namespace FieldQuery

/-- Why a target cannot be mapped to a table. -/
inductive MappingProblem
  | fieldCount (table : String) (fields columns : Nat)
  | nothingQueryable (table : String)
  | nothingReturned (table : String)
  | nothingSelected
  | noTable
  | other (text : String)
  deriving DecidableEq, Repr

/-- Why a join cannot be completed. -/
inductive JoinProblem
  | notOpen
  | noReferences
  | other (text : String)
  deriving DecidableEq, Repr

/-- What is wrong with a plan. -/
inductive PlanError
  | mapping (problem : MappingProblem)
  /-- A field that the plan has not mapped. -/
  | unresolvedField (token : Token)
  /-- A field that is not stored where a stored one is needed. -/
  | transientField (column : String)
  | malformedJoin (problem : JoinProblem)
  | invalidOrderDirection (text : String)
  | orderWithoutField
  /-- An insert or update that sets no column. -/
  | noAssignments (statement : String)
  deriving DecidableEq, Repr

def MappingProblem.message : MappingProblem → String
  | .fieldCount table fields columns =>
    "reference for `" ++ table ++ "` has " ++ toString fields ++ " fields but the table has " ++
      toString columns ++ " columns"
  | .nothingQueryable table => "no fields in `" ++ table ++ "` are queryable"
  | .nothingReturned table => "sub-query for `" ++ table ++ "` returns none of its columns"
  | .nothingSelected => "no fields selected"
  | .noTable => "plan has no target table"
  | .other text => text

def JoinProblem.message : JoinProblem → String
  | .notOpen => "ON clause without an open join"
  | .noReferences => "no references found to join with"
  | .other text => text

def PlanError.message : PlanError → String
  | .mapping problem => "Mapping error: " ++ problem.message
  | .unresolvedField token => "No matching field for token #" ++ toString token.number
  | .transientField column => "Cannot run queries against transient column `" ++ column ++ "`"
  | .malformedJoin problem => "Malformed join: " ++ problem.message
  | .invalidOrderDirection text =>
    "Order by direction must be empty, \"asc\" or \"desc\", got `" ++ text ++ "`"
  | .orderWithoutField => "Order by requires a field or a wrapper around at least one field"
  | .noAssignments statement => statement ++ " requires at least one assignment"

/-- What can go wrong when a plan is run. -/
inductive QueryError
  | plan (error : PlanError)
  | connection (text : String)
  | query (text : String)
  | uniqueViolation (text : String)
  | foreignKeyViolation (text : String)
  | checkViolation (text : String)
  | decode (column text : String)
  | serialization (text : String)
  | pool (text : String)
  | other (text : String)
  deriving DecidableEq, Repr

namespace QueryError

def message : QueryError → String
  | .plan error => error.message
  | .connection text => "Connection error: " ++ text
  | .query text => "Query error: " ++ text
  | .uniqueViolation text => "Unique constraint violation: " ++ text
  | .foreignKeyViolation text => "Foreign key violation: " ++ text
  | .checkViolation text => "Check constraint violation: " ++ text
  | .decode column text => "Decode error on column '" ++ column ++ "': " ++ text
  | .serialization text => "Serialization error: " ++ text
  | .pool text => "Pool error: " ++ text
  | .other text => text

/-- The plan's error behind an error, if any. -/
def planError? : QueryError → Option PlanError
  | .plan error => some error
  | _ => none

def isUniqueViolation : QueryError → Bool
  | .uniqueViolation _ => true
  | _ => false

/-- An error that the database server reports by its five-character state; violated constraints
are told apart, and everything else is a failed query. -/
def ofServer (state message : String) (constraint : Option String) : QueryError :=
  let text := constraint.getD "unknown" ++ ": " ++ message
  if state = "23505" then .uniqueViolation text
  else if state = "23503" then .foreignKeyViolation text
  else if state = "23514" then .checkViolation text
  else .query message

end QueryError

end FieldQuery
