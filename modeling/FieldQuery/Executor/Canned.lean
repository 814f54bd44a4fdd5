import FieldQuery.Executor.Basic

/-!
# Canned answers

An executor without a database: it notes every call and gives the answers that it was told to give,
whatever the SQL says.

Main definitions:

- `SqlCall`: a noted call.
- `CannedExecutor`: answers and calls.
-/

namespace FieldQuery

/-- What an executor is asked for. -/
inductive SqlRequest
  | select
  | execute
  | scalar
  deriving DecidableEq, Repr

/-- A call of an executor. -/
structure SqlCall where
  request : SqlRequest
  sql : String
  arguments : List BindValue
  deriving DecidableEq, Repr

/-- Answers, and the calls so far in order.  While there is a failure it is the answer to every
call. -/
structure CannedExecutor where
  rows : List Record := []
  affected : Nat := 0
  scalar : Int := 0
  failure : Option QueryError := none
  calls : List SqlCall := []

namespace CannedExecutor

/-- Notes a call and answers it. -/
def answer {α : Type} (request : SqlRequest) (result : CannedExecutor → α) (sql : String)
    (arguments : List BindValue) (executor : CannedExecutor) :
    Except QueryError α × CannedExecutor :=
  let noted := { executor with calls := executor.calls ++ [⟨request, sql, arguments⟩] }
  match executor.failure with
  | some error => (.error error, noted)
  | none => (.ok (result executor), noted)

instance : Executor CannedExecutor where
  select := answer .select (·.rows)
  execute := answer .execute (·.affected)
  scalar := answer .scalar (·.scalar)

end CannedExecutor

end FieldQuery
