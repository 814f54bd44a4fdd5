import FieldQuery.BindValue
import FieldQuery.Error
import FieldQuery.Record

/-!
# Executors

What carries out SQL: rows for a `SELECT`, a number of rows for a change, an integer for a question
that has one.
-/

namespace FieldQuery

/-- Carries out SQL with its bound values, and may change in doing so. -/
class Executor (σ : Type) where
  select : String → List BindValue → σ → Except QueryError (List Record) × σ
  execute : String → List BindValue → σ → Except QueryError Nat × σ
  scalar : String → List BindValue → σ → Except QueryError Int × σ

end FieldQuery
