import FieldQuery.Error
import FieldQuery.Event

/-!
# Cache backends

A store of texts under keys, which may fail.
-/

namespace FieldQuery.Cache

/-- The result of an operation on a store, the store behind it and what was reported. -/
structure Outcome (β α : Type) where
  result : Except QueryError α
  store : β
  events : List Event := []

/-- A store of texts under keys. -/
class Backend (β : Type) where
  get : String → β → Outcome β (Option String)
  set : String → String → β → Outcome β Unit
  delete : List String → β → Outcome β Unit

end FieldQuery.Cache
