import FieldQuery.Proofs.Condition.Layout
import FieldQuery.Proofs.Plan.Literals

/-!
# What a condition demands

Whether a condition can be written turns on the fields that its text names, and on the errors that
were planted in it.  A field that no mark of a template asks for is not named, and neither is one
whose list of values is empty.  So the fields of a list are demanded only if it has values; the other
demands are told without a look at any value.

Main definitions:

- `refusal`: the error that a result is.
- `Operand.asked`, `Filter.demands`: what the text of an operand and of a condition demands, in order.
- `ColumnMap.refused`, `Demand.refusal?`: what a demand is refused for.

Main statement: `Filter.refusal_render`, a condition is refused for the first of its demands that
cannot be met.
-/

namespace FieldQuery

open Condition

/-! ## Refusals -/

section Refusals

variable {α β : Type}

def refusal : Except PlanError α → Option PlanError
  | .ok _ => none
  | .error error => some error

@[simp] theorem refusal_ok (value : α) : refusal (.ok value) = none := rfl

@[simp] theorem refusal_error (error : PlanError) :
    refusal (.error error : Except PlanError α) = some error := rfl

theorem refusal_eq_none {result : Except PlanError α} :
    refusal result = none ↔ ∃ value, result = .ok value := by
  cases result with
  | ok value => simp
  | error error => simp

@[simp] theorem refusal_map (result : Except PlanError α) (f : α → β) :
    refusal (result.map f) = refusal result := by
  cases result <;> rfl

/-- A step that is refused whatever the value of the one before. -/
theorem refusal_bind {first : Except PlanError α} {next : α → Except PlanError β}
    {behind : Option PlanError} (h : ∀ value, refusal (next value) = behind) :
    refusal (first >>= next) = (refusal first).or behind := by
  cases first with
  | ok value => exact h value
  | error error => rfl

/-- A step that cannot fail behind one that may. -/
theorem refusal_bind_ok (first : Except PlanError α) (next : α → β) :
    refusal (first >>= fun value => .ok (next value)) = refusal first := by
  cases first <;> rfl

end Refusals

/-- What the first of the fields that cannot be written is refused for. -/
def ColumnMap.refused (columns : ColumnMap) (tokens : List Token) : Option PlanError :=
  tokens.findSome? fun token => refusal (columns.queryable token)

namespace ColumnMap

variable {columns : ColumnMap}

@[simp] theorem refused_nil : columns.refused [] = none := rfl

@[simp] theorem refused_append (front back : List Token) :
    columns.refused (front ++ back) = (columns.refused front).or (columns.refused back) :=
  List.findSome?_append

theorem refused_singleton (token : Token) :
    columns.refused [token] = refusal (columns.queryable token) := by
  unfold refused
  cases h : refusal (columns.queryable token) <;> simp [h]

end ColumnMap

/-! ## Operands -/

namespace Operand

mutual

/-- The fields that an operand is written with. -/
def asked : Operand → List Token
  | .field token => [token]
  | .value _ => []
  | .wrapped template operands => askedOfFirst operands (template.toList.count '?')

def askedOfFirst : List Operand → Nat → List Token
  | _, 0 => []
  | [], _ => []
  | operand :: operands, count + 1 => asked operand ++ askedOfFirst operands count

end

variable {columns : ColumnMap}

mutual

theorem refusal_render : ∀ operand : Operand,
    refusal (operand.render columns) = columns.refused operand.asked
  | .field token => by
      rw [render, asked, refusal_map, ColumnMap.refused_singleton, ColumnMap.qualifiedColumn,
        refusal_map]
  | .value v => by
      rw [render, asked]
      rfl
  | .wrapped template operands => by
      rw [render, asked, ← length_templateParts, ← refusal_renderMarks]
      exact refusal_bind_ok _ _

theorem refusal_renderMarks : ∀ (operands : List Operand) (parts : List String),
    refusal (renderMarks columns operands parts) =
      columns.refused (askedOfFirst operands parts.length)
  | _, [] => by simp [renderMarks, askedOfFirst]
  | [], part :: parts => by simp [renderMarks, askedOfFirst]
  | operand :: operands, part :: parts => by
      rw [renderMarks, List.length_cons, askedOfFirst, ColumnMap.refused_append,
        ← refusal_render operand, ← refusal_renderMarks operands parts]
      exact refusal_bind fun written => refusal_bind_ok _ _

end

end Operand

/-! ## Conditions -/

/-- What a clause cannot be written without. -/
inductive Demand
  /-- Fields that are to be written, unless they are those of an empty list. -/
  | fields (tokens : List Token) (needed : Bool)
  /-- An error that stands where the condition could not be built. -/
  | planted (error : PlanError)
  deriving DecidableEq

namespace Demand

/-- What a demand is refused for. -/
def refusal? (columns : ColumnMap) : Demand → Option PlanError
  | .fields tokens true => columns.refused tokens
  | .fields _ false => none
  | .planted error => some error

/-- The demand of a list that has values. -/
def insist : Demand → Demand
  | .fields tokens _ => .fields tokens true
  | .planted error => .planted error

/-- What the first of several demands that cannot be met is refused for. -/
def firstRefusal (columns : ColumnMap) (demands : List Demand) : Option PlanError :=
  demands.findSome? (·.refusal? columns)

variable {columns : ColumnMap}

@[simp] theorem firstRefusal_nil : firstRefusal columns [] = none := rfl

@[simp] theorem firstRefusal_append (front back : List Demand) :
    firstRefusal columns (front ++ back) =
      (firstRefusal columns front).or (firstRefusal columns back) :=
  List.findSome?_append

@[simp] theorem firstRefusal_cons (demand : Demand) (rest : List Demand) :
    firstRefusal columns (demand :: rest) =
      (demand.refusal? columns).or (firstRefusal columns rest) := by
  unfold firstRefusal
  cases h : demand.refusal? columns <;> simp [h]

theorem firstRefusal_eq_none {demands : List Demand} :
    firstRefusal columns demands = none ↔ ∀ demand ∈ demands, demand.refusal? columns = none :=
  List.findSome?_eq_none_iff

theorem refusal?_insist {demand : Demand} (h : demand.insist.refusal? columns = none) :
    demand.refusal? columns = none := by
  cases demand with
  | fields tokens needed =>
      cases needed with
      | true => exact h
      | false => rfl
  | planted error => exact h

end Demand

/-- Fields that are written whatever the data. -/
def Operand.demand (operand : Operand) : Demand :=
  .fields operand.asked true

theorem Operand.refusal_demand (columns : ColumnMap) (operand : Operand) :
    operand.demand.refusal? columns = refusal (operand.render columns) :=
  operand.refusal_render.symm

namespace Fragment

def demand? : Fragment → Option Demand
  | .sql _ => none
  | .value _ => none
  | .qualifiedColumn token => some (.fields [token] true)
  | .bareColumn token => some (.fields [token] true)
  | .fail error => some (.planted error)

variable {columns : ColumnMap}

theorem refusal_render (fragment : Fragment) :
    refusal (fragment.render columns) =
      Demand.firstRefusal columns fragment.demand?.toList := by
  cases fragment with
  | sql text => rfl
  | value value => rfl
  | qualifiedColumn token =>
      simp [render, demand?, ColumnMap.qualifiedColumn, Demand.refusal?,
        ColumnMap.refused_singleton]
  | bareColumn token =>
      simp [render, demand?, ColumnMap.bareColumn, Demand.refusal?, ColumnMap.refused_singleton]
  | fail error => rfl

theorem refusal_renderAll (fragments : List Fragment) :
    refusal (renderAll columns fragments) =
      Demand.firstRefusal columns (fragments.flatMap (·.demand?.toList)) := by
  induction fragments with
  | nil => rfl
  | cons first rest ih =>
      rw [List.flatMap_cons, Demand.firstRefusal_append, ← first.refusal_render, ← ih]
      exact refusal_bind fun written => refusal_bind_ok _ _

end Fragment

namespace Filter

mutual

/-- What the text of a condition demands, in order; one that is written by hand is asked with the
column map. -/
def demands (columns : ColumnMap) : Filter → List Demand
  | .and filters => demandsOf columns filters
  | .or filters => demandsOf columns filters
  | .not filter => demands columns filter
  | .compare left _ right => [left.demand, right.demand]
  | .null operand _ => [operand.demand]
  | .truth operand _ => [operand.demand]
  | .inList operand values => [.fields operand.asked !values.isEmpty]
  | .inQuery operand _ => [operand.demand]
  | .verbatim _ => []
  | .invalid error => [.planted error]
  | .custom steps => (steps columns).flatMap (·.demand?.toList)

def demandsOf (columns : ColumnMap) : List Filter → List Demand
  | [] => []
  | filter :: rest => demands columns filter ++ demandsOf columns rest

end

theorem demandsOf_eq (columns : ColumnMap) (filters : List Filter) :
    demandsOf columns filters = filters.flatMap (demands columns) := by
  induction filters with
  | nil => rw [demandsOf, List.flatMap_nil]
  | cons filter rest ih => rw [demandsOf, List.flatMap_cons, ih]

variable {columns : ColumnMap}

/-- A group is refused for what the list of its conditions is refused for. -/
theorem refusal_group {group : List Filter → Filter} {separator : String} {empty : Statement}
    (hgroup : WritesGroup columns group separator empty) (filters : List Filter) :
    refusal ((group filters).render columns) = refusal (renderEach columns filters) := by
  match filters with
  | [] => simp [hgroup.none, renderEach]
  | [only] =>
      rw [hgroup.one, renderEach]
      cases only.render columns <;> rfl
  | first :: second :: rest => rw [hgroup.many, refusal_map]

mutual

theorem refusal_render : ∀ filter : Filter,
    refusal (filter.render columns) = Demand.firstRefusal columns (filter.demands columns)
  | .and filters => by rw [refusal_group (writesGroup_and columns), demands, refusal_renderEach]
  | .or filters => by rw [refusal_group (writesGroup_or columns), demands, refusal_renderEach]
  | .not filter => by
      rw [render, demands, ← refusal_render filter]
      exact refusal_bind_ok _ _
  | .compare left comparison right => by
      rw [render, demands]
      simp only [Demand.firstRefusal_cons, Operand.refusal_demand, Demand.firstRefusal_nil,
        Option.or_none]
      exact refusal_bind fun written => refusal_bind_ok _ _
  | .null operand negated => by
      rw [render, demands]
      simp only [Demand.firstRefusal_cons, Operand.refusal_demand, Demand.firstRefusal_nil,
        Option.or_none]
      exact refusal_bind_ok _ _
  | .truth operand negated => by
      rw [render, demands]
      simp only [Demand.firstRefusal_cons, Operand.refusal_demand, Demand.firstRefusal_nil,
        Option.or_none]
      exact refusal_bind_ok _ _
  -- the field of an empty list is not looked up
  | .inList operand [] => by
      rw [render, demands]
      rfl
  | .inList operand (value :: values) => by
      rw [render, demands]
      · rw [Demand.firstRefusal_cons, Demand.firstRefusal_nil, Option.or_none]
        exact (refusal_bind_ok _ _).trans operand.refusal_render
      · exact fun h => by cases h
  | .inQuery operand query => by
      rw [render, demands]
      simp only [Demand.firstRefusal_cons, Operand.refusal_demand, Demand.firstRefusal_nil,
        Option.or_none]
      exact refusal_bind_ok _ _
  | .verbatim condition => by
      rw [render, demands]
      rfl
  | .invalid error => by
      rw [render, demands]
      rfl
  | .custom steps => by
      rw [render, demands]
      exact Fragment.refusal_renderAll (steps columns)

theorem refusal_renderEach : ∀ filters : List Filter,
    refusal (renderEach columns filters) = Demand.firstRefusal columns (demandsOf columns filters)
  | [] => by
      rw [renderEach, demandsOf]
      rfl
  | filter :: rest => by
      rw [renderEach, demandsOf, Demand.firstRefusal_append, ← refusal_render filter,
        ← refusal_renderEach rest]
      exact refusal_bind fun written => refusal_bind_ok _ _

end

theorem refusal_render_and (filters : List Filter) :
    refusal ((Filter.and filters).render columns) =
      Demand.firstRefusal columns (filters.flatMap (demands columns)) := by
  rw [refusal_render, demands, demandsOf_eq]

end Filter

end FieldQuery
