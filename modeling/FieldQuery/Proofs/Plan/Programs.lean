import FieldQuery.Proofs.Plan.RenamedCalls
import FieldQuery.Proofs.Reference.Hosting

/-!
# Programs of builder calls

A program makes operands, conditions and targets of references and fields, starts queries and makes
calls.  What it has made is numbered in the order in which it was made, and later instructions speak
of it by its number; so a program says nothing about tokens.

Main definitions:

- `Made`: what a program has made so far, and `Made.rename`: the same under other names.
- `Making`, `Making.carryOut?`: instructions that make one more thing of what is there.

Main statement: `Making.carryOut?_rename`.
-/

namespace FieldQuery

/-- What a program has made so far, each kind in order. -/
structure Made where
  references : List Reference := []
  fields : List Token := []
  operands : List Operand := []
  targets : List Target := []
  filters : List Filter := []
  queries : List Query := []

namespace Made

def withReference (made : Made) (reference : Reference) : Made :=
  { made with references := made.references ++ [reference] }

def withField (made : Made) (token : Token) : Made :=
  { made with fields := made.fields ++ [token] }

def withOperand (made : Made) (operand : Operand) : Made :=
  { made with operands := made.operands ++ [operand] }

def withTarget (made : Made) (target : Target) : Made :=
  { made with targets := made.targets ++ [target] }

def withFilter (made : Made) (filter : Filter) : Made :=
  { made with filters := made.filters ++ [filter] }

def withQuery (made : Made) (query : Query) : Made :=
  { made with queries := made.queries ++ [query] }

/-- What a program has made, under other names. -/
noncomputable def rename (ν : Naming) (made : Made) : Made where
  references := made.references.map (·.rename ν)
  fields := made.fields.map ν.token
  operands := made.operands.map (·.rename ν.token)
  targets := made.targets.map (·.rename ν.token)
  filters := made.filters.map (·.rename ν.token)
  queries := made.queries.map (·.rename ν.token)

variable (ν : Naming) (made : Made)

theorem withReference_rename (reference : Reference) :
    (made.rename ν).withReference (reference.rename ν) =
      (made.withReference reference).rename ν := by
  simp only [withReference, rename, List.map_append, List.map_singleton]

theorem withField_rename (token : Token) :
    (made.rename ν).withField (ν.token token) = (made.withField token).rename ν := by
  simp only [withField, rename, List.map_append, List.map_singleton]

theorem withOperand_rename (operand : Operand) :
    (made.rename ν).withOperand (operand.rename ν.token) =
      (made.withOperand operand).rename ν := by
  simp only [withOperand, rename, List.map_append, List.map_singleton]

theorem withTarget_rename (target : Target) :
    (made.rename ν).withTarget (target.rename ν.token) = (made.withTarget target).rename ν := by
  simp only [withTarget, rename, List.map_append, List.map_singleton]

theorem withFilter_rename (filter : Filter) :
    (made.rename ν).withFilter (filter.rename ν.token) = (made.withFilter filter).rename ν := by
  simp only [withFilter, rename, List.map_append, List.map_singleton]

theorem withQuery_rename (query : Query) :
    (made.rename ν).withQuery (query.rename ν.token) = (made.withQuery query).rename ν := by
  simp only [withQuery, rename, List.map_append, List.map_singleton]

end Made

/-- Several things by their numbers. -/
def pick? {α : Type} (made : List α) (numbers : List Nat) : Option (List α) :=
  numbers.mapM (made[·]?)

theorem pick?_map {α : Type} (change : α → α) (made : List α) (numbers : List Nat) :
    pick? (made.map change) numbers = (pick? made numbers).map (·.map change) := by
  induction numbers with
  | nil => rfl
  | cons number rest ih =>
      unfold pick? at ih ⊢
      rw [List.mapM_cons, List.mapM_cons, ih, List.getElem?_map]
      cases made[number]? with
      | none => rfl
      | some found =>
          cases List.mapM (made[·]?) rest <;> rfl

/-! ## Operands and conditions -/

inductive OperandTerm
  | field (field : Nat)
  | value (value : BindValue)
  | wrapped (template : String) (operands : List Nat)

def OperandTerm.make? (made : Made) : OperandTerm → Option Operand
  | .field index => (made.fields[index]?).map .field
  | .value v => some (.value v)
  | .wrapped template operands => (pick? made.operands operands).map (.wrapped template)

/-- An error that a condition is to fail with. -/
inductive ErrorTerm
  | unresolvedField (field : Nat)
  /-- Any other error. -/
  | other (error : PlanError)

def ErrorTerm.make? (made : Made) : ErrorTerm → Option PlanError
  | .unresolvedField field => (made.fields[field]?).map .unresolvedField
  | .other (.unresolvedField _) => none
  | .other error => some error

/-- An entry as a condition written by hand may look at it: with everything but its tokens. -/
def Entry.nameless (entry : Entry) : Entry :=
  { entry with token := ⟨0⟩, parent := none }

def ColumnMap.nameless (columns : ColumnMap) : List Entry :=
  columns.entries.map Entry.nameless

inductive FragmentTerm
  | sql (text : String)
  | value (value : BindValue)
  | qualifiedColumn (field : Nat)
  | bareColumn (field : Nat)
  | fail (error : ErrorTerm)

def FragmentTerm.make? (made : Made) : FragmentTerm → Option Fragment
  | .sql text => some (.sql text)
  | .value v => some (.value v)
  | .qualifiedColumn field => (made.fields[field]?).map .qualifiedColumn
  | .bareColumn field => (made.fields[field]?).map .bareColumn
  | .fail error => (error.make? made).map .fail

inductive FilterTerm
  | and (filters : List Nat)
  | or (filters : List Nat)
  | not (filter : Nat)
  | compare (left : Nat) (comparison : Comparison) (right : Nat)
  | null (operand : Nat) (negated : Bool)
  | truth (operand : Nat) (negated : Bool)
  | inList (operand : Nat) (values : List BindValue)
  /-- Membership in the rows of an earlier query. -/
  | inPlan (operand query : Nat)
  | inQuery (operand : Nat) (query : Statement)
  | verbatim (condition : String)
  | invalid (error : ErrorTerm)
  /-- What is written may turn on all that the column map says besides tokens. -/
  | custom (steps : List Entry → List FragmentTerm)

def FilterTerm.make? (made : Made) : FilterTerm → Option Filter
  | .and filters => (pick? made.filters filters).map .and
  | .or filters => (pick? made.filters filters).map .or
  | .not filter => (made.filters[filter]?).map .not
  | .compare left comparison right => do
    return .compare (← made.operands[left]?) comparison (← made.operands[right]?)
  | .null operand negated => (made.operands[operand]?).map (.null · negated)
  | .truth operand negated => (made.operands[operand]?).map (.truth · negated)
  | .inList operand values => (made.operands[operand]?).map (.inList · values)
  | .inPlan operand query => do
    return .inPlan (← made.operands[operand]?) (← made.queries[query]?).plan
  | .inQuery operand query => (made.operands[operand]?).map (.inQuery · query)
  | .verbatim condition => some (.verbatim condition)
  | .invalid error => (error.make? made).map .invalid
  -- a step that speaks of a field that is not there is left out
  | .custom steps =>
    some (.custom fun columns => (steps columns.nameless).filterMap (FragmentTerm.make? made))

/-! ## Targets and calls -/

inductive TargetTerm
  /-- A reference written by hand, with any number of fields. -/
  | handmade (table : Table) (own : Option Nat) (fields : List Nat)
  | plan (query : Nat)
  /-- A query written by hand, in the place of another target's table. -/
  | raw (target : Nat) (query : RawQuery)

/-- The token of a field that may be missing. -/
def Made.own? (made : Made) : Option Nat → Option (Option Token)
  | none => some none
  | some field => (made.fields[field]?).map some

def TargetTerm.make? (made : Made) : TargetTerm → Option Target
  | .handmade table own fields => do
    return .model ⟨table, ← made.own? own, ← pick? made.fields fields⟩
  | .plan query => (made.queries[query]?).map fun query => .plan query.plan
  | .raw target query => (made.targets[target]?).map fun target => .raw target.toModel query

inductive CallTerm
  | join (kind : JoinKind) (target : Nat)
  | startWhere
  | on (filters : List Nat)
  | references
  | filter (filters : List Nat)
  | assign (field : Nat) (value : BindValue)
  | orderBy (operand : Nat) (direction : String)
  | discardOrder
  | groupBy (field : Nat)
  | limit (count : Nat)
  | offset (count : Nat)
  | fields (fields : List Nat)
  | addField (field : Nat)
  | withoutCache

def CallTerm.make? (made : Made) : CallTerm → Option Call
  | .join kind target => (made.targets[target]?).map (.join kind)
  | .startWhere => some .startWhere
  | .on filters => (pick? made.filters filters).map .on
  | .references => some .references
  | .filter filters => (pick? made.filters filters).map .filter
  | .assign field value => (made.fields[field]?).map (.assign · value)
  | .orderBy operand direction => (made.operands[operand]?).map (.orderBy · direction)
  | .discardOrder => some .discardOrder
  | .groupBy field => (made.fields[field]?).map .groupBy
  | .limit count => some (.limit count)
  | .offset count => some (.offset count)
  | .fields indices => (pick? made.fields indices).map .fields
  | .addField field => (made.fields[field]?).map .addField
  | .withoutCache => some .withoutCache

/-- An instruction that takes no tokens. -/
inductive Making
  | operand (term : OperandTerm)
  | filter (term : FilterTerm)
  | target (term : TargetTerm)
  /-- A query on a target. -/
  | start (dialect : Dialect) (cacheable : Bool) (lazyJoins : List JoinRule) (target : Nat)
  /-- A query that a call makes of an earlier one. -/
  | call (query : Nat) (term : CallTerm)

/-- Makes one more thing of what was made before, where that is there and admits it. -/
def Making.carryOut? (catalog : Catalog) (made : Made) : Making → Option Made
  | .operand term => (term.make? made).map made.withOperand
  | .filter term => (term.make? made).map made.withFilter
  | .target term => (term.make? made).map made.withTarget
  | .start dialect cacheable lazyJoins index =>
    (made.targets[index]?).map fun found =>
      made.withQuery (.start dialect catalog cacheable lazyJoins found)
  | .call query term => do
    let found ← made.queries[query]?
    let call ← term.make? made
    (found.call? call).map made.withQuery

/-! ## Under other names -/

section Renamed

variable (ν : Naming) (made : Made)

theorem Made.fields_rename (field : Nat) :
    (made.rename ν).fields[field]? = (made.fields[field]?).map ν.token :=
  List.getElem?_map

theorem Made.operands_rename (operand : Nat) :
    (made.rename ν).operands[operand]? = (made.operands[operand]?).map (·.rename ν.token) :=
  List.getElem?_map

theorem Made.filters_rename (filter : Nat) :
    (made.rename ν).filters[filter]? = (made.filters[filter]?).map (·.rename ν.token) :=
  List.getElem?_map

theorem Made.targets_rename (target : Nat) :
    (made.rename ν).targets[target]? = (made.targets[target]?).map (·.rename ν.token) :=
  List.getElem?_map

theorem Made.queries_rename (query : Nat) :
    (made.rename ν).queries[query]? = (made.queries[query]?).map (·.rename ν.token) :=
  List.getElem?_map

theorem Made.pickFields_rename (fields : List Nat) :
    pick? (made.rename ν).fields fields = (pick? made.fields fields).map (·.map ν.token) :=
  pick?_map ν.token made.fields fields

theorem Made.pickOperands_rename (operands : List Nat) :
    pick? (made.rename ν).operands operands =
      (pick? made.operands operands).map (·.map (·.rename ν.token)) :=
  pick?_map (Operand.rename ν.token) made.operands operands

theorem Made.pickFilters_rename (filters : List Nat) :
    pick? (made.rename ν).filters filters =
      (pick? made.filters filters).map (·.map (·.rename ν.token)) :=
  pick?_map (Filter.rename ν.token) made.filters filters

theorem OperandTerm.make?_rename (term : OperandTerm) :
    term.make? (made.rename ν) = (term.make? made).map (·.rename ν.token) := by
  cases term with
  | field field =>
      rw [make?, make?, made.fields_rename, Option.map_map, Option.map_map]
      rfl
  | value v => rfl
  | wrapped template operands =>
      rw [make?, make?, made.pickOperands_rename, Option.map_map, Option.map_map]
      refine congrArg (Option.map · _) (funext fun picked => ?_)
      exact congrArg (Operand.wrapped template) (Operand.renameAll_eq ν.token picked).symm

theorem ErrorTerm.make?_rename (term : ErrorTerm) :
    term.make? (made.rename ν) = (term.make? made).map (·.rename ν.token) := by
  cases term with
  | unresolvedField field =>
      rw [make?, make?, made.fields_rename, Option.map_map, Option.map_map]
      rfl
  | other error => cases error <;> rfl

theorem FragmentTerm.make?_rename (term : FragmentTerm) :
    term.make? (made.rename ν) = (term.make? made).map (·.rename ν.token) := by
  cases term with
  | sql text => rfl
  | value v => rfl
  | qualifiedColumn field | bareColumn field =>
      rw [make?, make?, made.fields_rename, Option.map_map, Option.map_map]
      rfl
  | fail error =>
      rw [make?, make?, error.make?_rename, Option.map_map, Option.map_map]
      rfl

theorem FragmentTerm.makeAll_rename (terms : List FragmentTerm) :
    terms.filterMap (make? (made.rename ν)) =
      (terms.filterMap (make? made)).map (·.rename ν.token) := by
  rw [List.map_filterMap]
  exact congrArg (List.filterMap · terms) (funext (make?_rename ν made))

/-- All that a column map says besides tokens stays. -/
theorem ColumnMap.nameless_unrename (ρ : Token ↪ Token) (columns : ColumnMap) :
    (columns.unrename ρ).nameless = columns.nameless := by
  simp [nameless, unrename, Function.comp_def, Entry.nameless, Entry.unrename]

theorem FilterTerm.make?_rename (term : FilterTerm) :
    term.make? (made.rename ν) = (term.make? made).map (·.rename ν.token) := by
  cases term with
  | and filters | or filters =>
      rw [make?, make?, made.pickFilters_rename, Option.map_map, Option.map_map]
      refine congrArg (Option.map · _) (funext fun picked => ?_)
      simp only [Function.comp_apply, Filter.rename, Filter.renameAll_eq]
  | not filter =>
      rw [make?, make?, made.filters_rename, Option.map_map, Option.map_map]
      rfl
  | compare left comparison right =>
      rw [make?, make?, made.operands_rename, made.operands_rename]
      cases made.operands[left]? with
      | none => rfl
      | some first => cases made.operands[right]? <;> rfl
  | null operand negated | truth operand negated | inList operand values | inQuery operand query =>
      rw [make?, make?, made.operands_rename, Option.map_map, Option.map_map]
      rfl
  | inPlan operand query =>
      rw [make?, make?, made.operands_rename, made.queries_rename]
      cases made.operands[operand]? with
      | none => rfl
      | some first =>
          cases made.queries[query]? with
          | none => rfl
          | some found => exact congrArg some (Filter.inPlan_rename ν.token first found.plan)
  | verbatim condition => rfl
  | invalid error =>
      rw [make?, make?, error.make?_rename, Option.map_map, Option.map_map]
      rfl
  | custom steps =>
      simp only [make?, Option.map_some, Filter.rename, ColumnMap.nameless_unrename,
        FragmentTerm.makeAll_rename]

theorem Made.own?_rename (own : Option Nat) :
    (made.rename ν).own? own = (made.own? own).map (·.map ν.token) := by
  cases own with
  | none => rfl
  | some field =>
      rw [own?, own?, made.fields_rename, Option.map_map, Option.map_map]
      rfl

theorem TargetTerm.make?_rename (term : TargetTerm) :
    term.make? (made.rename ν) = (term.make? made).map (·.rename ν.token) := by
  cases term with
  | handmade table own fields =>
      rw [make?, make?, made.own?_rename, made.pickFields_rename]
      cases made.own? own with
      | none => rfl
      | some token => cases pick? made.fields fields <;> rfl
  | plan query =>
      rw [make?, make?, made.queries_rename, Option.map_map, Option.map_map]
      rfl
  | raw target query =>
      rw [make?, make?, made.targets_rename, Option.map_map, Option.map_map]
      refine congrArg (Option.map · _) (funext fun found => ?_)
      exact congrArg (Target.raw · query) (Plan.toModel_rename ν.token found)

theorem CallTerm.make?_rename (term : CallTerm) :
    term.make? (made.rename ν) = (term.make? made).map (·.rename ν.token) := by
  cases term with
  | join kind target =>
      rw [make?, make?, made.targets_rename, Option.map_map, Option.map_map]
      rfl
  | on filters | filter filters =>
      rw [make?, make?, made.pickFilters_rename, Option.map_map, Option.map_map]
      rfl
  | assign field value | groupBy field | addField field =>
      rw [make?, make?, made.fields_rename, Option.map_map, Option.map_map]
      rfl
  | orderBy operand direction =>
      rw [make?, make?, made.operands_rename, Option.map_map, Option.map_map]
      rfl
  | fields fields =>
      rw [make?, make?, made.pickFields_rename, Option.map_map, Option.map_map]
      rfl
  | startWhere | references | discardOrder | limit count | offset count | withoutCache => rfl

/-- What is made under other names is the same under other names. -/
theorem Making.carryOut?_rename (catalog : Catalog) (making : Making) :
    making.carryOut? catalog (made.rename ν) =
      (making.carryOut? catalog made).map (·.rename ν) := by
  cases making with
  | operand term =>
      rw [carryOut?, carryOut?, term.make?_rename, Option.map_map, Option.map_map]
      exact congrArg (Option.map · _) (funext (made.withOperand_rename ν))
  | filter term =>
      rw [carryOut?, carryOut?, term.make?_rename, Option.map_map, Option.map_map]
      exact congrArg (Option.map · _) (funext (made.withFilter_rename ν))
  | target term =>
      rw [carryOut?, carryOut?, term.make?_rename, Option.map_map, Option.map_map]
      exact congrArg (Option.map · _) (funext (made.withTarget_rename ν))
  | start dialect cacheable lazyJoins target =>
      rw [carryOut?, carryOut?, made.targets_rename, Option.map_map, Option.map_map]
      refine congrArg (Option.map · _) (funext fun found => ?_)
      rw [Function.comp_apply, Query.start_rename, Made.withQuery_rename]
      rfl
  | call query term =>
      rw [carryOut?, carryOut?, made.queries_rename, term.make?_rename]
      cases made.queries[query]? with
      | none => rfl
      | some found =>
          cases term.make? made with
          | none => rfl
          | some call =>
              show ((found.rename ν.token).call? (call.rename ν.token)).map _ =
                ((found.call? call).map _).map _
              rw [Query.call?_rename, Option.map_map, Option.map_map]
              exact congrArg (Option.map · _) (funext (made.withQuery_rename ν))

end Renamed

end FieldQuery
