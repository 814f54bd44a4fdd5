import FieldQuery.ColumnMap
import FieldQuery.Statement

/-!
# Filters

The conditions of `ON` and `WHERE` clauses.  Fields stand in them by their tokens and values by
themselves; both become SQL only when a plan's column map is at hand.

Main definitions:

- `Operand`: one side of a comparison; `Operand.render` writes it.
- `Filter`: a condition; `Filter.render` writes it.
-/

namespace FieldQuery

/-- One side of a comparison. -/
inductive Operand
  | field (token : Token)
  | value (value : BindValue)
  /-- SQL in which each question mark is replaced by the next operand. -/
  | wrapped (template : String) (operands : List Operand)
  deriving Repr

namespace Operand

def lower (operand : Operand) : Operand := .wrapped "lower(?)" [operand]

def upper (operand : Operand) : Operand := .wrapped "upper(?)" [operand]

def coalesce (field : Token) (fallback : Operand) : Operand :=
  .wrapped "coalesce(?, ?)" [.field field, fallback]

mutual

/-- Whether a field occurs in an operand. -/
def hasField : Operand → Bool
  | .field _ => true
  | .value _ => false
  | .wrapped _ operands => anyHasField operands

def anyHasField : List Operand → Bool
  | [] => false
  | operand :: rest => hasField operand || anyHasField rest

end

/-- The text in front of the first mark, and the texts behind each. -/
def splitMarks (mark : Char) : List Char → List Char × List (List Char)
  | [] => ([], [])
  | c :: rest =>
    let (first, others) := splitMarks mark rest
    if c = mark then ([], first :: others) else (c :: first, others)

/-- The text of a template in front of its first question mark, and the texts behind each. -/
def templateParts (template : String) : String × List String :=
  let (first, others) := splitMarks '?' template.toList
  (String.ofList first, others.map String.ofList)

/-- A template whose operands are used up: its marks become `NULL`. -/
def withoutOperands (parts : List String) : Statement :=
  parts.foldl (fun statement part => statement ++ .ofText ("NULL" ++ part)) .empty

mutual

/-- The SQL of an operand. -/
def render (columns : ColumnMap) : Operand → Except PlanError Statement
  | .field token => (columns.qualifiedColumn token).map .ofText
  | .value v => .ok (.ofValue v)
  | .wrapped template operands => do
    let (first, others) := templateParts template
    return .ofText first ++ (← renderMarks columns operands others)

/-- The SQL of a template behind its first part: operands in turn, each in front of the next part.
Operands that no mark asks for are left out. -/
def renderMarks (columns : ColumnMap) : List Operand → List String → Except PlanError Statement
  | _, [] => .ok .empty
  -- from the first mark without an operand on
  | [], parts => .ok (withoutOperands parts)
  | operand :: operands, part :: parts => do
    let written ← render columns operand
    return written ++ .ofText part ++ (← renderMarks columns operands parts)

end

end Operand

inductive Comparison
  | equal
  | notEqual
  | less
  | lessOrEqual
  | greater
  | greaterOrEqual
  | like
  deriving DecidableEq, Repr

def Comparison.sql : Comparison → String
  | .equal => "="
  | .notEqual => "!="
  | .less => "<"
  | .lessOrEqual => "<="
  | .greater => ">"
  | .greaterOrEqual => ">="
  | .like => "LIKE"

/-- A step in writing a condition by hand. -/
inductive Fragment
  | sql (text : String)
  | value (value : BindValue)
  | qualifiedColumn (token : Token)
  | bareColumn (token : Token)
  | fail (error : PlanError)
  deriving DecidableEq, Repr

namespace Fragment

def render (columns : ColumnMap) : Fragment → Except PlanError Statement
  | .sql text => .ok (.ofText text)
  | .value v => .ok (.ofValue v)
  | .qualifiedColumn token => (columns.qualifiedColumn token).map .ofText
  | .bareColumn token => (columns.bareColumn token).map .ofText
  | .fail error => .error error

/-- The SQL of steps in a row, unless one of them fails. -/
def renderAll (columns : ColumnMap) : List Fragment → Except PlanError Statement
  | [] => .ok .empty
  | fragment :: rest => do
    let written ← fragment.render columns
    return written ++ (← renderAll columns rest)

end Fragment

/-- A condition. -/
inductive Filter
  | and (filters : List Filter)
  | or (filters : List Filter)
  | not (filter : Filter)
  | compare (left : Operand) (comparison : Comparison) (right : Operand)
  | null (operand : Operand) (negated : Bool)
  | truth (operand : Operand) (negated : Bool)
  | inList (operand : Operand) (values : List BindValue)
  | inQuery (operand : Operand) (query : Statement)
  /-- SQL that is ready to be written. -/
  | verbatim (condition : String)
  /-- A condition that could not be built. -/
  | invalid (error : PlanError)
  /-- A condition written by hand, which sees the whole column map and only adds to what is written
  in front of it: the steps of writing it. -/
  | custom (steps : ColumnMap → List Fragment)

namespace Filter

/-- The equality of two columns whose names are quoted already. -/
def link (leftTable leftColumn rightTable rightColumn : String) : Filter :=
  .verbatim (leftTable ++ "." ++ leftColumn ++ " = " ++ rightTable ++ "." ++ rightColumn)

/-- A list of conditions, which needs parentheses within another one. -/
def isGroup : Filter → Bool
  | .and _ => true
  | .or _ => true
  | _ => false

def parenthesized (statement : Statement) : Statement :=
  .ofText "(" ++ statement ++ .ofText ")"

mutual

/-- The SQL of a condition.  An empty conjunction is true; an empty disjunction and membership in
an empty list are false. -/
def render (columns : ColumnMap) : Filter → Except PlanError Statement
  | .and [] => .ok (.ofText "1=1")
  | .and [filter] => render columns filter
  | .and filters => (renderEach columns filters).map (.join " AND ")
  | .or [] => .ok (.ofText "1=0")
  | .or [filter] => render columns filter
  | .or filters => (renderEach columns filters).map (.join " OR ")
  | .not filter => do
    return .ofText "NOT (" ++ (← render columns filter) ++ .ofText ")"
  | .compare left comparison right => do
    let left ← left.render columns
    let right ← right.render columns
    return left ++ .ofText (" " ++ comparison.sql ++ " ") ++ right
  | .null operand negated => do
    return (← operand.render columns) ++ .ofText (if negated then " IS NOT NULL" else " IS NULL")
  | .truth operand negated => do
    return .ofText (if negated then "NOT " else "") ++ (← operand.render columns)
  -- nothing is in an empty list, so the operand is not even looked up
  | .inList _ [] => .ok (.ofText "1=0")
  | .inList operand values => do
    return (← operand.render columns) ++ .ofText " IN (" ++ .ofValues values ++ .ofText ")"
  | .inQuery operand query => do
    return (← operand.render columns) ++ .ofText " IN (" ++ query ++ .ofText ")"
  | .verbatim condition => .ok (.ofText condition)
  | .invalid error => .error error
  | .custom steps => Fragment.renderAll columns (steps columns)

/-- The SQL of several conditions; lists of conditions among them are put in parentheses. -/
def renderEach (columns : ColumnMap) : List Filter → Except PlanError (List Statement)
  | [] => .ok []
  | filter :: rest => do
    let written ← render columns filter
    let others ← renderEach columns rest
    return (if filter.isGroup then parenthesized written else written) :: others

end

end Filter

end FieldQuery
