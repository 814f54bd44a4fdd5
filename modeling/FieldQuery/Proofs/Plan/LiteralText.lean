import FieldQuery.Plan.Compile
import FieldQuery.Proofs.Plan.Marks

/-!
# Statements with their literals written out

What a plan's statements would be if each value were written into the text, where the plan has it.
There are no marks here and no list of values: a literal stands beside its column, its operator or
its keyword.  How a literal looks is left open, so two of them can always be told apart.

Main definitions:

- `Operand.inPlace`, `Filter.inPlace`, `JoinClause.inPlace`: operands, conditions and joins.
- `Plan.inPlace`: the statement for an action.
-/

namespace FieldQuery

variable (literal : BindValue → String) (columns : ColumnMap)

/-- A field's column behind its source; nothing, if the field cannot be resolved. -/
def ColumnMap.qualifiedText (token : Token) : String :=
  (columns.qualifiedColumn token).toOption.getD ""

def ColumnMap.bareText (token : Token) : String :=
  (columns.bareColumn token).toOption.getD ""

namespace Operand

/-- A template with texts in place of its question marks, and `NULL` where none is left. -/
def filled : List Char → List String → String
  | [], _ => ""
  | c :: rest, texts =>
    if c = '?' then texts.headD "NULL" ++ filled rest texts.tail
    else String.singleton c ++ filled rest texts

mutual

def inPlace : Operand → String
  | .field token => columns.qualifiedText token
  | .value v => literal v
  | .wrapped template operands => filled template.toList (inPlaceEach operands)

def inPlaceEach : List Operand → List String
  | [] => []
  | operand :: rest => inPlace operand :: inPlaceEach rest

end

end Operand

def Fragment.inPlace : Fragment → String
  | .sql text => text
  | .value v => literal v
  | .qualifiedColumn token => columns.qualifiedText token
  | .bareColumn token => columns.bareText token
  | .fail _ => ""

namespace Filter

mutual

def inPlace : Filter → String
  | .and [] => "1=1"
  | .and [filter] => inPlace filter
  | .and filters => " AND ".intercalate (inPlaceEach filters)
  | .or [] => "1=0"
  | .or [filter] => inPlace filter
  | .or filters => " OR ".intercalate (inPlaceEach filters)
  | .not filter => "NOT (" ++ inPlace filter ++ ")"
  | .compare left comparison right =>
    left.inPlace literal columns ++ (" " ++ comparison.sql ++ " ") ++ right.inPlace literal columns
  | .null operand negated =>
    operand.inPlace literal columns ++ (if negated then " IS NOT NULL" else " IS NULL")
  | .truth operand negated =>
    (if negated then "NOT " else "") ++ operand.inPlace literal columns
  | .inList _ [] => "1=0"
  | .inList operand values =>
    operand.inPlace literal columns ++ " IN (" ++ ", ".intercalate (values.map literal) ++ ")"
  | .inQuery operand query =>
    operand.inPlace literal columns ++ " IN (" ++ query.inPlace literal ++ ")"
  | .verbatim condition => condition
  | .invalid _ => ""
  | .custom steps => String.join ((steps columns).map (·.inPlace literal columns))

/-- Several conditions; lists of conditions among them are put in parentheses. -/
def inPlaceEach : List Filter → List String
  | [] => []
  | filter :: rest =>
    (if filter.isGroup then "(" ++ inPlace filter ++ ")" else inPlace filter) :: inPlaceEach rest

end

end Filter

def Source.inPlace : Source → String
  | .named quoted => quoted
  | .derived query correlation => "(" ++ query.inPlace literal ++ ") AS " ++ correlation

namespace JoinClause

def sourceInPlace (join : JoinClause) : String :=
  join.source.inPlace literal ++ String.join (join.correlation.toList.map (" AS " ++ ·))

def inPlace (join : JoinClause) : String :=
  " " ++ join.kind.sql ++ " " ++ join.sourceInPlace literal ++ " ON " ++
    (Filter.and join.on).inPlace literal columns

end JoinClause

namespace Plan

/-- Conditions behind `WHERE`, if there are any. -/
def whereInPlace : List Filter → String
  | [] => ""
  | filters => " WHERE " ++ (Filter.and filters).inPlace literal columns

variable (plan : Plan)

def orderInPlace : List OrderTerm → String
  | [] => ""
  | terms =>
    " ORDER BY " ++ ", ".intercalate (terms.map fun term =>
      term.operand.inPlace literal plan.columns ++ term.direction.sql)

def groupInPlace : List String → String
  | [] => ""
  | names => " GROUP BY " ++ ", ".intercalate names

/-- A limit clause with the limit in place of its question mark, or behind it. -/
def limitInPlace (clause limit : String) : String :=
  String.ofList (clause.toList.takeWhile (· ≠ '?')) ++ limit ++
    String.ofList ((clause.toList.dropWhile (· ≠ '?')).drop 1)

/-- A limit clause of the dialect in front of the offset, or the standard's clause behind it. -/
def pagingInPlace : String :=
  let limit := (rowCount plan.limit).map literal
  let offset := (rowCount plan.offset).map literal
  match plan.dialect.limitClause "?" with
  | some clause =>
    let unbounded := if offset.isSome then plan.dialect.unboundedLimit else none
    let front := limit.map (limitInPlace clause) <|> unbounded
    String.join (front.toList.map (" " ++ ·)) ++ String.join (offset.toList.map (" OFFSET " ++ ·))
  | none =>
    String.join (offset.toList.map fun offset => " OFFSET " ++ offset ++ " ROWS") ++
      String.join (limit.toList.map fun limit => " FETCH NEXT (" ++ limit ++ ") ROWS ONLY")

/-- What stands behind a select list. -/
def queryInPlace : String :=
  String.join (plan.source.toList.map fun source => " FROM " ++ source.inPlace literal) ++
    String.join (plan.allJoins.map (·.inPlace literal plan.columns)) ++
    whereInPlace literal plan.columns (plan.conditions.getD []) ++ groupInPlace plan.grouping ++
    plan.orderInPlace literal plan.order ++ plan.pagingInPlace literal

/-- The sources of joins as a list behind a keyword. -/
def sourcesInPlace (keyword : String) : List JoinClause → String
  | [] => ""
  | joins => keyword ++ ", ".intercalate (joins.map (·.sourceInPlace literal))

/-- All conditions behind the sources of the joins. -/
def foldedInPlace (keyword : String) : String :=
  sourcesInPlace literal keyword plan.allJoins ++
    whereInPlace literal plan.columns (plan.conditions.getD [] ++ plan.allJoins.flatMap (·.on))

/-- The statement for an action with its literals written out. -/
def inPlace : Action → String
  | .select =>
    "SELECT " ++ ", ".intercalate (plan.columns.selected.map (selectItem plan.dialect)) ++
      plan.queryInPlace literal
  | .count => "SELECT count(*)" ++ plan.queryInPlace literal
  | .insert =>
    "INSERT INTO " ++ plan.quotedTable ++ " (" ++ ", ".intercalate (plan.assignments.map (·.1)) ++
      ") VALUES (" ++ ", ".intercalate (plan.assignments.map fun item => literal item.2) ++ ")"
  | .update =>
    "UPDATE " ++ plan.quotedTable ++ " SET " ++
      ", ".intercalate (plan.assignments.map fun item => item.1 ++ "=" ++ literal item.2) ++
      plan.foldedInPlace literal " FROM "
  | .delete => "DELETE FROM " ++ plan.quotedTable ++ plan.foldedInPlace literal " USING "
  | .truncate => "TRUNCATE TABLE " ++ plan.quotedTable

end Plan

end FieldQuery
