import FieldQuery.BindValue
import FieldQuery.Dialect

/-!
# Statements

A statement is SQL text with bound values.  Where a value is bound, the text has a mark; what the
mark looks like is up to the dialect, when the text is written.  The values are kept in a list of
their own, in the order in which they were bound.  So a statement can be put into another one
without counting anew, but text and values only fit while both lists grow together.

Main definitions:

- `SqlPart`: a text, or a mark.
- `Statement`: the parts and the values, with a value for each mark.
- `Statement.push`, `Statement.pushBind`, `Statement.pushBindList`, `Statement.append`: how
  statements grow.
- `Statement.sql`: the text in a dialect.
-/

namespace FieldQuery

/-- A part of a statement: text, or the mark of a bound value. -/
inductive SqlPart
  | text (sql : String)
  | mark
  deriving DecidableEq, Repr

namespace SqlPart

def isMark : SqlPart → Bool
  | .text _ => false
  | .mark => true

/-- The number of marks. -/
def marks (parts : List SqlPart) : Nat :=
  parts.countP isMark

@[simp] theorem marks_nil : marks [] = 0 := rfl

@[simp] theorem marks_text (sql : String) (rest : List SqlPart) :
    marks (.text sql :: rest) = marks rest :=
  List.countP_cons_of_neg Bool.false_ne_true

@[simp] theorem marks_mark (rest : List SqlPart) : marks (.mark :: rest) = marks rest + 1 :=
  List.countP_cons_of_pos rfl

@[simp] theorem marks_append (front back : List SqlPart) :
    marks (front ++ back) = marks front + marks back :=
  List.countP_append

end SqlPart

/-- SQL text with marks, and the values that are bound at them.  Texts that follow one another count
as one text. -/
@[ext] structure Statement where
  parts : List SqlPart := []
  arguments : List BindValue := []
  /-- There is a value for each mark. -/
  balanced : SqlPart.marks parts = arguments.length := by rfl
  deriving DecidableEq, Repr

namespace Statement

def empty : Statement := {}

/-- Adds text at the end. -/
def push (statement : Statement) (sql : String) : Statement where
  parts := statement.parts ++ [.text sql]
  arguments := statement.arguments
  balanced := by simp [statement.balanced]

/-- Adds a mark at the end of the text, and its value behind the values. -/
def pushBind (statement : Statement) (value : BindValue) : Statement where
  parts := statement.parts ++ [.mark]
  arguments := statement.arguments ++ [value]
  balanced := by simp [statement.balanced]

/-- Adds bound values, parted by commas. -/
def pushBindList (statement : Statement) : List BindValue → Statement
  | [] => statement
  | [value] => statement.pushBind value
  | value :: next :: rest => ((statement.pushBind value).push ", ").pushBindList (next :: rest)

/-- One statement behind another: text behind text, and values behind values. -/
def append (first second : Statement) : Statement where
  parts := first.parts ++ second.parts
  arguments := first.arguments ++ second.arguments
  balanced := by simp [first.balanced, second.balanced]

instance : Append Statement := ⟨append⟩

def ofText (sql : String) : Statement :=
  empty.push sql

def ofValue (value : BindValue) : Statement :=
  empty.pushBind value

/-- Bound values parted by commas. -/
def ofValues (values : List BindValue) : Statement :=
  empty.pushBindList values

/-- Statements one behind the other, with a text between any two. -/
def join (separator : String) : List Statement → Statement
  | [] => empty
  | [s] => s
  | s :: t :: rest => s ++ ofText separator ++ join separator (t :: rest)

/-- Whether nothing has been written. -/
def isEmpty (statement : Statement) : Bool :=
  statement.parts.all fun
    | .text sql => sql.isEmpty
    | .mark => false

/-- The text of parts in a dialect, with the marks numbered from `next` on. -/
def partsSql (dialect : Dialect) : Nat → List SqlPart → String
  | _, [] => ""
  | next, .text sql :: rest => sql ++ partsSql dialect next rest
  | next, .mark :: rest => dialect.placeholder next ++ partsSql dialect (next + 1) rest

/-- The text in a dialect, with the marks numbered from one on. -/
def sql (statement : Statement) (dialect : Dialect) : String :=
  partsSql dialect 1 statement.parts

@[simp] theorem parts_append (a b : Statement) : (a ++ b).parts = a.parts ++ b.parts := rfl

@[simp] theorem arguments_append (a b : Statement) :
    (a ++ b).arguments = a.arguments ++ b.arguments := rfl

@[simp] theorem arguments_ofText (sql : String) : (ofText sql).arguments = [] := rfl

@[simp] theorem arguments_ofValue (value : BindValue) : (ofValue value).arguments = [value] := rfl

@[simp] theorem arguments_empty : empty.arguments = [] := rfl

theorem append_assoc (a b c : Statement) : a ++ b ++ c = a ++ (b ++ c) :=
  Statement.ext (List.append_assoc _ _ _) (List.append_assoc _ _ _)

theorem append_empty (a : Statement) : a ++ empty = a :=
  Statement.ext (List.append_nil _) (List.append_nil _)

theorem empty_append (a : Statement) : empty ++ a = a := rfl

theorem push_eq (a : Statement) (sql : String) : a.push sql = a ++ ofText sql :=
  Statement.ext rfl (List.append_nil _).symm

theorem pushBind_eq (a : Statement) (value : BindValue) : a.pushBind value = a ++ ofValue value :=
  rfl

/-- Bound values in a list are statements of one value each. -/
theorem pushBindList_eq : ∀ (statement : Statement) (values : List BindValue),
    statement.pushBindList values = statement ++ join ", " (values.map ofValue)
  | statement, [] => statement.append_empty.symm
  | statement, [value] => rfl
  | statement, value :: next :: rest => by
      have hrest := pushBindList_eq ((statement.pushBind value).push ", ") (next :: rest)
      rw [pushBindList, hrest, push_eq, pushBind_eq]
      simp only [List.map_cons, join, append_assoc]

theorem ofValues_eq (values : List BindValue) :
    ofValues values = join ", " (values.map ofValue) := by
  rw [ofValues, pushBindList_eq, empty_append]

end Statement

end FieldQuery
