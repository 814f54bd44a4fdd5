import FieldQuery.Json.Access
import FieldQuery.Record
import FieldQuery.Statement

/-!
# Values in scripts

A value is written as itself where JSON has its type, and else as an object whose only key says
which type it has.

Main definitions:

- `readValue?`: reads a value.
- `readStatement?`: reads SQL that is written by hand.
- `readRecord?`: reads a row, which is written as a list of pairs.
-/

namespace FieldQuery.Script

/-- Reads what an optional value holds. -/
def readHeld? : Json → Option BindValue
  | .bool b => some (.bool b)
  | .str s => some (.text s)
  | .num (.int i) => some (.int i)
  | _ => none

/-- Reads a value of a type that is named. -/
def readTyped? (type : String) (value : Json) : Option BindValue :=
  match type with
  | "i16" | "i32" | "u32" | "i64" => value.int?.map .int
  | "f64" => value.float?.map .float
  | "bytes" => do return .bytes ((← (← value.items?).mapM Json.nat?).map UInt8.ofNat)
  | "ints" => do return .ints (← (← value.items?).mapM Json.int?)
  | "strs" => value.texts?.map .texts
  | "uuid" => do return .uuid (← Uuid.parse? (← value.text?))
  | "owned" => value.text?.map .text
  | "some" => (readHeld? value).map .some
  | "none" => some .none
  | "some_str" => if value.isNull then some .none else value.text?.map (.some ∘ .text)
  | _ => none

/-- Reads a value. -/
def readValue? : Json → Option BindValue
  | .null => some .none
  | .bool b => some (.bool b)
  | .num (.int i) => some (.int i)
  | .num (.float x) => some (.float x)
  | .str s => some (.text s)
  | .obj [(type, value)] => readTyped? type value
  | .obj _ => none
  | .arr _ => none

/-- Reads SQL: texts, and values each in an array of its own. -/
def readStatement? (items : List Json) : Option Statement :=
  items.foldlM (fun (statement : Statement) item =>
    match item with
    | .str text => some (statement.push text)
    | .arr [value] => (readValue? value).map statement.pushBind
    | _ => none) .empty

def readColumnValue? : Json → Option (String × Json)
  | .arr [.str label, value] => some (label, value)
  | _ => none

def readRecord? (j : Json) : Option Record := do
  return ⟨← (← j.items?).mapM readColumnValue?⟩

def readRecords? (j : Json) : Option (List Record) := do
  (← j.items?).mapM readRecord?

def showArguments (values : List BindValue) : Json :=
  .ofTexts (values.map (·.rendering))

/-- A statement's SQL and its values. -/
def showStatement (dialect : Dialect) (statement : Statement) : List (String × Json) :=
  [("sql", .str (statement.sql dialect)), ("args", showArguments statement.arguments)]

end FieldQuery.Script
