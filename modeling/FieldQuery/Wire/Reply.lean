import FieldQuery.Error
import FieldQuery.Record
import FieldQuery.Wire.Value

/-!
# Replies of a server

What a database server answers to a statement: columns, rows, a closing word that may end in a
number of rows, and possibly an error in front of the rows or behind them.

Main definitions:

- `Wire.Reply`: an answer.
- `Wire.Reply.records`, `Wire.Reply.affected`, `Wire.Reply.scalar`: what it says to a `SELECT`, to
  a change and to a question for one number.
-/

namespace FieldQuery.Wire

/-- An error that the server reports. -/
structure ServerError where
  state : String
  message : String
  constraint : Option String := none
  deriving DecidableEq, Repr

def ServerError.toQueryError (error : ServerError) : QueryError :=
  .ofServer error.state error.message error.constraint

/-- An answer. -/
structure Reply where
  columns : List (String × ColumnType) := []
  /-- The values of each row; a missing one is null. -/
  rows : List (List (Option (List UInt8))) := []
  closing : String := ""
  /-- An error found before anything is carried out. -/
  refused : Option ServerError := none
  /-- An error met in carrying out the statement. -/
  failed : Option ServerError := none
  deriving Repr

/-- The value of a column; the type must be one that is read, even for a null. -/
def columnValue (name : String) (type : ColumnType) (bytes : Option (List UInt8)) :
    Except QueryError Json :=
  match type, bytes with
  | .unsupported typeName, _ =>
    .error (.decode name ("unsupported column type `" ++ typeName ++ "`"))
  | _, none => .ok .null
  | type, some bytes =>
    match type.decode? bytes with
    | some value => .ok value
    | none => .error (.decode name "error deserializing column")

/-- A row as a record. -/
def rowRecord (columns : List (String × ColumnType)) (row : List (Option (List UInt8))) :
    Except QueryError Record := do
  let values ← (columns.zip row).mapM fun ((name, type), bytes) =>
    (columnValue name type bytes).map fun value => (name, value)
  return ⟨values⟩

namespace Reply

/-- The first error that the server reports. -/
def serverError? (reply : Reply) : Option QueryError :=
  (reply.refused.or reply.failed).map (·.toQueryError)

/-- A row that can be read has a value for each column and no more. -/
def fits (reply : Reply) (row : List (Option (List UInt8))) : Bool :=
  row.length = reply.columns.length

/-- What is said of a row that cannot be read. -/
def misfit : QueryError :=
  .query "error parsing response from server"

/-- The rows of a `SELECT`.  A row that cannot be read is noticed before an error that comes behind
it, and both before a value that cannot. -/
def records (reply : Reply) : Except QueryError (List Record) :=
  match reply.refused, reply.rows.all reply.fits, reply.failed with
  | some error, _, _ => .error error.toQueryError
  | none, false, _ => .error misfit
  | none, true, some error => .error error.toQueryError
  | none, true, none => reply.rows.mapM (rowRecord reply.columns)

/-- The unsigned number of 64 bits that a text is; a plus sign may stand in front. -/
def unsigned64? (text : List Char) : Option Nat :=
  let digits :=
    match text with
    | '+' :: rest => rest
    | _ => text
  if digits.isEmpty || !digits.all Char.isDigit then none
  else
    let n := Json.digitsValue (digits.map fun c => c.toNat - '0'.toNat)
    if n < Nat.pow 2 64 then some n else none

/-- The last word of the closing text as a number of rows; without a number, none. -/
def closingCount (closing : String) : Nat :=
  let last := (closing.toList.reverse.takeWhile (· ≠ ' ')).reverse
  (unsigned64? last).getD 0

/-- The number of rows that a statement changed. -/
def affected (reply : Reply) : Except QueryError Nat :=
  match reply.serverError? with
  | some error => .error error
  | none => .ok (closingCount reply.closing)

/-- The integer in the first column of a row. -/
def firstInteger? (columns : List (String × ColumnType)) (row : List (Option (List UInt8))) :
    Option Int :=
  match columns, row with
  | (_, .int8) :: _, some bytes :: _ => integer? 8 bytes
  | _, _ => none

/-- What is said of more rows than one, and of none. -/
def notOneRow : QueryError :=
  .query "query returned an unexpected number of rows"

/-- The integer in the only row.  A second row, like one that cannot be read, is noticed before an
error that comes behind it. -/
def scalar (reply : Reply) : Except QueryError Int :=
  match reply.refused, reply.rows, reply.failed with
  | some error, _, _ => .error error.toQueryError
  -- reading stops at the second row
  | none, _ :: _ :: _, _ => .error notOneRow
  | none, [], some error => .error error.toQueryError
  | none, [], none => .error notOneRow
  | none, [row], failed =>
    if reply.fits row then
      match failed, firstInteger? reply.columns row with
      | some error, _ => .error error.toQueryError
      | none, some n => .ok n
      | none, none => .error (.decode "0" "error deserializing column")
    else .error misfit

end Reply

end FieldQuery.Wire
