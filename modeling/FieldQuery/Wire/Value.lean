import FieldQuery.BindValue
import FieldQuery.Calendar
import FieldQuery.Json.Document
import FieldQuery.Text.Bytes
import FieldQuery.Wire.TypeName

/-!
# Values on the wire

A database server sends values as bytes, each column in the form of its type.

Main definitions:

- `Wire.ColumnType`, `Wire.ColumnType.ofNumber`: the types that can be read.
- `Wire.ColumnType.decode?`: the value of bytes.
-/

namespace FieldQuery.Wire

/-- The type of a column. -/
inductive ColumnType
  | bool
  | int2
  | int4
  | int8
  | float4
  | float8
  | text
  | json
  | jsonb
  | uuid
  | timestamptz
  | timestamp
  | date
  | bytea
  /-- A type that is not read, by its name. -/
  | unsupported (name : String)
  deriving DecidableEq, Repr

/-- The type of a number.  The four kinds of text are read alike. -/
def ColumnType.ofNumber (number : Nat) : ColumnType :=
  match number with
  | 16 => .bool
  | 17 => .bytea
  | 19 | 25 | 1042 | 1043 => .text
  | 20 => .int8
  | 21 => .int2
  | 23 => .int4
  | 114 => .json
  | 700 => .float4
  | 701 => .float8
  | 1082 => .date
  | 1114 => .timestamp
  | 1184 => .timestamptz
  | 2950 => .uuid
  | 3802 => .jsonb
  | number => .unsupported ((typeName? number).getD (toString number))

/-- A float as a value; infinities and NaNs have none. -/
def floatJson (x : Binary64) : Json :=
  if x.isFinite then .num (.float x) else .null

def jsonOfUtf8? (bytes : List UInt8) : Option Json := do
  Json.parse? (← Text.ofUtf8? bytes)

/-- An integer of so many bytes. -/
def integer? (size : Nat) (bytes : List UInt8) : Option Int :=
  if bytes.length = size then some (Text.signed bytes) else none

/-- The value of bytes, unless they have the wrong form. -/
def ColumnType.decode? (type : ColumnType) (bytes : List UInt8) : Option Json :=
  match type with
  | .bool =>
    match bytes with
    | [b] => some (.bool (b != 0))
    | _ => none
  | .int2 => (integer? 2 bytes).map .ofInt
  | .int4 => (integer? 4 bytes).map .ofInt
  | .int8 => (integer? 8 bytes).map .ofInt
  | .float4 =>
    if bytes.length = 4 then
      some (floatJson (.ofBinary32 (UInt32.ofNat (Text.unsigned bytes))))
    else none
  | .float8 =>
    if bytes.length = 8 then some (floatJson ⟨UInt64.ofNat (Text.unsigned bytes)⟩) else none
  | .text => (Text.ofUtf8? bytes).map .str
  | .json => jsonOfUtf8? bytes
  | .jsonb =>
    match bytes with
    | 1 :: rest => jsonOfUtf8? rest
    | _ => none
  | .uuid =>
    if bytes.length = 16 then some (.str (Uuid.mk (Text.unsigned bytes)).text) else none
  | .timestamptz => do
    let micros ← integer? 8 bytes
    return .str ((← Calendar.momentText? micros) ++ "Z")
  | .timestamp => do
    let micros ← integer? 8 bytes
    return .str (← Calendar.momentText? micros)
  | .date => do
    let days ← integer? 4 bytes
    return .str (← Calendar.dateText? days)
  | .bytea => some (.arr (bytes.map fun b => .ofNat b.toNat))
  | .unsupported _ => none

end FieldQuery.Wire
