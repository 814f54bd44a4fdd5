import FieldQuery.Json.Access
import FieldQuery.Script.Error
import FieldQuery.Wire.Reply

/-!
# Replies in scripts

A reply is written with its bytes in hexadecimal digits.  Of an error is shown what does not depend
on the wording of others.

Main definitions:

- `readReply?`: reads a reply.
- `showWireError`: shows what went wrong with one.
-/

namespace FieldQuery.Script

def readWireColumn? : Json → Option (String × Wire.ColumnType)
  | .arr [.str name, number] => do return (name, .ofNumber (← number.nat?))
  | _ => none

/-- Reads a value, which may be missing. -/
def readWireValue? : Json → Option (Option (List UInt8))
  | .null => some none
  | value => do return some (← Text.bytesOfHex? (← value.text?).toList)

def readWireRow? (j : Json) : Option (List (Option (List UInt8))) := do
  (← j.items?).mapM readWireValue?

/-- Reads an error of the server; the violated constraint may be left out. -/
def readServerError? : Json → Option Wire.ServerError
  | .arr [.str state, .str message] => some { state, message }
  | .arr [.str state, .str message, .null] => some { state, message }
  | .arr [.str state, .str message, .str name] => some { state, message, constraint := some name }
  | _ => none

def readReply? (j : Json) : Option Wire.Reply := do
  return {
    columns := ← j.member? "columns" (fun cs => do (← cs.items?).mapM readWireColumn?) []
    rows := ← j.member? "rows" (fun rs => do (← rs.items?).mapM readWireRow?) []
    closing := ← j.member? "tag" Json.text? ""
    refused := ← j.optional? "parse_error" readServerError?
    failed := ← j.optional? "error" readServerError? }

/-- Shows an error: a failed query by its kind alone, a value that cannot be read by its column
unless its type is one that is never read, and everything else with its message. -/
def showWireError (error : QueryError) : Json :=
  match error with
  | .query _ => .ofPairs [("error", .str (errorKind error))]
  | .decode column text =>
    .ofPairs [("error", .str (errorKind error)),
      if "unsupported column type".toList.isPrefixOf text.toList then
        ("message", .str error.message)
      else ("column", .str column)]
  | _ => showError (fun _ => none) error

end FieldQuery.Script
