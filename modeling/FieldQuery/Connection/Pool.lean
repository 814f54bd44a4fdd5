import FieldQuery.Connection.Written
import FieldQuery.Error

/-!
# Connection pools

A pool opens connections with the settings of one text, up to a number of them.
-/

namespace FieldQuery.Connection

def SettingsError.message : SettingsError → String
  | .unknownKey key => "unknown option `" ++ key ++ "`"
  | .invalidValue key => "invalid value for option `" ++ key ++ "`"
  | .notUtf8 => "invalid UTF-8"
  | .missingEquals => "expected `=`"
  | .missingValue => "expected a value"
  | .openQuote => "unterminated quoted value"

/-- The settings of a pool, and the most connections it opens. -/
structure Pool where
  settings : Settings
  size : Nat
  deriving DecidableEq, Repr

/-- A pool for the settings of a text. -/
def Pool.create (text : String) (size : Nat) : Except QueryError Pool :=
  match Settings.parse text with
  | .ok settings => .ok ⟨settings, size⟩
  | .error error => .error (.connection ("invalid connection string: " ++ error.message))

end FieldQuery.Connection
