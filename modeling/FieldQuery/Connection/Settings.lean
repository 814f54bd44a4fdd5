import FieldQuery.Connection.Address
import FieldQuery.Text.Percent

/-!
# Connection settings

How a database server is reached: its hosts and their services, who asks, and how the connection is
to be kept.  Each setting has a key and is read from a text of its own.

Main definitions:

- `Settings`: all of them.
- `Settings.add`: takes in one key and its value.
- `SettingsError`: why a text says nothing about a connection.
-/

namespace FieldQuery.Connection

/-- A host: its name, or the directory of its socket. -/
inductive Host
  | name (text : String)
  | socket (directory : List UInt8)
  deriving DecidableEq, Repr

inductive SslMode
  | disable
  | prefer
  | require
  deriving DecidableEq, Repr

inductive SslNegotiation
  | postgres
  | direct
  deriving DecidableEq, Repr

inductive SessionAttributes
  | any
  | readWrite
  | readOnly
  deriving DecidableEq, Repr

inductive ChannelBinding
  | disable
  | prefer
  | require
  deriving DecidableEq, Repr

inductive HostBalancing
  | disable
  | random
  deriving DecidableEq, Repr

/-- What a connection text says.  Times are in seconds, and one that is not positive is left
out. -/
structure Settings where
  user : Option String := none
  password : Option (List UInt8) := none
  database : Option String := none
  options : Option String := none
  applicationName : Option String := none
  hosts : List Host := []
  addresses : List Address := []
  /-- The numbers of the services that the hosts listen as. -/
  services : List Nat := []
  sslMode : SslMode := .prefer
  sslNegotiation : SslNegotiation := .postgres
  connectTimeout : Option Nat := none
  userTimeout : Option Nat := none
  keepalives : Bool := true
  keepalivesIdle : Option Nat := none
  keepalivesInterval : Option Nat := none
  keepalivesRetries : Option Nat := none
  sessionAttributes : SessionAttributes := .any
  channelBinding : ChannelBinding := .prefer
  hostBalancing : HostBalancing := .disable
  deriving DecidableEq, Repr

/-- Why a connection text is refused. -/
inductive SettingsError
  | unknownKey (key : String)
  | invalidValue (key : String)
  /-- The characters of a value are no text. -/
  | notUtf8
  | missingEquals
  | missingValue
  | openQuote
  deriving DecidableEq, Repr

/-- The unsigned number below a bound that a text is; a plus sign may stand in front. -/
def unsignedBelow? (bound : Nat) (text : List Char) : Option Nat := do
  let n ← decimal? (match text with
    | '+' :: rest => rest
    | _ => text)
  if n < bound then return n else none

/-- The integer of 64 bits that a text is; either sign may stand in front. -/
def integer64? (text : List Char) : Option Int :=
  match text with
  | '-' :: rest => do
    let n ← decimal? rest
    if n ≤ Nat.pow 2 63 then return -(n : Int) else none
  | _ => (unsignedBelow? (Nat.pow 2 63) text).map Int.ofNat

namespace Settings

/-- Takes in a host by its name, or by the directory that begins with a slash. -/
def addHost (settings : Settings) (name : String) : Settings :=
  let host := if name.toList.head? = some '/' then .socket (Text.utf8 name) else .name name
  { settings with hosts := settings.hosts ++ [host] }

/-- A time in seconds. -/
def seconds (key value : String) : Except SettingsError (Option Nat) :=
  match integer64? value.toList with
  | none => .error (.invalidValue key)
  | some n => .ok (if 0 < n then some n.toNat else none)

/-- One of several words. -/
def choice {α : Type} (key value : String) (words : List (String × α)) : Except SettingsError α :=
  match words.find? (·.1 == value) with
  | some (_, meaning) => .ok meaning
  | none => .error (.invalidValue key)

/-- A number below a bound. -/
def bounded (key : String) (bound : Nat) (value : List Char) : Except SettingsError Nat :=
  match unsignedBelow? bound value with
  | some n => .ok n
  | none => .error (.invalidValue key)

/-- The number of a service; an empty text is the usual one. -/
def service (chars : List Char) : Except SettingsError Nat :=
  if chars.isEmpty then .ok 5432 else bounded "port" (Nat.pow 2 16) chars

def address (chars : List Char) : Except SettingsError Address :=
  match Address.parse? (String.ofList chars) with
  | some address => .ok address
  | none => .error (.invalidValue "hostaddr")

/-- Takes in a key and its value. -/
def add (settings : Settings) (key value : String) : Except SettingsError Settings :=
  let parts := splitAtEach ',' value.toList
  match key with
  | "user" => .ok { settings with user := some value }
  | "password" => .ok { settings with password := some (Text.utf8 value) }
  | "dbname" => .ok { settings with database := some value }
  | "options" => .ok { settings with options := some value }
  | "application_name" => .ok { settings with applicationName := some value }
  | "sslmode" => do
    let mode ← choice key value
      [("disable", .disable), ("prefer", .prefer), ("require", .require)]
    return { settings with sslMode := mode }
  | "sslnegotiation" => do
    let mode ← choice key value [("postgres", .postgres), ("direct", .direct)]
    return { settings with sslNegotiation := mode }
  | "host" => .ok ((parts.map String.ofList).foldl addHost settings)
  | "hostaddr" => do
    let addresses ← parts.mapM address
    return { settings with addresses := settings.addresses ++ addresses }
  | "port" => do
    let services ← parts.mapM service
    return { settings with services := settings.services ++ services }
  | "connect_timeout" => do
    return { settings with connectTimeout := (← seconds key value).or settings.connectTimeout }
  | "tcp_user_timeout" => do
    return { settings with userTimeout := (← seconds key value).or settings.userTimeout }
  | "keepalives" => do
    let n ← bounded key (Nat.pow 2 64) value.toList
    return { settings with keepalives := n != 0 }
  | "keepalives_idle" => do
    return { settings with keepalivesIdle := (← seconds key value).or settings.keepalivesIdle }
  | "keepalives_interval" => do
    return { settings with
      keepalivesInterval := (← seconds key value).or settings.keepalivesInterval }
  | "keepalives_retries" => do
    let n ← bounded key (Nat.pow 2 32) value.toList
    return { settings with keepalivesRetries := some n }
  | "target_session_attrs" => do
    let attributes ← choice key value
      [("any", .any), ("read-write", .readWrite), ("read-only", .readOnly)]
    return { settings with sessionAttributes := attributes }
  | "channel_binding" => do
    let mode ← choice key value
      [("disable", .disable), ("prefer", .prefer), ("require", .require)]
    return { settings with channelBinding := mode }
  | "load_balance_hosts" => do
    let mode ← choice key value [("disable", .disable), ("random", .random)]
    return { settings with hostBalancing := mode }
  | _ => .error (.unknownKey key)

end Settings

end FieldQuery.Connection
