import FieldQuery.Connection.Settings
import FieldQuery.Text.WhiteSpace

/-!
# Written connection settings

Settings are written as a list of keys and values, `host=db user=app`, or as a URL,
`postgres://app@db/name?connect_timeout=10`.

Main definitions:

- `Settings.ofPairs`: keys, equals signs and values, parted by white space.
- `Settings.ofUrl`: user and password, hosts with their services, the database and parameters.
- `Settings.parse`: either form, told apart by how the text begins.
-/

namespace FieldQuery.Connection

/-! ## Keys and values -/

/-- The text up to an end, and what follows.  A backslash takes the next character as it is, and
is left out itself. -/
def takeEscaped (ends : Char → Bool) : List Char → List Char × List Char
  | [] => ([], [])
  | ['\\'] => ([], [])
  | '\\' :: c :: rest =>
    let (value, behind) := takeEscaped ends rest
    (c :: value, behind)
  | c :: rest =>
    if ends c then ([], c :: rest)
    else
      let (value, behind) := takeEscaped ends rest
      (c :: value, behind)

theorem length_takeEscaped_le (ends : Char → Bool) (chars : List Char) :
    (takeEscaped ends chars).2.length ≤ chars.length := by
  fun_induction takeEscaped ends chars <;> simp_all <;> omega

/-- A value in single quotes, or one up to the next white space that is not empty; and what
follows. -/
def takeValue : List Char → Except SettingsError (List Char × List Char)
  | '\'' :: rest =>
    match takeEscaped (· == '\'') rest with
    | (_, []) => .error .openQuote
    | (value, _ :: behind) => .ok (value, behind)
  | chars =>
    match takeEscaped Text.isWhiteSpace chars with
    | ([], _) => .error .missingValue
    | (value, behind) => .ok (value, behind)

theorem length_takeValue_le {chars value behind : List Char}
    (h : takeValue chars = .ok (value, behind)) : behind.length ≤ chars.length := by
  unfold takeValue at h
  split at h
  · rename_i rest
    have := length_takeEscaped_le (· == '\'') rest
    split at h <;> simp_all
    omega
  · have := length_takeEscaped_le Text.isWhiteSpace chars
    split at h <;> simp_all

def skipBlanks (chars : List Char) : List Char :=
  chars.dropWhile Text.isWhiteSpace

theorem length_skipBlanks_le (chars : List Char) : (skipBlanks chars).length ≤ chars.length :=
  (List.dropWhile_suffix _).length_le

def endsKey (c : Char) : Bool :=
  Text.isWhiteSpace c || c == '='

/-- The value behind a key and its equals sign, and what follows. -/
def takeAssigned (chars : List Char) : Except SettingsError (List Char × List Char) :=
  match skipBlanks chars with
  | '=' :: rest => takeValue (skipBlanks rest)
  | _ => .error .missingEquals

theorem length_takeAssigned_lt {chars value behind : List Char}
    (h : takeAssigned chars = .ok (value, behind)) : behind.length < chars.length := by
  unfold takeAssigned at h
  have hs := length_skipBlanks_le chars
  split at h
  · rename_i rest heq
    have h1 := length_takeValue_le h
    have h2 := length_skipBlanks_le rest
    simp [heq] at hs
    omega
  · simp at h

namespace Settings

/-- Takes in keys and values.  Where no key stands the text is over. -/
def addPairs (settings : Settings) (chars : List Char) : Except SettingsError Settings :=
  let key := (skipBlanks chars).takeWhile (!endsKey ·)
  if key.isEmpty then .ok settings
  else
    match h : takeAssigned ((skipBlanks chars).dropWhile (!endsKey ·)) with
    | .error error => .error error
    | .ok (value, behind) =>
      have := length_takeAssigned_lt h
      match settings.add (String.ofList key) (String.ofList value) with
      | .error error => .error error
      | .ok settings => settings.addPairs behind
termination_by chars.length
decreasing_by
  have h2 := (List.dropWhile_suffix (fun c => !endsKey c) : _ <:+ skipBlanks chars).length_le
  have h3 := length_skipBlanks_le chars
  omega

def ofPairs (text : String) : Except SettingsError Settings :=
  addPairs {} text.toList

end Settings

/-! ## URLs -/

/-- The text up to the first end, and what begins there; without an end all of it. -/
def cutAt (ends : Char → Bool) (chars : List Char) : List Char × List Char :=
  (chars.takeWhile (!ends ·), chars.dropWhile (!ends ·))

theorem length_cutAt_le (ends : Char → Bool) (chars : List Char) :
    (cutAt ends chars).2.length ≤ chars.length :=
  (List.dropWhile_suffix _).length_le

theorem length_lt_of_cutAt {ends : Char → Bool} {chars front rest : List Char} {c : Char}
    (h : cutAt ends chars = (front, c :: rest)) : rest.length < chars.length := by
  have := length_cutAt_le ends chars
  simp only [h, List.length_cons] at this
  omega

/-- The text in front of the first character that is an end, and what begins there, if there is
one. -/
def cutAt? (ends : Char → Bool) (chars : List Char) : Option (List Char × List Char) :=
  if chars.any ends then some (cutAt ends chars) else none

/-- The text that percent signs write. -/
def decoded (chars : List Char) : Except SettingsError String :=
  match Text.percentText? chars with
  | some text => .ok text
  | none => .error .notUtf8

/-- A host, and the service behind a colon.  A host in brackets may hold colons. -/
def hostAndService (chars : List Char) :
    Except SettingsError (List Char × Option (List Char)) :=
  match chars with
  | '[' :: inner =>
    match cutAt (· == ']') inner with
    | (host, [_]) => .ok (host, none)
    | (host, _ :: ':' :: service) => .ok (host, some service)
    | _ => .error (.invalidValue "host")
  | _ =>
    match cutAt (· == ':') chars with
    | (host, []) => .ok (host, none)
    | (host, _ :: service) => .ok (host, some service)

namespace Settings

/-- Takes in a host with percent signs; behind them may be any bytes in the directory of a
socket. -/
def addUrlHost (settings : Settings) (chars : List Char) : Except SettingsError Settings :=
  let bytes := Text.percentBytes chars
  if bytes.head? = some '/'.toUInt8 then
    .ok { settings with hosts := settings.hosts ++ [.socket bytes] }
  else
    match Text.ofUtf8? bytes with
    | some name => .ok (settings.addHost name)
    | none => .error .notUtf8

/-- Takes in user and password. -/
def addCredentials (settings : Settings) (chars : List Char) : Except SettingsError Settings := do
  let (user, password) := cutAt (· == ':') chars
  let user ← decoded user
  return { settings with
    user := some user
    password := match password with
      | _ :: password => some (Text.percentBytes password)
      | [] => settings.password }

/-- Takes in one host of a URL and its service. -/
def addAuthority (settings : Settings) (chars : List Char) : Except SettingsError Settings := do
  let (host, service) ← hostAndService chars
  let settings ← settings.addUrlHost host
  settings.add "port" (← decoded (service.getD "5432".toList))

/-- Takes in the hosts of a URL. -/
def addAuthorities (settings : Settings) (chars : List Char) : Except SettingsError Settings :=
  if chars.isEmpty then .ok settings
  else (splitAtEach ',' chars).foldlM addAuthority settings

/-- Takes in the name of the database, if there is one. -/
def addPath (settings : Settings) (chars : List Char) : Except SettingsError Settings := do
  if chars.isEmpty then return settings
  else return { settings with database := some (← decoded chars) }

/-- Takes in one parameter of a URL. -/
def addParameter (settings : Settings) (key : String) (value : List Char) :
    Except SettingsError Settings := do
  if key = "host" then settings.addUrlHost value
  else settings.add key (← decoded value)

/-- Takes in the parameters of a URL, each but the last with an ampersand behind it. -/
def addParameters (settings : Settings) (chars : List Char) : Except SettingsError Settings :=
  if chars.isEmpty then .ok settings
  else
    match h : cutAt (· == '=') chars with
    | (_, []) => .error .missingEquals
    | (key, _ :: rest) =>
      have := length_lt_of_cutAt h
      match decoded key with
      | .error error => .error error
      | .ok key =>
        match settings.addParameter key (cutAt (· == '&') rest).1 with
        | .error error => .error error
        | .ok settings => settings.addParameters ((cutAt (· == '&') rest).2.drop 1)
termination_by chars.length
decreasing_by
  have h2 := length_cutAt_le (· == '&') rest
  simp only [List.length_drop]
  omega

/-- Reads what follows the scheme of a URL. -/
def ofUrl (chars : List Char) : Except SettingsError Settings := do
  -- credentials end at the first at sign, wherever it stands
  let (settings, chars) ← match cutAt? (· == '@') chars with
    | none => pure ({}, chars)
    | some (credentials, rest) => pure (← addCredentials {} credentials, rest.drop 1)
  let (hosts, chars) := cutAt (fun c => c == '/' || c == '?') chars
  let settings ← settings.addAuthorities hosts
  let (path, chars) := match chars with
    | '/' :: rest => cutAt (· == '?') rest
    | _ => ([], chars)
  let settings ← settings.addPath path
  settings.addParameters (chars.drop 1)

/-- Reads settings; a URL begins with its scheme. -/
def parse (text : String) : Except SettingsError Settings :=
  let chars := text.toList
  match ["postgres://", "postgresql://"].find? fun scheme => scheme.toList.isPrefixOf chars with
  | some scheme => ofUrl (chars.drop scheme.length)
  | none => ofPairs text

end Settings

end FieldQuery.Connection
