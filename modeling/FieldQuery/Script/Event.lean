import FieldQuery.Cache.Observed
import FieldQuery.Executor.Canned
import FieldQuery.Script.Value

/-!
# Events and calls in scripts

How what happened is shown: reported events, calls of an executor and operations on a cache.
-/

namespace FieldQuery.Script

def readLevel? : String → Option Level
  | "ERROR" => some .error
  | "WARN" => some .warn
  | "INFO" => some .info
  | "DEBUG" => some .debug
  | "TRACE" => some .trace
  | _ => none

/-- Reads how statements are reported; a limit of `null` is none at all. -/
def readLogger? (j : Json) : Option SqlLogger := do
  let standard : SqlLogger := {}
  return {
    level := ← j.member? "level" (fun l => l.text?.bind readLevel?) standard.level
    maxBytes := ← match j.get? "max" with
      | none => some standard.maxBytes
      | some .null => some none
      | some n => n.nat?.map some }

/-- Shows an event; `showKey` shows the keys of a cache. -/
def showEvent (showKey : String → Json) (event : Event) : Json :=
  let fields := event.fields.map fun (name, value) =>
    (name, match value with
      | .text s => .str s
      | .number n => .ofNat n
      | .key k => showKey k)
  let message := event.message?.toList.map fun text => ("message", Json.str text)
  .ofPairs [("level", .str event.level.name), ("target", .str event.target),
    ("fields", .ofPairs (fields ++ message))]

def requestWord : SqlRequest → String
  | .select => "select"
  | .execute => "execute"
  | .scalar => "scalar"

def showSqlCall (call : SqlCall) : Json :=
  .arr [.str (requestWord call.request), .str call.sql, showArguments call.arguments]

/-- Shows an operation on a cache. -/
def showBackendCall (showKey : String → Json) (showKeys : List String → Json) :
    Cache.BackendCall → Json
  | .get key => .arr [.str "get", showKey key]
  | .set key payload => .arr [.str "set", showKey key, .str payload]
  | .delete keys => .arr [.str "delete", showKeys keys]

end FieldQuery.Script
