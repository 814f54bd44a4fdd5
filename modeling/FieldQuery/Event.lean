import FieldQuery.Text.Shorten
import FieldQuery.BindValue

/-!
# Events

What the library reports while it works: statements on their way to the database, and the doings of
the cache.

Main definitions:

- `Event`, with its `level`, `target`, `message?` and `fields`.
- `SqlLogger`: at which level and how far statements are reported.
-/

namespace FieldQuery

inductive Level
  | error
  | warn
  | info
  | debug
  | trace
  deriving DecidableEq, Repr

/-- The level's usual name, in upper case. -/
def Level.name : Level → String
  | .error => "ERROR"
  | .warn => "WARN"
  | .info => "INFO"
  | .debug => "DEBUG"
  | .trace => "TRACE"

/-- Something that happened. -/
inductive Event
  /-- A statement of a kind, with its number of values. -/
  | sql (level : Level) (kind : String) (arguments : Nat) (text : String)
  | cacheMiss (key : String)
  | cacheHit (key : String)
  | readFailed (key error : String)
  | unreadable (key : String)
  | undecodable (key error : String)
  | writeFailed (key error : String)
  | invalidating (tables : List String) (count : Nat)
  | invalidationFailed (error : String)
  | commandDropped
  | evicted (key : String)
  deriving DecidableEq, Repr

namespace Event

/-- The value of an event's field. -/
inductive Field
  | text (value : String)
  | number (value : Nat)
  /-- A key of the cache. -/
  | key (value : String)
  deriving DecidableEq, Repr

def target : Event → String
  | .sql .. => "fieldplan.sql"
  | _ => "fieldplan.cache"

def level : Event → Level
  | .sql level .. => level
  | .cacheMiss _ | .cacheHit _ | .evicted _ => .trace
  | .invalidating .. => .debug
  | .readFailed .. | .unreadable _ | .undecodable .. | .writeFailed .. | .invalidationFailed _
  | .commandDropped => .warn

def message? : Event → Option String
  | .sql .. => none
  | .cacheMiss _ => some "miss"
  | .cacheHit _ => some "hit"
  | .readFailed .. => some "cache read failed"
  | .unreadable _ => some "cached payload is unreadable"
  | .undecodable .. => some "cached rows failed to decode"
  | .writeFailed .. => some "cache write failed"
  | .invalidating .. => some "invalidating cached reads"
  | .invalidationFailed _ => some "cache invalidation failed"
  | .commandDropped => some "no tokio runtime; cache command dropped"
  | .evicted _ => some "evicted"

def fields : Event → List (String × Field)
  | .sql _ kind arguments text =>
    [("kind", .text kind), ("param_count", .number arguments), ("sql", .text text)]
  | .cacheMiss key | .cacheHit key | .unreadable key | .evicted key => [("key", .key key)]
  | .readFailed key error | .undecodable key error | .writeFailed key error =>
    [("key", .key key), ("error", .text error)]
  | .invalidating tables count =>
    [("tables", .text (BindValue.bracketed (tables.map Text.quoted))), ("count", .number count)]
  | .invalidationFailed error => [("error", .text error)]
  | .commandDropped => []

end Event

/-- How statements are reported. -/
structure SqlLogger where
  level : Level := .debug
  /-- The most bytes of a statement that are shown. -/
  maxBytes : Option Nat := some 200
  deriving DecidableEq, Repr

namespace SqlLogger

/-- A statement as it is shown. -/
def shorten (logger : SqlLogger) (sql : String) : String :=
  match logger.maxBytes with
  | some limit => Text.shorten limit sql
  | none => sql

def event (logger : SqlLogger) (kind sql : String) (arguments : Nat) : Event :=
  .sql logger.level kind arguments (logger.shorten sql)

end SqlLogger

end FieldQuery
