import FieldQuery.Json.Basic
import FieldQuery.Json.Lexeme

/-!
# JSON documents

A document is a text's tree as it was written: members in their order, keys as often as they
occur, numbers and strings not yet read.  The tree is built by a machine that takes one lexeme at a
time; the values still open are on its stack.

Main definitions:

- `Document.ofLexemes?`, `Document.ofText?`: the tree of a text.
- `Document.toJson?`: the value of a tree, for a bounded nesting of arrays and objects.
- `Json.parse?`: the value of a text.
-/

namespace FieldQuery.Json

/-- A text's tree. -/
inductive Document
  | null
  | bool (value : Bool)
  | num (literal : NumberLiteral)
  | str (parts : List StringPart)
  | arr (items : List Document)
  | obj (members : List (List StringPart × Document))
  deriving Repr, Inhabited

namespace Document

/-- An array or object whose next value is being read; what came before it, last first. -/
inductive Frame
  | array (items : List Document)
  | object (members : List (List StringPart × Document)) (key : List StringPart)

/-- What may come next. -/
inductive Mode
  /-- A value, or the end of an array that was just opened. -/
  | value (mayClose : Bool)
  /-- A key of an object with these members (last first), or its end when it was just opened. -/
  | key (members : List (List StringPart × Document)) (mayClose : Bool)
  /-- The colon behind a key. -/
  | colon (members : List (List StringPart × Document)) (key : List StringPart)
  /-- Whatever may follow a finished value. -/
  | after (value : Document)

/-- The reading machine: the open arrays and objects, innermost first. -/
structure Reader where
  stack : List Frame
  mode : Mode

/-- The value of a lexeme that is one by itself. -/
def ofLexeme? : Lexeme → Option Document
  | .null => some .null
  | .bool b => some (.bool b)
  | .num n => some (.num n)
  | .str s => some (.str s)
  | _ => none

/-- Takes a lexeme where a value is due. -/
def Reader.value (stack : List Frame) (mayClose : Bool) : Lexeme → Option Reader
  | .openArray => some ⟨.array [] :: stack, .value true⟩
  | .openObject => some ⟨stack, .key [] true⟩
  | .closeArray =>
    match stack with
    | .array [] :: outer => if mayClose then some ⟨outer, .after (.arr [])⟩ else none
    | _ => none
  | lexeme => (ofLexeme? lexeme).map fun v => ⟨stack, .after v⟩

/-- Takes a lexeme behind a finished value. -/
def Reader.after (v : Document) : List Frame → Lexeme → Option Reader
  | .array items :: outer, .comma => some ⟨.array (v :: items) :: outer, .value false⟩
  | .array items :: outer, .closeArray => some ⟨outer, .after (.arr (v :: items).reverse)⟩
  | .object members key :: outer, .comma => some ⟨outer, .key ((key, v) :: members) false⟩
  | .object members key :: outer, .closeObject =>
    some ⟨outer, .after (.obj ((key, v) :: members).reverse)⟩
  | _, _ => none

/-- Takes one lexeme. -/
def Reader.step (reader : Reader) (lexeme : Lexeme) : Option Reader :=
  match reader.mode with
  | .value mayClose => Reader.value reader.stack mayClose lexeme
  | .key members mayClose =>
    match lexeme with
    | .str key => some ⟨reader.stack, .colon members key⟩
    | .closeObject =>
      if mayClose then some ⟨reader.stack, .after (.obj members.reverse)⟩ else none
    | _ => none
  | .colon members key =>
    match lexeme with
    | .colon => some ⟨.object members key :: reader.stack, .value false⟩
    | _ => none
  | .after v => Reader.after v reader.stack lexeme

/-- The tree, when a value is finished and nothing is open. -/
def Reader.result? (reader : Reader) : Option Document :=
  match reader.stack, reader.mode with
  | [], .after v => some v
  | _, _ => none

/-- The tree of a list of lexemes. -/
def ofLexemes? (lexemes : List Lexeme) : Option Document := do
  let reader ← lexemes.foldlM Reader.step ⟨[], .value false⟩
  reader.result?

/-- The tree of a text. -/
def ofText? (text : String) : Option Document := do
  let lexemes ← Lexeme.ofText? text
  ofLexemes? lexemes

mutual

/-- The value of a tree whose arrays and objects nest at most `depth` deep; of one key's members
the last one counts. -/
def toJson? (depth : Nat) : Document → Option Json
  | .null => some .null
  | .bool b => some (.bool b)
  | .num n => (Number.ofLiteral? n).map .num
  | .str s => (decode? s).map .str
  | .arr items =>
    match depth with
    | 0 => none
    | depth + 1 => (itemsToJson? depth items).map .arr
  | .obj members =>
    match depth with
    | 0 => none
    | depth + 1 => (membersToJson? depth members).map ofPairs

def itemsToJson? (depth : Nat) : List Document → Option (List Json)
  | [] => some []
  | item :: rest => do
    let v ← toJson? depth item
    let vs ← itemsToJson? depth rest
    return v :: vs

def membersToJson? (depth : Nat) :
    List (List StringPart × Document) → Option (List (String × Json))
  | [] => some []
  | (key, item) :: rest => do
    let k ← decode? key
    let v ← toJson? depth item
    let vs ← membersToJson? depth rest
    return (k, v) :: vs

end

end Document

/-- How deep arrays and objects of a text may nest. -/
def depthLimit : Nat := 127

/-- The value of a text. -/
def parse? (text : String) : Option Json := do
  let document ← Document.ofText? text
  document.toJson? depthLimit

end FieldQuery.Json
