import FieldQuery.Json.Basic

/-!
# Taking JSON values apart

Each of these gives the content of one kind of value and nothing for all others.
-/

namespace FieldQuery.Json

def text? : Json → Option String
  | .str s => some s
  | _ => none

def bool? : Json → Option Bool
  | .bool b => some b
  | _ => none

def int? : Json → Option Int
  | .num (.int i) => some i
  | _ => none

def nat? : Json → Option Nat
  | .num (.int i) => if 0 ≤ i then some i.toNat else none
  | _ => none

def float? : Json → Option Binary64
  | .num n => some n.toBinary64
  | _ => none

def items? : Json → Option (List Json)
  | .arr items => some items
  | _ => none

/-- The strings of an array that holds nothing else. -/
def texts? (value : Json) : Option (List String) := do
  (← value.items?).mapM text?

/-- The two strings of a pair. -/
def textPair? : Json → Option (String × String)
  | .arr [.str a, .str b] => some (a, b)
  | _ => none

/-- The member under a key, read by a reader; a missing one and `null` have a value of their
own. -/
def member? {α : Type} (value : Json) (key : String) (read : Json → Option α) (absent : α) :
    Option α :=
  match value.get? key with
  | none => some absent
  | some .null => some absent
  | some item => read item

/-- The member under a key, which may be missing or `null`. -/
def optional? {α : Type} (value : Json) (key : String) (read : Json → Option α) :
    Option (Option α) :=
  value.member? key (fun item => (read item).map some) none

/-- The member under a key, which has to be there. -/
def required? {α : Type} (value : Json) (key : String) (read : Json → Option α) : Option α := do
  read (← value.get? key)

/-- Whether the member under a key is `true`. -/
def flag (value : Json) (key : String) : Bool :=
  match value.get? key with
  | some (.bool b) => b
  | _ => false

def ofTexts (items : List String) : Json :=
  .arr (items.map .str)

def ofText? : Option String → Json
  | some s => .str s
  | none => .null

end FieldQuery.Json
