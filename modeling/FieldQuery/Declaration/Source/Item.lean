import FieldQuery.Declaration.Source.Expression

/-!
# Items and statements

A block may declare things of its own.  Where their parameters, conditions and bounds are empty they
are left out.  A few forms that are no proper declarations stand as they are.

Main definitions:

- `Grammar.functionItem`, `Grammar.structItem`, `Grammar.traitItem`, …: read what an item declares.
- `Grammar.item`: reads an item behind its attributes.
- `Grammar.statementsStep`: reads what stands in a block.
-/

namespace FieldQuery.Source.Grammar

/-! ## Who sees an item -/

/-- Round brackets that say how far an item is seen. -/
def reachAt : Ahead
  | .group .round content :: _ =>
    Ahead.word "in" content ||
      content.length = 1 && Ahead.words ["crate", "self", "super"] content
  | _ => false

def visibility : Reader String :=
  whenAt (.word "pub") (inOrder [one, whenAt reachAt one])

/-! ## Calls that stand for something else -/

def namesOnly : Reader String :=
  many (firstOf [(.colons, several 2), (.anyWord, one)])

/-- A call with words for others to read. -/
def call : Reader String :=
  inOrder [namesOnly, mark '!', whenAt .anyWord one, one, mark ';']

/-! ## Functions -/

/-- Where a function begins. -/
def functionAt : Ahead :=
  .past (.word "const") (.past (.word "async") (.past (.words ["unsafe", "safe"])
    (.past (.word "extern") (.past .literal (.word "fn")))))

/-- Where the parameter is that a method is called on. -/
def receiverAt : Ahead :=
  .past (.mark '&') (.past .lifetime (.past (.word "mut") (.word "self")))

/-- A parameter; one without a name gets the empty one. -/
def functionParameter (g : Grammar) : Reader String :=
  let typeOrMore := firstOf [(.marks ['.', '.', '.'], several 3), (fun _ => true, g.typeText true)]
  inOrder [g.outerAttributes, firstOf [
    (.marks ['.', '.', '.'], several 3),
    (receiverAt, inOrder [mark '&', lifetime, word "mut", one,
      whenAt (.mark ':') (inOrder [one, g.typeText true])]),
    (.both .name (.second (.mark '<')), ("_:" ++ ·) <$> g.typeText true),
    (fun _ => true, inOrder [g.pattern, mark ':', typeOrMore])]]

/-- All that a function says of itself in front of its body. -/
def signature (g : Grammar) : Reader String :=
  inOrder [word "const", word "async", word "unsafe", word "safe", interfaceName, word "fn", one,
    g.generics, inside .round (separated g.functionParameter), g.returnType true, g.whereClause]

/-- A function with its body; one without a body stands as it is unless it may go without. -/
def functionItem (g : Grammar) (bodiless : Bool) : Reader String :=
  orAsItStands do
    let signature ← g.signature
    if Ahead.mark ';' (← get) then return (signature ++ (← one), !bodiless)
    else return (signature ++ (← g.block), false)

/-! ## Constants and names of types -/

/-- A constant; one with parameters or conditions stands as it is, and so does one without a value
unless it may go without. -/
def constantItem (g : Grammar) (valueless : Bool) : Reader String :=
  orAsItStands do
    let name ← several 2
    let hasParameters := Ahead.mark '<' (← get)
    let type ← inOrder [g.generics, mark ':', g.typeText true]
    let value ← whenAt (.mark '=') (inOrder [one, g.expression true])
    let hasConditions := Ahead.word "where" (← get)
    let rest ← inOrder [g.whereClause, mark ';']
    return (name ++ type ++ value ++ rest,
      hasParameters || hasConditions || value.isEmpty && !valueless)

/-- A place for a value; one without a type or a value stands as it is. -/
def staticItem (g : Grammar) : Reader String :=
  orAsItStands do
    let name ← inOrder [one, word "mut", one]
    let type ← whenAt (.mark ':') (inOrder [one, g.typeText true])
    let value ← whenAt (.mark '=') (inOrder [one, g.expression true])
    return (name ++ type ++ value ++ (← mark ';'), type.isEmpty || value.isEmpty)

/-- Where the name of a type is declared. -/
inductive TypePlace
  | block
  | trait
  | implementation
  | foreign
  deriving DecidableEq, Repr

/-- The declared name of a type.  Outside of traits one with bounds stands as it is, and so does one
without a type, or, for a type from elsewhere, with one. -/
def typeItem (g : Grammar) (place : TypePlace) : Reader String :=
  orAsItStands do
    let name ← inOrder [several 2, g.generics]
    let hasBounds := Ahead.mark ':' (← get)
    let bounds ← g.optionalBounds
    let before ← if place = .block ∨ place = .foreign then g.whereClause else pure ""
    let type ← whenAt (.mark '=') (inOrder [one, g.typeText true])
    let after ← if place = .block then pure "" else g.whereClause
    let stands :=
      match place with
      | .block | .implementation => hasBounds || type.isEmpty
      | .trait => false
      | .foreign => hasBounds || !type.isEmpty
    return (name ++ bounds ++ before ++ type ++ after ++ (← mark ';'), stands)

/-! ## Structures -/

def namedFields (g : Grammar) : Reader String :=
  inside .curly (separated
    (inOrder [g.outerAttributes, visibility, one, mark ':', g.typeText true]))

def tupleFields (g : Grammar) : Reader String :=
  inside .round (separated (inOrder [g.outerAttributes, visibility, g.typeText true]))

def structItem (g : Grammar) : Reader String :=
  inOrder [several 2, g.generics, firstOf [
    (.group .round, inOrder [g.tupleFields, g.whereClause, mark ';']),
    (fun _ => true, inOrder [g.whereClause, g.namedFields, mark ';'])]]

/-- A variant; who sees it is not written. -/
def variant (g : Grammar) : Reader String :=
  inOrder [g.outerAttributes, silently visibility, whenAt .anyWord one,
    g.namedFields, g.tupleFields, whenAt (.mark '=') (inOrder [one, g.expression true])]

def enumItem (g : Grammar) : Reader String :=
  inOrder [several 2, g.generics, g.whereClause, inside .curly (separated g.variant)]

def unionItem (g : Grammar) : Reader String :=
  inOrder [several 2, g.generics, g.whereClause, g.namedFields]

/-! ## Traits -/

/-- Where a constant begins and no function. -/
def constantAt : Ahead :=
  .both (.word "const") (.second (.either .name (.word "_")))

/-- A member of a trait; one with a mark of who sees it stands as it is. -/
def traitMember (g : Grammar) : Reader String :=
  inOrder [g.outerAttributes, orAsItStands do
    let marks ← inOrder [visibility, word "default"]
    let member ← firstOf [
      (constantAt, g.constantItem true),
      (functionAt, g.functionItem true),
      (.word "type", g.typeItem .trait),
      (fun _ => true, call)]
    return (member, !marks.isEmpty)]

/-- The members of a trait or of an implementation. -/
def members (g : Grammar) (member : Reader String) : Reader String :=
  inside .curly (inOrder [g.innerAttributes, many member])

/-- A trait, or another name for a sum of bounds. -/
def traitItem (g : Grammar) : Reader String :=
  inOrder [word "unsafe", word "auto", several 2, g.generics, firstOf [
    (.mark '=', inOrder [one, g.bounds, g.whereClause, mark ';']),
    (fun _ => true, inOrder [g.optionalBounds, g.whereClause, g.members g.traitMember])]]

/-! ## Implementations -/

/-- A member of an implementation. -/
def implementationMember (g : Grammar) : Reader String :=
  inOrder [g.outerAttributes, visibility,
    whenAt (.but (.word "default") (.second (.mark '!'))) one,
    firstOf [
      (constantAt, g.constantItem false),
      (functionAt, g.functionItem false),
      (.word "type", g.typeItem .implementation),
      (fun _ => true, call)]]

/-- Where parameters follow and no type between angle brackets. -/
def implementationGenericsAt : Ahead :=
  .both (.mark '<') (.either
    (.second (.either (.either (.mark '>') (.mark '#')) (.word "const")))
    (.both (.second (.either .lifetime .name))
      (.third (.either (.either (.mark '>') (.mark ',')) (.either (.markBut ':' ':') (.mark '='))))))

/-- What an implementation is for: a type, or a trait and a type. -/
def implementationItem (g : Grammar) (isVisible : Bool) : Reader String :=
  orAsItStands do
    let start ← inOrder [word "default", word "unsafe", one,
      whenAt implementationGenericsAt g.generics]
    let constant ← inOrder [
      whenAt (.both (.mark '?') (.second (.word "const"))) one, word "const"]
    let isTrait := Ahead.but pathAt (.mark '<') (← get)
    let isDenied := Ahead.but (.mark '!') (.second (.group .curly)) (← get)
    let first ← orAsItStands do
      let text ← inOrder [mark '!', g.typeText true]
      return (text, isDenied && !Ahead.word "for" (← get))
    let isFor := Ahead.word "for" (← get)
    let second ← whenAt (.word "for") (inOrder [one, g.typeText true])
    let rest ← inOrder [g.whereClause, g.members g.implementationMember]
    return (start ++ constant ++ first ++ second ++ rest,
      isVisible || !constant.isEmpty || isFor && !isTrait && !isDenied)

/-! ## What is declared elsewhere -/

/-- A function from elsewhere; one with a body or a promise of safety stands as it is. -/
def foreignFunction (g : Grammar) : Reader String :=
  orAsItStands do
    let isSafe := Ahead.past (.word "const") (.past (.word "async") (.word "safe")) (← get)
    let signature ← g.signature
    if Ahead.mark ';' (← get) then return (signature ++ (← one), isSafe)
    else return (signature ++ (← g.block), true)

/-- A place for a value from elsewhere; one with a value or a promise stands as it is. -/
def foreignStatic (g : Grammar) : Reader String :=
  orAsItStands do
    let promise ← whenAt (.words ["unsafe", "safe"]) one
    let name ← inOrder [one, word "mut", one, mark ':', g.typeText true]
    let value ← whenAt (.mark '=') (inOrder [one, g.expression true])
    return (promise ++ name ++ value ++ (← mark ';'), !promise.isEmpty || !value.isEmpty)

/-- A thing that is declared elsewhere. -/
def foreignMember (g : Grammar) : Reader String :=
  inOrder [g.outerAttributes, visibility, firstOf [
    (functionAt, g.foreignFunction),
    (.past (.words ["unsafe", "safe"]) (.word "static"), g.foreignStatic),
    (.word "type", g.typeItem .foreign),
    (fun _ => true, call)]]

def foreignItem (g : Grammar) : Reader String :=
  inOrder [word "unsafe", interfaceName, g.members g.foreignMember]

/-! ## Items -/

def moduleItem (g : Grammar) : Reader String :=
  inOrder [word "unsafe", several 2, g.block, mark ';']

/-- A thing that a block declares, behind its attributes. -/
def item (g : Grammar) : Reader String := do
  let visible ← visibility
  let rest ← firstOf [
    (functionAt, g.functionItem false),
    (.both (.word "extern") (.second (.word "crate")), through ';'),
    (.past (.word "unsafe") (.word "extern"), g.foreignItem),
    (.word "use", through ';'),
    (.word "static", g.staticItem),
    (.word "const", g.constantItem false),
    (.past (.word "unsafe") (.past (.word "auto") (.word "trait")), g.traitItem),
    (.past (.word "default") (.past (.word "unsafe") (.word "impl")),
      g.implementationItem !visible.isEmpty),
    (.past (.word "unsafe") (.word "mod"), g.moduleItem),
    (.word "type", g.typeItem .block),
    (.word "struct", g.structItem),
    (.word "enum", g.enumItem),
    (.both (.word "union") (.second .name), g.unionItem),
    (.word "macro", inOrder [several 2, whenAt (.group .round) one, one]),
    (fun _ => true, call)]
  return visible ++ rest

/-- A call that names the thing it declares. -/
def declaringCallAt : Ahead :=
  .pastNames (.both (.mark '!') (.second (.either .name (.word "try"))))

/-- A call with curly brackets that is a statement of its own. -/
def callStatementAt : Ahead :=
  .pastNames (.both (.mark '!')
    (.but (.second (.group .curly)) (.third (.either fieldAt (.mark '?')))))

/-- Where a block declares a thing. -/
def itemAt : Ahead := fun trees =>
  Ahead.words ["pub", "extern", "use", "fn", "mod", "type", "struct", "enum", "trait", "impl",
    "macro"] trees ||
  Ahead.but (.word "crate") (.second .colons) trees ||
  Ahead.both (.word "static") (.second (.either (.word "mut") .name)) trees ||
  Ahead.but (.word "const") (.second (.either (.either (.group .curly) (.mark '|'))
    (.either (.words ["static", "move"])
      (.but (.word "async") (.second (.words ["unsafe", "extern", "fn"])))))) trees ||
  Ahead.but (.word "unsafe") (.second (.group .curly)) trees ||
  Ahead.both (.word "async") (.second (.words ["unsafe", "extern", "fn"])) trees ||
  Ahead.both (.word "union") (.second .name) trees ||
  Ahead.both (.word "auto") (.second (.word "trait")) trees ||
  Ahead.both (.word "default") (.second (.words ["unsafe", "impl"])) trees ||
  declaringCallAt trees

/-! ## Statements -/

/-- A variable with its type, its value, and what happens if that does not fit. -/
def letStatement (g : Grammar) : Reader String :=
  inOrder [one, g.alternatives, whenAt (.mark ':') (inOrder [one, g.typeText true]),
    whenAt (.mark '=') (inOrder [one, g.expression true,
      whenAt (.word "else") (inOrder [one, g.block])]), mark ';']

def statement (g : Grammar) : Reader String :=
  firstOf [
    (.mark ';', one),
    (fun _ => true, inOrder [g.outerAttributes, firstOf [
      (callStatementAt, call),
      (.word "let", g.letStatement),
      (itemAt, g.item),
      (fun _ => true, inOrder [g.leading, mark ';'])]])]

def statementsStep (g : Grammar) : Reader String :=
  many g.statement

end FieldQuery.Source.Grammar
