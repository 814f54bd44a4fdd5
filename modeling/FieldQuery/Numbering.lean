import FieldQuery.Reference

/-!
# Numbering tokens

Tokens are told apart in what is shown to people by small numbers, from zero on in the order in
which they appear.
-/

namespace FieldQuery

/-- Numbers tokens; the state holds those that have appeared. -/
abbrev Numbering := StateM (List Token)

namespace Numbering

/-- The number of a token. -/
def number (token : Token) : Numbering Nat := fun known =>
  match known.findIdx? (· == token) with
  | some place => (place, known)
  | none => (known.length, known ++ [token])

def numbers (tokens : List Token) : Numbering (List Nat) :=
  tokens.mapM number

/-- What is shown when no token has appeared before. -/
def shown {α : Type} (view : Numbering α) : α :=
  (view.run []).1

end Numbering

end FieldQuery
