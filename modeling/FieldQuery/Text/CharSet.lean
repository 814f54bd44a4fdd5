/-!
# Sets of characters

A set of characters is a list of runs of code points; a run takes every `stride`-th code point
between its ends.
-/

namespace FieldQuery.Text

/-- The code points `first`, `first + stride`, … up to `last`. -/
structure Run where
  first : Nat
  last : Nat
  stride : Nat
  deriving DecidableEq, Repr

def Run.contains (run : Run) (code : Nat) : Bool :=
  run.first ≤ code && code ≤ run.last && (code - run.first) % run.stride == 0

/-- Membership in one of the runs. -/
def inRuns (runs : List Run) (c : Char) : Bool :=
  runs.any (·.contains c.toNat)

/-- Runs of stride one, from their ends. -/
def runsOf (ends : List (Nat × Nat)) : List Run :=
  ends.map fun (first, last) => ⟨first, last, 1⟩

end FieldQuery.Text
