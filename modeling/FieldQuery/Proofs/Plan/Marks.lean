import FieldQuery.Statement
import Mathlib.Data.List.Basic
import Mathlib.Data.List.Range

/-!
# Marks

The text of a statement and its values are two lists.  They are read side by side here: each mark
takes the next value.  Statements grow in such a way that this reading of the whole is that of its
pieces, so a value never moves to another mark.  A dialect only decides how marks are written; the
same texts stand between them in every dialect.  Nor does it matter whether texts that follow one
another are kept as one text: statements grow alike and are written alike.

Main definitions:

- `Statement.pieces`: texts and values, each value where its mark stands; `Statement.ofPieces`: the
  statement of pieces.
- `Statement.gaps`: the text in front of the first mark, and the texts behind each.
- `Statement.kept`: the parts, where texts that follow one another are one.
- `Statement.inPlace`: the text with the values written in place of their marks.

Main statements: `Statement.pieces_append`, `Statement.sql_eq`, `Statement.kept_append`,
`Statement.sql_kept`, `Statement.inPlace_append`.
-/

namespace FieldQuery

/-- A piece of a statement: text, or a value that is bound at a mark. -/
inductive Piece
  | text (sql : String)
  | bind (value : BindValue)
  deriving DecidableEq, Repr

namespace Piece

/-- The part of the text that a piece leaves. -/
def part : Piece → SqlPart
  | .text sql => .text sql
  | .bind _ => .mark

def value? : Piece → Option BindValue
  | .text _ => none
  | .bind value => some value

/-- The text of a piece, with a value written out. -/
def inPlace (literal : BindValue → String) : Piece → String
  | .text sql => sql
  | .bind value => literal value

end Piece

namespace Statement

/-! ## Text and values side by side -/

/-- Each mark takes the next value. -/
def weave : List SqlPart → List BindValue → List Piece
  | [], _ => []
  | .text sql :: rest, values => .text sql :: weave rest values
  | .mark :: rest, value :: values => .bind value :: weave rest values
  -- no value is left
  | .mark :: _, [] => []

/-- Text and values, each value where its mark stands. -/
def pieces (statement : Statement) : List Piece :=
  weave statement.parts statement.arguments

/-- The number of marks. -/
def marks (statement : Statement) : Nat :=
  SqlPart.marks statement.parts

theorem marks_eq (statement : Statement) : statement.marks = statement.arguments.length :=
  statement.balanced

/-- Where the front has a value for each of its marks, the values of the back stay with it. -/
theorem weave_append {front : List SqlPart} {values : List BindValue}
    (h : SqlPart.marks front = values.length) (back : List SqlPart) (others : List BindValue) :
    weave (front ++ back) (values ++ others) = weave front values ++ weave back others := by
  -- along the text, of which a mark takes a value with it
  induction front generalizing values with
  | nil =>
      have hnone : values = [] := List.eq_nil_of_length_eq_zero h.symm
      rw [hnone]
      rfl
  | cons part rest ih =>
      cases part with
      | text sql =>
          rw [SqlPart.marks_text] at h
          simp only [List.cons_append, weave, ih h]
      | mark =>
          rw [SqlPart.marks_mark] at h
          cases values with
          | nil => cases h
          | cons value values => simp only [List.cons_append, weave, ih (Nat.succ.inj h)]

/-- The pieces of a whole are those of both statements. -/
@[simp] theorem pieces_append (a b : Statement) : (a ++ b).pieces = a.pieces ++ b.pieces :=
  weave_append a.balanced b.parts b.arguments

theorem pieces_push (statement : Statement) (sql : String) :
    (statement.push sql).pieces = statement.pieces ++ [.text sql] := by
  have hgrown := weave_append statement.balanced [.text sql] []
  rwa [List.append_nil] at hgrown

/-- A value that is bound last stands at the last mark. -/
theorem pieces_pushBind (statement : Statement) (value : BindValue) :
    (statement.pushBind value).pieces = statement.pieces ++ [.bind value] :=
  weave_append statement.balanced [.mark] [value]

@[simp] theorem pieces_ofText (sql : String) : (ofText sql).pieces = [.text sql] := rfl

@[simp] theorem pieces_ofValue (value : BindValue) : (ofValue value).pieces = [.bind value] := rfl

theorem pieces_pushBindList : ∀ (statement : Statement) (values : List BindValue),
    (statement.pushBindList values).pieces =
      statement.pieces ++ (values.map Piece.bind).intersperse (.text ", ")
  | statement, [] => (List.append_nil _).symm
  | statement, [value] => statement.pieces_pushBind value
  | statement, value :: next :: rest => by
      have hrest := pieces_pushBindList ((statement.pushBind value).push ", ") (next :: rest)
      rw [pushBindList, hrest, pieces_push, pieces_pushBind]
      simp

/-- The text is that of the pieces. -/
theorem map_part_pieces (statement : Statement) :
    statement.pieces.map Piece.part = statement.parts := by
  rcases statement with ⟨parts, values, h⟩
  show (weave parts values).map Piece.part = parts
  induction parts generalizing values with
  | nil => rfl
  | cons part rest ih =>
      cases part with
      | text sql =>
          rw [SqlPart.marks_text] at h
          simp only [weave, List.map_cons, Piece.part, ih values h]
      | mark =>
          rw [SqlPart.marks_mark] at h
          cases values with
          | nil => cases h
          | cons value values =>
              simp only [weave, List.map_cons, Piece.part, ih values (Nat.succ.inj h)]

/-- The values are those of the pieces. -/
theorem filterMap_value?_pieces (statement : Statement) :
    statement.pieces.filterMap Piece.value? = statement.arguments := by
  rcases statement with ⟨parts, values, h⟩
  show (weave parts values).filterMap Piece.value? = values
  induction parts generalizing values with
  | nil => exact (List.eq_nil_of_length_eq_zero h.symm).symm
  | cons part rest ih =>
      cases part with
      | text sql =>
          rw [SqlPart.marks_text] at h
          exact ih values h
      | mark =>
          rw [SqlPart.marks_mark] at h
          cases values with
          | nil => cases h
          | cons value values => exact congrArg (value :: ·) (ih values (Nat.succ.inj h))

/-- The statement that has these pieces. -/
def ofPieces (pieces : List Piece) : Statement where
  parts := pieces.map Piece.part
  arguments := pieces.filterMap Piece.value?
  balanced := by
    induction pieces with
    | nil => rfl
    | cons piece rest ih => cases piece <;> simp [List.filterMap_cons, Piece.part, Piece.value?, ih]

/-- A statement is nothing but its pieces. -/
theorem ofPieces_pieces (statement : Statement) : ofPieces statement.pieces = statement :=
  Statement.ext statement.map_part_pieces statement.filterMap_value?_pieces

/-! ## Texts between marks -/

/-- The text in front of the first mark, and the texts behind each. -/
def gapsOf : List SqlPart → String × List String
  | [] => ("", [])
  | .text sql :: rest => (sql ++ (gapsOf rest).1, (gapsOf rest).2)
  | .mark :: rest => ("", (gapsOf rest).1 :: (gapsOf rest).2)

def gaps (statement : Statement) : String × List String :=
  gapsOf statement.parts

/-- Texts with something written in each gap between them. -/
def fill (gaps : String × List String) (written : List String) : String :=
  gaps.1 ++ String.join (List.zipWith (· ++ ·) written gaps.2)

theorem length_gapsOf (parts : List SqlPart) : (gapsOf parts).2.length = SqlPart.marks parts := by
  induction parts with
  | nil => rfl
  | cons part rest ih => cases part <;> simpa [gapsOf] using ih

theorem length_gaps (statement : Statement) : statement.gaps.2.length = statement.marks :=
  length_gapsOf statement.parts

theorem partsSql_eq (dialect : Dialect) (parts : List SqlPart) (next : Nat) :
    partsSql dialect next parts =
      fill (gapsOf parts) ((List.range' next (SqlPart.marks parts)).map dialect.placeholder) := by
  induction parts generalizing next with
  | nil => rfl
  | cons part rest ih =>
      cases part with
      | text sql => rw [partsSql, ih, SqlPart.marks_text, fill, fill, gapsOf, String.append_assoc]
      | mark =>
          rw [partsSql, ih, SqlPart.marks_mark, List.range'_succ]
          simp [fill, gapsOf, String.append_assoc]

/-- In every dialect the same texts are parted by its marks, numbered from one on. -/
theorem sql_eq (statement : Statement) (dialect : Dialect) :
    statement.sql dialect =
      fill statement.gaps ((List.range' 1 statement.marks).map dialect.placeholder) :=
  partsSql_eq dialect statement.parts 1

/-! ## Texts kept as one -/

/-- What stands behind the same parts only matters for the texts that it leaves. -/
theorem gapsOf_append_congr (front : List SqlPart) {back other : List SqlPart}
    (h : gapsOf back = gapsOf other) : gapsOf (front ++ back) = gapsOf (front ++ other) := by
  induction front with
  | nil => exact h
  | cons part rest ih => cases part <;> simp only [List.cons_append, gapsOf, ih]

end Statement

namespace SqlPart

/-- Adds a part, keeping texts that follow one another as one text and none that is empty. -/
def add (parts : List SqlPart) : SqlPart → List SqlPart
  | .mark => parts ++ [.mark]
  | .text sql =>
    if sql = "" then parts
    else
      match parts.getLast? with
      | some (.text last) => parts.dropLast ++ [.text (last ++ sql)]
      | _ => parts ++ [.text sql]

theorem add_empty (parts : List SqlPart) : add parts (.text "") = parts := by
  simp [add]

theorem add_concat_text (front : List SqlPart) (last : String) {sql : String} (h : sql ≠ "") :
    add (front ++ [.text last]) (.text sql) = front ++ [.text (last ++ sql)] := by
  simp [add, h]

/-- A text goes on with the last one, or is a part of its own where none is last. -/
theorem concat_text_or_add (parts : List SqlPart) :
    (∃ front last, parts = front ++ [.text last]) ∨
      ∀ sql, sql ≠ "" → add parts (.text sql) = parts ++ [.text sql] := by
  by_cases hlast : ∃ last, parts.getLast? = some (.text last)
  · rcases hlast with ⟨last, hlast⟩
    rcases List.getLast?_eq_some_iff.1 hlast with ⟨front, hparts⟩
    exact .inl ⟨front, last, hparts⟩
  · refine .inr fun sql hsql => ?_
    rw [add, if_neg hsql]
    split
    · exact absurd ⟨_, ‹_›⟩ hlast
    · rfl

/-- Texts that are added one after the other are added as one. -/
theorem add_add (parts : List SqlPart) (first second : String) :
    add (add parts (.text first)) (.text second) = add parts (.text (first ++ second)) := by
  by_cases hfirst : first = ""
  · rw [hfirst, add_empty, String.empty_append]
  by_cases hsecond : second = ""
  · rw [hsecond, add_empty, String.append_empty]
  have hboth : first ++ second ≠ "" := by simp [hfirst]
  rcases concat_text_or_add parts with ⟨front, last, rfl⟩ | hadd
  · rw [add_concat_text _ _ hfirst, add_concat_text _ _ hsecond, add_concat_text _ _ hboth,
      String.append_assoc]
  · rw [hadd _ hfirst, add_concat_text _ _ hsecond, hadd _ hboth]

theorem foldl_add_add (parts later : List SqlPart) (part : SqlPart) :
    (add later part).foldl add parts = add (later.foldl add parts) part := by
  cases part with
  | mark => exact List.foldl_concat _ _ _ _
  | text sql =>
      by_cases hsql : sql = ""
      · rw [hsql, add_empty, add_empty]
      rcases concat_text_or_add later with ⟨front, last, rfl⟩ | hadd
      · -- the longer text is added at once, or its two halves one after the other
        rw [add_concat_text _ _ hsql, List.foldl_concat, List.foldl_concat, add_add]
      · rw [hadd _ hsql, List.foldl_concat]

/-- Parts are added alike, whether their own texts are kept as one before or not. -/
theorem foldl_add_foldl_add (parts later : List SqlPart) :
    (later.foldl add []).foldl add parts = later.foldl add parts := by
  -- from the end, where the last part may go on with the text in front of it
  induction later using List.reverseRecOn with
  | nil => rfl
  | append_singleton front part ih =>
      rw [List.foldl_concat, foldl_add_add, ih, List.foldl_concat]

theorem gapsOf_add (parts : List SqlPart) (part : SqlPart) (rest : List SqlPart) :
    Statement.gapsOf (add parts part ++ rest) = Statement.gapsOf (parts ++ part :: rest) := by
  cases part with
  | mark => rw [add, List.append_assoc, List.singleton_append]
  | text sql =>
      by_cases hsql : sql = ""
      · rw [hsql, add_empty]
        exact Statement.gapsOf_append_congr parts (by simp [Statement.gapsOf])
      rcases concat_text_or_add parts with ⟨front, last, rfl⟩ | hadd
      · rw [add_concat_text _ _ hsql, List.append_assoc, List.append_assoc]
        exact Statement.gapsOf_append_congr front
          (by simp [Statement.gapsOf, String.append_assoc])
      · rw [hadd _ hsql, List.append_assoc, List.singleton_append]

theorem gapsOf_foldl_add (parts later : List SqlPart) :
    Statement.gapsOf (later.foldl add parts) = Statement.gapsOf (parts ++ later) := by
  induction later generalizing parts with
  | nil => rw [List.foldl_nil, List.append_nil]
  | cons part rest ih => rw [List.foldl_cons, ih, gapsOf_add]

end SqlPart

namespace Statement

/-- The parts, where texts that follow one another are kept as one text and none is empty. -/
def kept (statement : Statement) : List SqlPart :=
  statement.parts.foldl SqlPart.add []

theorem kept_push (statement : Statement) (sql : String) :
    (statement.push sql).kept = SqlPart.add statement.kept (.text sql) :=
  List.foldl_concat _ _ _ _

theorem kept_pushBind (statement : Statement) (value : BindValue) :
    (statement.pushBind value).kept = SqlPart.add statement.kept .mark :=
  List.foldl_concat _ _ _ _

theorem kept_append (a b : Statement) : (a ++ b).kept = b.kept.foldl SqlPart.add a.kept := by
  rw [kept, parts_append, List.foldl_append, kept, kept, SqlPart.foldl_add_foldl_add]

/-- The same texts stand between the marks. -/
theorem gapsOf_kept (statement : Statement) : gapsOf statement.kept = statement.gaps :=
  SqlPart.gapsOf_foldl_add [] statement.parts

theorem marks_kept (statement : Statement) : SqlPart.marks statement.kept = statement.marks := by
  rw [← length_gapsOf, gapsOf_kept, length_gaps]

/-- A statement is written alike, whether its texts are kept as one or not. -/
theorem sql_kept (statement : Statement) (dialect : Dialect) :
    partsSql dialect 1 statement.kept = statement.sql dialect := by
  rw [partsSql_eq, gapsOf_kept, marks_kept, sql_eq]

/-! ## Values in place of marks -/

/-- The text with each value written out where its mark stands. -/
def inPlace (literal : BindValue → String) (statement : Statement) : String :=
  fill statement.gaps (statement.arguments.map literal)

variable (literal : BindValue → String)

theorem inPlace_eq (statement : Statement) :
    statement.inPlace literal = String.join (statement.pieces.map (·.inPlace literal)) := by
  rcases statement with ⟨parts, values, h⟩
  show fill (gapsOf parts) (values.map literal) =
    String.join ((weave parts values).map (·.inPlace literal))
  clear h
  induction parts generalizing values with
  | nil => simp [gapsOf, fill, weave]
  | cons part rest ih =>
      cases part with
      | text sql =>
          rw [weave, List.map_cons, String.join_cons, ← ih]
          simp [gapsOf, fill, Piece.inPlace, String.append_assoc]
      | mark =>
          cases values with
          | nil => simp [gapsOf, fill, weave]
          | cons value values =>
              rw [weave, List.map_cons, List.map_cons, String.join_cons, ← ih]
              simp [gapsOf, fill, Piece.inPlace, String.append_assoc]

@[simp] theorem inPlace_append (a b : Statement) :
    (a ++ b).inPlace literal = a.inPlace literal ++ b.inPlace literal := by
  simp [inPlace_eq]

@[simp] theorem inPlace_empty : empty.inPlace literal = "" := rfl

@[simp] theorem inPlace_ofText (sql : String) : (ofText sql).inPlace literal = sql := by
  simp [inPlace_eq, Piece.inPlace]

@[simp] theorem inPlace_ofValue (value : BindValue) :
    (ofValue value).inPlace literal = literal value := by
  simp [inPlace_eq, Piece.inPlace]

end Statement

end FieldQuery
