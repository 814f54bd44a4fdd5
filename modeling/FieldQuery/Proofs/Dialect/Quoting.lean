import FieldQuery.Dialect
import FieldQuery.Proofs.Cache.Registry

/-!
# Quoted identifiers

A database reads a quoted identifier up to the first quote character that stands alone, and takes
two of them in a row for one.  What it reads so is just what was quoted: no character of an
identifier ends it early, and none of what follows is taken in.  So a qualified name can be taken
apart at its dot, and tables are told apart by their quoted names.

Main definitions:

- `Dialect.readQuoted`: a quoted identifier in front of a text, and the rest of the text.
- `Dialect.shipped`: the dialects with their quote characters.

Main statements: `Dialect.readQuoted_eq_some`, `Dialect.quotedTable_inj` and
`Dialect.identifiers_read_back`.
-/

namespace FieldQuery.Dialect

/-! ## Reading -/

/-- The characters in front of the first quote character that stands alone, and those behind it. -/
def readBody (mark : Char) : List Char → Option (List Char × List Char)
  | [] => none
  | [c] => if c = mark then some ([], []) else none
  | c :: d :: rest =>
    if c = mark then
      if d = mark then (readBody mark rest).map fun (front, back) => (mark :: front, back)
      else some ([], d :: rest)
    else (readBody mark (d :: rest)).map fun (front, back) => (c :: front, back)

/-- The quoted identifier in front of a text, and the rest of the text. -/
def readQuoted (mark : Char) (text : String) : Option (String × String) :=
  match text.toList with
  | [] => none
  | c :: rest =>
    if c = mark then
      (readBody mark rest).map fun (front, back) => (String.ofList front, String.ofList back)
    else none

section Reading

variable {mark c : Char} {front back rest : List Char}

theorem readBody_of_ne (h : c ≠ mark) (rest : List Char) :
    readBody mark (c :: rest) =
      (readBody mark rest).map fun (front, back) => (c :: front, back) := by
  cases rest with
  | nil => simp [readBody, h]
  | cons d rest => simp [readBody, h]

theorem readBody_pair (mark : Char) (rest : List Char) :
    readBody mark (mark :: mark :: rest) =
      (readBody mark rest).map fun (front, back) => (mark :: front, back) := by
  simp [readBody]

theorem readBody_lone (h : rest.head? ≠ some mark) :
    readBody mark (mark :: rest) = some ([], rest) := by
  cases rest with
  | nil => simp [readBody]
  | cons d rest =>
      have hne : d ≠ mark := by simpa using h
      simp [readBody, hne]

/-- Doubled quote characters are read as one each. -/
theorem readBody_doubled (h : rest.head? ≠ some mark) (front : List Char) :
    readBody mark (front.flatMap (doubled mark) ++ mark :: rest) = some (front, rest) := by
  induction front with
  | nil => exact readBody_lone h
  | cons c front ih =>
      by_cases hc : c = mark
      · have hpair : (c :: front).flatMap (doubled mark) ++ mark :: rest =
            mark :: mark :: (front.flatMap (doubled mark) ++ mark :: rest) := by
          simp [doubled, hc]
        rw [hpair, readBody_pair, ih, hc]
        rfl
      · have hplain : (c :: front).flatMap (doubled mark) ++ mark :: rest =
            c :: (front.flatMap (doubled mark) ++ mark :: rest) := by
          simp [doubled, hc]
        rw [hplain, readBody_of_ne hc, ih]
        rfl

/-- Nothing else is read. -/
theorem eq_of_readBody {text : List Char} (h : readBody mark text = some (front, rest)) :
    text = front.flatMap (doubled mark) ++ mark :: rest ∧ rest.head? ≠ some mark := by
  fun_induction readBody mark text generalizing front with
  | case1 => cases h
  | case2 =>
      cases h
      exact ⟨rfl, by simp⟩
  | case3 => cases h
  | case4 others ih =>
      rcases Option.map_eq_some_iff.1 h with ⟨⟨inside, behind⟩, hread, heq⟩
      cases heq
      rcases ih hread with ⟨rfl, hrest⟩
      exact ⟨by simp [doubled], hrest⟩
  | case5 d others hd =>
      cases h
      exact ⟨rfl, by simpa using hd⟩
  | case6 c d others hc ih =>
      rcases Option.map_eq_some_iff.1 h with ⟨⟨inside, behind⟩, hread, heq⟩
      cases heq
      rcases ih hread with ⟨htext, hrest⟩
      exact ⟨by simp [doubled, hc, htext], hrest⟩

theorem readQuoted_quoteWith {rest : String} (h : rest.toList.head? ≠ some mark)
    (identifier : String) :
    readQuoted mark (quoteWith mark identifier ++ rest) = some (identifier, rest) := by
  have htext : (quoteWith mark identifier ++ rest).toList =
      mark :: (identifier.toList.flatMap (doubled mark) ++ mark :: rest.toList) := by
    simp [quoteWith]
  simp [readQuoted, htext, readBody_doubled h]

/-- What is read is what was quoted, with a rest that does not go on with a quote character. -/
theorem readQuoted_eq_some {text identifier rest : String} :
    readQuoted mark text = some (identifier, rest) ↔
      text = quoteWith mark identifier ++ rest ∧ rest.toList.head? ≠ some mark := by
  constructor
  · intro h
    unfold readQuoted at h
    split at h
    · cases h
    · rename_i c behind htext
      split at h
      · rename_i hmark
        rcases Option.map_eq_some_iff.1 h with ⟨⟨front, back⟩, hread, heq⟩
        cases heq
        rcases eq_of_readBody hread with ⟨rfl, hback⟩
        refine ⟨String.toList_inj.1 ?_, by simpa using hback⟩
        simp [htext, hmark, quoteWith]
      · cases h
  · rintro ⟨rfl, hrest⟩
    exact readQuoted_quoteWith hrest identifier

/-- Quoted identifiers are told apart by what they quote. -/
theorem quoteWith_injective (mark : Char) : Function.Injective (quoteWith mark) := by
  intro first second h
  have hread : ∀ identifier,
      readQuoted mark (quoteWith mark identifier) = some (identifier, "") := by
    intro identifier
    simpa using @readQuoted_quoteWith mark "" (by simp) identifier
  have hboth := (hread first).symm.trans (h ▸ hread second)
  exact congrArg Prod.fst (Option.some.inj hboth)

end Reading

/-! ## Names of tables -/

theorem quotedTable_eq (dialect : Dialect) (schema : Option String) (table : String) :
    dialect.quotedTable schema table =
      if schema.getD "" = "" then dialect.quote table
      else dialect.quote (schema.getD "") ++ ("." ++ dialect.quote table) := by
  cases schema with
  | none => rfl
  | some schema => simp [quotedTable, String.append_assoc]

section Names

variable {dialect : Dialect} {mark : Char}

/-- A table's name is read up to the dot behind its schema, if it has one. -/
theorem readQuoted_quotedTable (hquote : dialect.quote = quoteWith mark) (hmark : mark ≠ '.')
    (schema : Option String) (table : String) :
    readQuoted mark (dialect.quotedTable schema table) =
      if schema.getD "" = "" then some (table, "")
      else some (schema.getD "", "." ++ dialect.quote table) := by
  rw [quotedTable_eq, hquote]
  split
  · simpa using @readQuoted_quoteWith mark "" (by simp) table
  · exact readQuoted_quoteWith (by simpa using Ne.symm hmark) _

/-- Tables of one quoted name are the same; an empty schema is none. -/
theorem quotedTable_inj (hquote : dialect.quote = quoteWith mark) (hmark : mark ≠ '.')
    {schema other : Option String} {table name : String} :
    dialect.quotedTable schema table = dialect.quotedTable other name ↔
      table = name ∧ schema.getD "" = other.getD "" := by
  constructor
  · intro h
    have hread := readQuoted_quotedTable hquote hmark schema table
    rw [h, readQuoted_quotedTable hquote hmark other name] at hread
    -- a name with a schema leaves a rest behind, and one without leaves none
    split at hread <;> split at hread
    · rename_i hother hschema
      simp only [Option.some.injEq, Prod.mk.injEq] at hread
      exact ⟨hread.1.symm, hschema.trans hother.symm⟩
    · simp at hread
    · simp at hread
    · simp only [Option.some.injEq, Prod.mk.injEq, String.append_right_inj] at hread
      have hsame : quoteWith mark name = quoteWith mark table := by simpa [hquote] using hread.2
      exact ⟨(quoteWith_injective mark hsame).symm, hread.1.symm⟩
  · rintro ⟨rfl, hschema⟩
    rw [quotedTable_eq, quotedTable_eq, hschema]

/-- A qualified name is no quoted identifier. -/
theorem quotedTable_eq_quote (hquote : dialect.quote = quoteWith mark) (hmark : mark ≠ '.')
    {schema : Option String} {table identifier : String} :
    dialect.quotedTable schema table = dialect.quote identifier ↔
      table = identifier ∧ schema.getD "" = "" :=
  @quotedTable_inj dialect mark hquote hmark schema none table identifier

end Names

/-! ## The dialects at hand -/

/-- The dialects with the characters that they quote with. -/
def shipped : List (Dialect × Char) :=
  [(postgres, '"'), (mysql, '\x60'), (sqlite, '"')]

theorem quote_shipped {dialect : Dialect} {mark : Char} (h : (dialect, mark) ∈ shipped) :
    dialect.quote = quoteWith mark ∧ mark ≠ '.' := by
  simp only [shipped, List.mem_cons, List.not_mem_nil, or_false, Prod.mk.injEq] at h
  rcases h with ⟨rfl, rfl⟩ | ⟨rfl, rfl⟩ | ⟨rfl, rfl⟩
  · exact ⟨rfl, by decide⟩
  · exact ⟨rfl, by decide⟩
  · exact ⟨rfl, by decide⟩

/-- Reading takes exactly what was quoted from the front of a text, whatever characters it has, and
leaves exactly what follows.  Tables have the same quoted name only if they are the same, where an
empty schema is none; so what is registered for one table is registered for no other. -/
theorem identifiers_read_back {dialect : Dialect} {mark : Char} (h : (dialect, mark) ∈ shipped) :
    (∀ text identifier rest : String, readQuoted mark text = some (identifier, rest) ↔
        text = dialect.quote identifier ++ rest ∧ rest.toList.head? ≠ some mark) ∧
      (∀ (schema other : Option String) (table name : String),
        dialect.quotedTable schema table = dialect.quotedTable other name ↔
          table = name ∧ schema.getD "" = other.getD "") ∧
      ∀ (registry : Cache.Registry) (schema other : Option String) (table name key : String),
        key ∈ (registry.register [dialect.quotedTable schema table] key).keys
            (dialect.quotedTable other name) ↔
          key ∈ registry.keys (dialect.quotedTable other name) ∨
            name = table ∧ other.getD "" = schema.getD "" := by
  rcases quote_shipped h with ⟨hquote, hmark⟩
  refine ⟨?_, ?_, ?_⟩
  · intro text identifier rest
    rw [hquote]
    exact readQuoted_eq_some
  · intro schema other table name
    exact quotedTable_inj hquote hmark
  · intro registry schema other table name key
    rw [Cache.Registry.mem_keys_register, List.mem_singleton, quotedTable_inj hquote hmark]
    simp only [true_and]

/-- An identifier with quote characters, at its end too, is read back in front of a dot; and a table
with a dot in its name is not one in a schema. -/
theorem identifiers_read_back_mysql :
    (mysql, '\x60') ∈ shipped ∧
      readQuoted '\x60' (mysql.quote "a\x60\x60.b\x60" ++ ".\x60c\x60") =
        some ("a\x60\x60.b\x60", ".\x60c\x60") ∧
      mysql.quotedTable (some "a") "b" ≠ mysql.quotedTable none "a\x60.\x60b" := by
  have hmem : (mysql, '\x60') ∈ shipped := List.mem_cons_of_mem _ List.mem_cons_self
  rcases identifiers_read_back hmem with ⟨hread, htables, -⟩
  refine ⟨hmem, (hread _ _ _).2 ⟨rfl, by decide⟩, fun hsame => ?_⟩
  exact absurd ((htables _ _ _ _).1 hsame).1 (by decide)

end FieldQuery.Dialect
