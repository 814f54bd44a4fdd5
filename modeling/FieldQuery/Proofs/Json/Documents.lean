import FieldQuery.Json.Document
import FieldQuery.Proofs.Json.Lexemes

/-!
# Printed values

The lexemes of a printed value are those of its tree, and the reading machine builds that tree of
them, however deep it is.  Only the step from the tree to the value counts how deep arrays and
objects nest; within its bound the value is the one that was printed.

Main definitions:

- `Document.lexemes`: the lexemes of a tree.
- `Json.document`: the tree of a printed value.
- `Json.Storable`: values whose numbers are integers of 64 bits and whose members are in order.
- `Json.nesting`: how deep arrays and objects nest.

Main statements: `Document.ofText?_text` and `Document.toJson?_document`.
-/

namespace FieldQuery.Json

/-! ## Trees and their lexemes -/

namespace Document

mutual

/-- The lexemes of a tree. -/
def lexemes : Document → List Lexeme
  | .null => [.null]
  | .bool b => [.bool b]
  | .num n => [.num n]
  | .str s => [.str s]
  | .arr items => .openArray :: itemLexemes items
  | .obj members => .openObject :: memberLexemes members

def itemLexemes : List Document → List Lexeme
  | [] => [.closeArray]
  | [v] => lexemes v ++ [.closeArray]
  | v :: w :: rest => lexemes v ++ .comma :: itemLexemes (w :: rest)

def memberLexemes : List (List StringPart × Document) → List Lexeme
  | [] => [.closeObject]
  | [(k, v)] => .str k :: .colon :: lexemes v ++ [.closeObject]
  | (k, v) :: m :: rest => .str k :: .colon :: lexemes v ++ .comma :: memberLexemes (m :: rest)

end

/-- The machine behind lexemes. -/
def read? (reader : Reader) (lexemes : List Lexeme) : Option Reader :=
  lexemes.foldlM Reader.step reader

theorem read?_append (reader : Reader) (first second : List Lexeme) :
    read? reader (first ++ second) = (read? reader first).bind (read? · second) :=
  List.foldlM_append

theorem read?_cons (reader : Reader) (lexeme : Lexeme) (rest : List Lexeme) :
    read? reader (lexeme :: rest) = (reader.step lexeme).bind (read? · rest) :=
  List.foldlM_cons

mutual

/-- The machine takes the lexemes of a tree where a value is due, and then has that tree.  What it
has read of an array or object is on its stack, last first. -/
theorem read?_lexemes (stack : List Frame) (mayClose : Bool) : ∀ v : Document,
    read? ⟨stack, .value mayClose⟩ v.lexemes = some ⟨stack, .after v⟩
  | .null => rfl
  | .bool _ => rfl
  | .num _ => rfl
  | .str _ => rfl
  | .arr items => by
      rw [lexemes, read?_cons]
      exact read?_itemLexemes stack [] true items fun _ => ⟨rfl, rfl⟩
  | .obj members => by
      rw [lexemes, read?_cons]
      exact read?_memberLexemes stack [] true members fun _ => ⟨rfl, rfl⟩

theorem read?_itemLexemes (stack : List Frame) (read : List Document) (mayClose : Bool) :
    ∀ items : List Document, (items = [] → read = [] ∧ mayClose = true) →
      read? ⟨.array read :: stack, .value mayClose⟩ (itemLexemes items) =
        some ⟨stack, .after (.arr (read.reverse ++ items))⟩
  | [], h => by
      rcases h rfl with ⟨rfl, rfl⟩
      rfl
  | [v], _ => by
      rw [itemLexemes, read?_append, read?_lexemes _ _ v]
      show some (Reader.mk stack (.after (.arr (v :: read).reverse))) = _
      rw [List.reverse_cons]
  | v :: w :: rest, _ => by
      rw [itemLexemes, read?_append, read?_lexemes _ _ v]
      have hrest := read?_itemLexemes stack (v :: read) false (w :: rest) nofun
      rw [List.reverse_cons, List.append_assoc] at hrest
      exact hrest

theorem read?_memberLexemes (stack : List Frame) (read : List (List StringPart × Document))
    (mayClose : Bool) : ∀ members : List (List StringPart × Document),
      (members = [] → read = [] ∧ mayClose = true) →
        read? ⟨stack, .key read mayClose⟩ (memberLexemes members) =
          some ⟨stack, .after (.obj (read.reverse ++ members))⟩
  | [], h => by
      rcases h rfl with ⟨rfl, rfl⟩
      rfl
  | [(k, v)], _ => by
      rw [memberLexemes]
      show read? ⟨.object read k :: stack, .value false⟩ (lexemes v ++ [.closeObject]) = _
      rw [read?_append, read?_lexemes _ _ v]
      show some (Reader.mk stack (.after (.obj ((k, v) :: read).reverse))) = _
      rw [List.reverse_cons]
  | (k, v) :: m :: rest, _ => by
      rw [memberLexemes]
      show read? ⟨.object read k :: stack, .value false⟩
        (lexemes v ++ .comma :: memberLexemes (m :: rest)) = _
      rw [read?_append, read?_lexemes _ _ v]
      have hrest := read?_memberLexemes stack ((k, v) :: read) false (m :: rest) nofun
      rw [List.reverse_cons, List.append_assoc] at hrest
      exact hrest

end

theorem ofLexemes?_lexemes (v : Document) : ofLexemes? v.lexemes = some v := by
  unfold ofLexemes?
  have hread := read?_lexemes [] false v
  unfold read? at hread
  rw [hread]
  rfl

end Document

/-! ## Trees of values -/

/-- What a string is read as. -/
def stringParts (s : String) : List StringPart :=
  s.toList.map partOf

theorem decode?_stringParts (s : String) : decode? (stringParts s) = some s :=
  decode?_parts s

mutual

/-- The tree of a printed value.  Numbers that are no integers have their literals read off their
texts. -/
def document : Json → Document
  | .null => .null
  | .bool b => .bool b
  | .num (.int i) => .num (Number.literal i)
  | .num (.float x) =>
    match NumberLiteral.ofChars? (Number.float x).text.toList with
    | some literal => .num literal
    | none => .null
  | .str s => .str (stringParts s)
  | .arr items => .arr (itemDocuments items)
  | .obj members => .obj (memberDocuments members)

def itemDocuments : List Json → List Document
  | [] => []
  | v :: rest => document v :: itemDocuments rest

def memberDocuments : List (String × Json) → List (List StringPart × Document)
  | [] => []
  | (k, v) :: rest => (stringParts k, document v) :: memberDocuments rest

end

mutual

/-- Values whose numbers are integers of 64 bits.  Objects have their members in increasing order of
the keys, as inserting keeps them. -/
def Storable : Json → Prop
  | .num (.int i) => Number.Fits i
  | .num (.float _) => False
  | .arr items => ItemsStorable items
  | .obj members => members.Pairwise (·.1 < ·.1) ∧ MembersStorable members
  | _ => True

def ItemsStorable : List Json → Prop
  | [] => True
  | v :: rest => Storable v ∧ ItemsStorable rest

def MembersStorable : List (String × Json) → Prop
  | [] => True
  | (_, v) :: rest => Storable v ∧ MembersStorable rest

end

mutual

/-- How deep arrays and objects nest. -/
def nesting : Json → Nat
  | .arr items => itemsNesting items + 1
  | .obj members => membersNesting members + 1
  | _ => 0

def itemsNesting : List Json → Nat
  | [] => 0
  | v :: rest => max (nesting v) (itemsNesting rest)

def membersNesting : List (String × Json) → Nat
  | [] => 0
  | (_, v) :: rest => max (nesting v) (membersNesting rest)

end

/-! ## Lexemes of printed values -/

mutual

theorem lex?_chars {rest : List Char} (hrest : Breaks rest) : ∀ v : Json, v.Storable →
    lex? .between (v.chars ++ rest) = (lex? .between rest).map (v.document.lexemes ++ ·)
  | .null, _ => by
      rw [chars, document, Document.lexemes]
      exact lex?_word (by decide) (by decide) hrest
  | .bool true, _ => by
      rw [chars, document, Document.lexemes]
      exact lex?_word (by decide) (by decide) hrest
  | .bool false, _ => by
      rw [chars, document, Document.lexemes]
      exact lex?_word (by decide) (by decide) hrest
  | .num (.int i), _ => by
      rw [chars, document, Document.lexemes]
      exact lex?_int i hrest
  | .num (.float _), h => h.elim
  | .str s, _ => by
      rw [chars, document, Document.lexemes]
      exact lex?_string s rest
  | .arr items, h => by
      rw [chars, document, Document.lexemes]
      show lex? .between ('[' :: (itemChars items ++ rest)) = _
      rw [lex?_punctuation (by decide) rfl, lex?_itemChars rest items h, Option.map_map]
      rfl
  | .obj members, h => by
      rw [chars, document, Document.lexemes]
      show lex? .between ('\x7b' :: (memberChars members ++ rest)) = _
      rw [lex?_punctuation (by decide) rfl, lex?_memberChars rest members h.2, Option.map_map]
      rfl

theorem lex?_itemChars (rest : List Char) : ∀ items : List Json, ItemsStorable items →
    lex? .between (itemChars items ++ rest) =
      (lex? .between rest).map (Document.itemLexemes (itemDocuments items) ++ ·)
  | [], _ => by
      rw [itemChars, itemDocuments, Document.itemLexemes]
      exact lex?_punctuation (by decide) rfl rest
  | [v], h => by
      have hchars : itemChars [v] ++ rest = v.chars ++ ']' :: rest := by
        rw [itemChars, List.append_assoc, List.singleton_append]
      rw [hchars, lex?_chars (.cons rest (by decide)) v h.1, lex?_punctuation (by decide) rfl,
        Option.map_map, itemDocuments, itemDocuments, Document.itemLexemes]
      exact congrArg (Option.map · _) (funext fun tail => (List.append_assoc _ [_] tail).symm)
  | v :: w :: others, h => by
      have hchars : itemChars (v :: w :: others) ++ rest =
          v.chars ++ ',' :: (itemChars (w :: others) ++ rest) := by
        rw [itemChars, List.append_assoc, List.cons_append]
      have hlexemes : Document.itemLexemes (itemDocuments (v :: w :: others)) =
          v.document.lexemes ++ .comma :: Document.itemLexemes (itemDocuments (w :: others)) := by
        rw [itemDocuments, itemDocuments, Document.itemLexemes]
      rw [hchars, lex?_chars (.cons _ (by decide)) v h.1, lex?_punctuation (by decide) rfl,
        lex?_itemChars rest (w :: others) h.2, Option.map_map, Option.map_map, hlexemes]
      exact congrArg (Option.map · _) (funext fun tail => (List.append_assoc _ (_ :: _) tail).symm)

theorem lex?_memberChars (rest : List Char) : ∀ members : List (String × Json),
    MembersStorable members →
      lex? .between (memberChars members ++ rest) =
        (lex? .between rest).map (Document.memberLexemes (memberDocuments members) ++ ·)
  | [], _ => by
      rw [memberChars, memberDocuments, Document.memberLexemes]
      exact lex?_punctuation (by decide) rfl rest
  | [(k, v)], h => by
      have hchars : memberChars [(k, v)] ++ rest =
          stringChars k ++ ':' :: (v.chars ++ '\x7d' :: rest) := by
        rw [memberChars]
        simp only [List.append_assoc, List.cons_append, List.nil_append]
      have hlexemes : Document.memberLexemes (memberDocuments [(k, v)]) =
          .str (stringParts k) :: .colon :: (v.document.lexemes ++ [.closeObject]) := by
        rw [memberDocuments, memberDocuments, Document.memberLexemes]
        rfl
      rw [hchars, lex?_string, lex?_punctuation (by decide) rfl,
        lex?_chars (.cons rest (by decide)) v h.1, lex?_punctuation (by decide) rfl,
        Option.map_map, Option.map_map, Option.map_map, hlexemes]
      refine congrArg (Option.map · _) (funext fun tail => ?_)
      rw [List.cons_append, List.cons_append, List.append_assoc]
      rfl
  | (k, v) :: m :: others, h => by
      have hchars : memberChars ((k, v) :: m :: others) ++ rest =
          stringChars k ++ ':' :: (v.chars ++ ',' :: (memberChars (m :: others) ++ rest)) := by
        rw [memberChars]
        simp only [List.append_assoc, List.cons_append]
      have hlexemes : Document.memberLexemes (memberDocuments ((k, v) :: m :: others)) =
          .str (stringParts k) :: .colon :: (v.document.lexemes ++
            .comma :: Document.memberLexemes (memberDocuments (m :: others))) := by
        rw [memberDocuments, memberDocuments, Document.memberLexemes]
        rfl
      rw [hchars, lex?_string, lex?_punctuation (by decide) rfl,
        lex?_chars (.cons _ (by decide)) v h.1, lex?_punctuation (by decide) rfl,
        lex?_memberChars rest (m :: others) h.2, Option.map_map, Option.map_map, Option.map_map,
        Option.map_map, hlexemes]
      refine congrArg (Option.map · _) (funext fun tail => ?_)
      rw [List.cons_append, List.cons_append, List.append_assoc, List.cons_append]
      rfl

end

/-- A printed value is read as its tree. -/
theorem Document.ofText?_text {v : Json} (h : v.Storable) :
    Document.ofText? v.text = some v.document := by
  have hlexemes : Lexeme.ofText? v.text = some v.document.lexemes := by
    have hlex := lex?_chars .nil v h
    rw [List.append_nil] at hlex
    show lex? .between (String.ofList v.chars).toList = _
    rw [String.toList_ofList, hlex]
    exact congrArg some (List.append_nil _)
  unfold Document.ofText?
  rw [hlexemes]
  exact Document.ofLexemes?_lexemes v.document

/-! ## Values of trees -/

/-- Members are put behind those with smaller keys. -/
theorem Members.insert_of_forall_lt (key : String) (value : Json) :
    ∀ members : Members, (∀ m ∈ members, m.1 < key) →
      Members.insert key value members = members ++ [(key, value)]
  | [], _ => rfl
  | (k, v) :: rest, h => by
      have hlt : k < key := h _ List.mem_cons_self
      have hne : (key == k) = false := beq_false_of_ne (String.ne_of_lt hlt).symm
      rw [Members.insert, if_neg (String.lt_asymm hlt), hne, if_neg Bool.false_ne_true,
        insert_of_forall_lt key value rest fun m hm => h m (List.mem_cons_of_mem _ hm)]
      rfl

theorem Members.foldl_insert (front : Members) :
    ∀ back : Members, (front ++ back).Pairwise (·.1 < ·.1) →
      back.foldl (fun members (key, value) => Members.insert key value members) front =
        front ++ back
  | [], _ => (List.append_nil front).symm
  | (k, v) :: back, h => by
      have hbefore : ∀ m ∈ front, m.1 < k := fun m hm =>
        (List.pairwise_append.1 h).2.2 m hm (k, v) List.mem_cons_self
      have hassoc : front ++ (k, v) :: back = (front ++ [(k, v)]) ++ back := by
        rw [List.append_assoc, List.singleton_append]
      show back.foldl _ (Members.insert k v front) = _
      rw [Members.insert_of_forall_lt k v front hbefore, hassoc]
      exact foldl_insert (front ++ [(k, v)]) back (hassoc ▸ h)

/-- Members in order are those of their own list. -/
theorem Members.ofList_of_pairwise {members : Members} (h : members.Pairwise (·.1 < ·.1)) :
    Members.ofList members = members :=
  Members.foldl_insert [] members h

/-- Two values that are there on conditions are both there on both. -/
theorem bind_ite_ite {α β γ : Type} (p q : Prop) [Decidable p] [Decidable q] (a : α) (b : β)
    (f : α → β → γ) :
    ((if p then some a else none).bind fun x => (if q then some b else none).bind fun y =>
      some (f x y)) = if p ∧ q then some (f a b) else none := by
  by_cases hp : p
  · by_cases hq : q
    · simp [hp, hq]
    · simp [hp, hq]
  · simp [hp]

mutual

/-- A tree has the value that was printed, unless arrays and objects nest too deep. -/
theorem Document.toJson?_document (depth : Nat) : ∀ v : Json, v.Storable →
    v.document.toJson? depth = if v.nesting ≤ depth then some v else none
  | .null, _ => by simp [document, Document.toJson?, nesting]
  | .bool b, _ => by simp [document, Document.toJson?, nesting]
  | .num (.int i), h => by
      have hread : Number.ofLiteral? (Number.literal i) = some (.int i) :=
        Number.ofLiteral?_literal h
      simp [document, Document.toJson?, nesting, hread]
  | .num (.float _), h => h.elim
  | .str s, _ => by
      simp [document, Document.toJson?, nesting, decode?_stringParts]
  | .arr items, h => by
      cases depth with
      | zero => simp [document, Document.toJson?, nesting]
      | succ depth =>
          rw [document, Document.toJson?, nesting, Document.itemsToJson?_document depth items h,
            apply_ite (Option.map Json.arr)]
          simp only [Nat.add_le_add_iff_right, Option.map_some, Option.map_none]
  | .obj members, h => by
      cases depth with
      | zero => simp [document, Document.toJson?, nesting]
      | succ depth =>
          have hself : ofPairs members = .obj members :=
            congrArg Json.obj (Members.ofList_of_pairwise h.1)
          rw [document, Document.toJson?, nesting,
            Document.membersToJson?_document depth members h.2, apply_ite (Option.map ofPairs)]
          simp only [Nat.add_le_add_iff_right, Option.map_some, Option.map_none, hself]

theorem Document.itemsToJson?_document (depth : Nat) : ∀ items : List Json, ItemsStorable items →
    Document.itemsToJson? depth (itemDocuments items) =
      if itemsNesting items ≤ depth then some items else none
  | [], _ => by simp [itemDocuments, Document.itemsToJson?, itemsNesting]
  | v :: rest, h => by
      rw [itemDocuments, Document.itemsToJson?, Document.toJson?_document depth v h.1,
        Document.itemsToJson?_document depth rest h.2, itemsNesting]
      simp only [Nat.max_le]
      exact bind_ite_ite _ _ v rest List.cons

theorem Document.membersToJson?_document (depth : Nat) :
    ∀ members : List (String × Json), MembersStorable members →
      Document.membersToJson? depth (memberDocuments members) =
        if membersNesting members ≤ depth then some members else none
  | [], _ => by simp [memberDocuments, Document.membersToJson?, membersNesting]
  | (k, v) :: rest, h => by
      rw [memberDocuments, Document.membersToJson?, decode?_stringParts,
        Document.toJson?_document depth v h.1, Document.membersToJson?_document depth rest h.2,
        membersNesting]
      simp only [Nat.max_le]
      exact bind_ite_ite _ _ v rest fun v rest => (k, v) :: rest

end

end FieldQuery.Json
