import FieldQuery.Proofs.Cache.Renderings
import FieldQuery.Proofs.Database.Requests

/-!
# Keys of reads

A key is the hash of a text that SQL and values can be read off.  So two reads have one key just if
they send the same SQL with values that are rendered alike, or else their texts are two that the
hash does not tell apart.

Main definition:

- `Blake3.Collision`: two texts whose bytes differ and have one hash.

Main statement: `Read.key_eq_iff`.
-/

namespace FieldQuery

namespace Blake3

/-- Two texts whose bytes differ and have one hash. -/
def Collision (text other : String) : Prop :=
  Text.utf8 text ≠ Text.utf8 other ∧ hash (Text.utf8 text) = hash (Text.utf8 other)

theorem hexByte_inj {b b' : UInt8} (h : Text.hexByte b = Text.hexByte b') : b = b' := by
  have hdigits : ∀ d < 16, ∀ d' < 16, Nat.digitChar d = Nat.digitChar d' → d = d' := by
    decide
  rcases List.cons.inj h with ⟨hhigh, hlow⟩
  have hsmall (b : UInt8) : b.toNat / 16 < 16 := by
    have := b.toNat_lt
    omega
  have hhigh := hdigits _ (hsmall b) _ (hsmall b') hhigh
  have hlow := hdigits _ (Nat.mod_lt _ (by decide)) _ (Nat.mod_lt _ (by decide))
    (List.cons.inj hlow).1
  refine UInt8.toNat_inj.1 ?_
  omega

theorem hexBytes_inj : ∀ {bytes others : List UInt8},
    bytes.flatMap Text.hexByte = others.flatMap Text.hexByte → bytes = others
  | [], [], _ => rfl
  | [], _ :: _, h => by cases h
  | _ :: _, [], h => by cases h
  | byte :: bytes, other :: others, h => by
      rw [List.flatMap_cons, List.flatMap_cons] at h
      rcases List.append_inj h rfl with ⟨hbyte, hbytes⟩
      rw [hexByte_inj hbyte, hexBytes_inj hbytes]

/-- The bytes of an array from an index on. -/
theorem toList_loop (bytes : ByteArray) (index : Nat) (read : List UInt8) :
    ByteArray.toList.loop bytes index read = read.reverse ++ bytes.data.toList.drop index := by
  fun_induction ByteArray.toList.loop bytes index read with
  | case1 index read hlt ih =>
      have hbound : index < bytes.data.toList.length := by
        simpa only [Array.length_toList, ByteArray.size_data] using hlt
      have hbyte : bytes.get! index = bytes.data.toList[index] := by
        rcases bytes with ⟨data⟩
        exact getElem!_pos data index hlt
      rw [ih, hbyte, List.reverse_cons, List.append_assoc, List.drop_eq_getElem_cons hbound]
      rfl
  | case2 index read hge =>
      have hend : bytes.data.toList.length ≤ index := by
        simpa only [Array.length_toList, ByteArray.size_data, not_lt] using hge
      rw [List.drop_of_length_le hend, List.append_nil]

theorem utf8_inj {text other : String} (h : Text.utf8 text = Text.utf8 other) : text = other := by
  have hlist (bytes : ByteArray) : bytes.toList = bytes.data.toList := by
    rw [ByteArray.toList, toList_loop]
    rfl
  rw [Text.utf8, Text.utf8, hlist, hlist] at h
  have hbytes : text.toUTF8 = other.toUTF8 := ByteArray.ext (Array.toList_inj.1 h)
  exact String.toByteArray_inj.1 hbytes

/-- Texts with one hash are the same, or a collision. -/
theorem hex_eq_iff {text other : String} :
    hex text = hex other ↔ text = other ∨ Collision text other := by
  constructor
  · intro h
    have hhash : hash (Text.utf8 text) = hash (Text.utf8 other) :=
      hexBytes_inj (String.ofList_inj.1 h)
    by_cases hsame : text = other
    · exact .inl hsame
    · exact .inr ⟨fun hbytes => hsame (utf8_inj hbytes), hhash⟩
  · rintro (rfl | ⟨-, hhash⟩)
    · rfl
    · exact congrArg (fun bytes => String.ofList (bytes.flatMap Text.hexByte)) hhash

end Blake3

/-- Values that are rendered alike, one by one. -/
def BindValue.SameRenderings : List BindValue → List BindValue → Prop :=
  List.Forall₂ fun value other => value.rendering = other.rendering

theorem BindValue.sameRenderings_iff {values others : List BindValue} :
    SameRenderings values others ↔ values.map (·.rendering) = others.map (·.rendering) := by
  rw [← List.forall₂_eq_eq_eq, List.forall₂_map_left_iff, List.forall₂_map_right_iff]
  rfl

/-- SQL and renderings can be read off the text that a key is made of, so two reads have one key
just if they send the same SQL with values that are rendered alike, or their texts are a collision
of the hash. -/
theorem Read.key_eq_iff :
    (∀ sql sql' arguments arguments', Cache.keyText sql arguments = Cache.keyText sql' arguments' ↔
      sql = sql' ∧ BindValue.SameRenderings arguments arguments') ∧
    ∀ read other : Read, read.key = other.key ↔
      (read.sql = other.sql ∧ BindValue.SameRenderings read.arguments other.arguments) ∨
        Blake3.Collision (Cache.keyText read.sql read.arguments)
          (Cache.keyText other.sql other.arguments) := by
  have htext : ∀ sql sql' arguments arguments',
      Cache.keyText sql arguments = Cache.keyText sql' arguments' ↔
        sql = sql' ∧ BindValue.SameRenderings arguments arguments' := by
    intro sql sql' arguments arguments'
    rw [Cache.keyText_inj, BindValue.sameRenderings_iff]
  refine ⟨htext, fun read other => ?_⟩
  rw [Read.key, Read.key, Cache.cacheKey, Cache.cacheKey, Blake3.hex_eq_iff, htext]

end FieldQuery
