import CompliancePrimitives.Indexer.Delivery

/-!
# Decoding undoes the encoding of nested values

`Nested` are the values the decoder has a kind for, as the one who encodes them has them: texts are
texts and not bytes, and keys are symbols or strings. `Nested.val` is the value of the host, whose
XDR is the encoding, and `Nested.decoded` is what the indexer should make of it: the same value,
with addresses in rendered form and entries under the text of their key.

A value is `Representable` if its numbers and lengths fit into XDR, its texts do not start with a
byte order mark, and the keys of every map are distinct. What distinct means is a parameter. It
cannot be that the keys are different values: a symbol and a string of one text are, and the later
entry replaces the earlier one (`decodeScVal_clash`). With distinct **texts** the round trip holds
at every depth and every size, wherever the encoding stands (`decodeScVal_encoding`).
-/

namespace Indexer

open Encoding Soroban

/-! ### Nested values -/

/-- The key of a map entry. -/
inductive NestedKey where
  | symbol (text : String)
  | string (text : String)
  deriving DecidableEq

namespace NestedKey

def text : NestedKey → String
  | .symbol text => text
  | .string text => text

/-- The key of the host's map. -/
def mapKey : NestedKey → MapKey
  | .symbol text => .symbol text
  | .string text => .string (utf8 text)

end NestedKey

/-- A value of the kinds the decoder knows. -/
inductive Nested where
  | void
  | bool (value : Bool)
  | symbol (value : String)
  | string (value : String)
  | u32 (value : ℕ)
  | i128 (value : ℤ)
  | address (value : ScAddress)
  | vec (items : List Nested)
  | map (entries : List (NestedKey × Nested))

namespace Nested

mutual

/-- The value of the host. -/
def val : Nested → Val
  | .void => .void
  | .bool value => .bool value
  | .symbol value => .symbol value
  | .string value => .string (utf8 value)
  | .u32 value => .u32 value
  | .i128 value => .i128 value
  | .address value => .address value
  | .vec items => .vec (valItems items)
  | .map entries => .map (valEntries entries)

/-- The items of a vector. -/
def valItems : List Nested → List Val
  | [] => []
  | x :: items => x.val :: valItems items

/-- The entries of a map. -/
def valEntries : List (NestedKey × Nested) → List (MapKey × Val)
  | [] => []
  | (k, x) :: entries => (k.mapKey, x.val) :: valEntries entries

end

mutual

/-- The value as the indexer has it. -/
def decoded : Nested → ScVal
  | .void => .void
  | .bool value => .bool value
  | .symbol value => .symbol value
  | .string value => .string value
  | .u32 value => .u32 value
  | .i128 value => .i128 value
  | .address value => .address (rendered value)
  | .vec items => .vec (decodedItems items)
  | .map entries => .map (decodedEntries entries)

/-- The items of a vector. -/
def decodedItems : List Nested → List ScVal
  | [] => []
  | x :: items => x.decoded :: decodedItems items

/-- The entries of a map. -/
def decodedEntries : List (NestedKey × Nested) → List (String × ScVal)
  | [] => []
  | (k, x) :: entries => (k.text, x.decoded) :: decodedEntries entries

end

mutual

/-- **A value XDR has an encoding for**: numbers and lengths fit into their width, texts are
legible, and the keys of every map are distinct in the sense of `Distinct`. -/
def Representable (Distinct : List NestedKey → Prop) : Nested → Prop
  | .void => True
  | .bool _ => True
  | .symbol value => Legible value
  | .string value => Legible value
  | .u32 value => value < 2 ^ 32
  | .i128 value => -2 ^ 127 ≤ value ∧ value < 2 ^ 127
  | .address _ => True
  | .vec items => items.length < 2 ^ 32 ∧ RepresentableItems Distinct items
  | .map entries =>
    entries.length < 2 ^ 32 ∧ Distinct (entries.map Prod.fst) ∧
      RepresentableEntries Distinct entries

/-- The items of a vector. -/
def RepresentableItems (Distinct : List NestedKey → Prop) : List Nested → Prop
  | [] => True
  | x :: items => x.Representable Distinct ∧ RepresentableItems Distinct items

/-- The entries of a map. -/
def RepresentableEntries (Distinct : List NestedKey → Prop) : List (NestedKey × Nested) → Prop
  | [] => True
  | (k, x) :: entries =>
    Legible k.text ∧ x.Representable Distinct ∧ RepresentableEntries Distinct entries

end

/-- The encoding of a value. -/
def encoding (v : Nested) : Bytes := v.val.xdr

end Nested

/-- The keys are different values. -/
def DistinctKeys (keys : List NestedKey) : Prop := keys.Nodup

instance (keys : List NestedKey) : Decidable (DistinctKeys keys) :=
  inferInstanceAs (Decidable keys.Nodup)

/-- The keys have different texts. -/
def DistinctTexts (keys : List NestedKey) : Prop := (keys.map NestedKey.text).Nodup

instance (keys : List NestedKey) : Decidable (DistinctTexts keys) :=
  inferInstanceAs (Decidable (keys.map NestedKey.text).Nodup)

/-! ### What the reader has to do with them -/

/-- A legible key keeps its text. -/
theorem keyText_mapKey {k : NestedKey} (h : Legible k.text) : keyText k.mapKey = k.text := by
  cases k with
  | symbol text => exact textDecode_utf8 h.1
  | string text => exact textDecode_utf8 h.1

theorem keyReadable_mapKey {k : NestedKey} (h : Legible k.text) : KeyReadable k.mapKey := by
  cases k with
  | symbol text => exact h.2
  | string text => exact h.2

namespace Nested

@[simp]
theorem length_valItems (items : List Nested) : (valItems items).length = items.length := by
  induction items with
  | nil => rfl
  | cons x items ih => rw [valItems, List.length_cons, ih, List.length_cons]

@[simp]
theorem length_valEntries (entries : List (NestedKey × Nested)) :
    (valEntries entries).length = entries.length := by
  induction entries with
  | nil => rfl
  | cons entry entries ih =>
    obtain ⟨k, x⟩ := entry
    rw [valEntries, List.length_cons, ih, List.length_cons]

/-- The texts of the keys of a map, as the reader gets them. -/
theorem map_keyText_valEntries {Distinct : List NestedKey → Prop}
    {entries : List (NestedKey × Nested)} (h : RepresentableEntries Distinct entries) :
    (valEntries entries).map (fun entry ↦ keyText entry.1) =
      (entries.map Prod.fst).map NestedKey.text := by
  induction entries with
  | nil => rfl
  | cons entry entries ih =>
    obtain ⟨k, x⟩ := entry
    rw [valEntries, List.map_cons, List.map_cons, List.map_cons, ih h.2.2, keyText_mapKey h.1]

mutual

/-- **What the indexer makes of the host's value** is the value. -/
theorem renderedVal_val {Distinct : List NestedKey → Prop} :
    ∀ v : Nested, v.Representable Distinct → renderedVal v.val = v.decoded
  | .void, _ => rfl
  | .bool _, _ => rfl
  | .symbol _, h => h.renderedVal_symbol
  | .string _, h => h.renderedVal_string
  | .u32 _, _ => rfl
  | .i128 _, _ => rfl
  | .address _, _ => rfl
  | .vec items, h => congrArg ScVal.vec (renderedItems_valItems items h.2)
  | .map entries, h => congrArg ScVal.map (renderedEntries_valEntries entries h.2.2)

theorem renderedItems_valItems {Distinct : List NestedKey → Prop} :
    ∀ items : List Nested, RepresentableItems Distinct items →
      renderedItems (valItems items) = decodedItems items
  | [], _ => rfl
  | x :: items, h => by
    rw [valItems, renderedItems, renderedVal_val x h.1, renderedItems_valItems items h.2,
      decodedItems]

theorem renderedEntries_valEntries {Distinct : List NestedKey → Prop} :
    ∀ entries : List (NestedKey × Nested), RepresentableEntries Distinct entries →
      renderedEntries (valEntries entries) = decodedEntries entries
  | [], _ => rfl
  | (k, x) :: entries, h => by
    rw [valEntries, renderedEntries, keyText_mapKey h.1, renderedVal_val x h.2.1,
      renderedEntries_valEntries entries h.2.2, decodedEntries]

end

mutual

/-- **With distinct texts the host's value is readable.** -/
theorem readable_val : ∀ v : Nested, v.Representable DistinctTexts → Readable v.val
  | .void, _ => trivial
  | .bool _, _ => trivial
  | .symbol _, h => h.2
  | .string _, h => h.2
  | .u32 _, h => h
  | .i128 _, h => h
  | .address _, _ => trivial
  | .vec items, h => by
    refine ⟨?_, readableItems_valItems items h.2⟩
    rw [length_valItems]
    exact h.1
  | .map entries, h => by
    refine ⟨?_, ?_, readableEntries_valEntries entries h.2.2⟩
    · rw [length_valEntries]
      exact h.1
    · rw [map_keyText_valEntries h.2.2]
      exact h.2.1

theorem readableItems_valItems :
    ∀ items : List Nested, RepresentableItems DistinctTexts items →
      ReadableItems (valItems items)
  | [], _ => trivial
  | x :: items, h => ⟨readable_val x h.1, readableItems_valItems items h.2⟩

theorem readableEntries_valEntries :
    ∀ entries : List (NestedKey × Nested), RepresentableEntries DistinctTexts entries →
      ReadableEntries (valEntries entries)
  | [], _ => trivial
  | (_, x) :: entries, h =>
    ⟨keyReadable_mapKey h.1, readable_val x h.2.1, readableEntries_valEntries entries h.2.2⟩

end

end Nested

/-! ### The round trip -/

/-- **Decoding undoes encoding**, for every nested value whose maps have keys of distinct texts:
wherever its encoding stands, decoding it there yields the value and stops right behind it. The
depth that is needed is that of the encoding, four bytes a level, which the length of the buffer
always allows. -/
theorem decodeScVal_encoding {v : Nested} (h : v.Representable DistinctTexts)
    (before after : Bytes) {depth : ℕ}
    (hdepth : (before ++ (v.encoding ++ after)).length / 4 < depth) :
    decodeScVal depth ⟨before ++ (v.encoding ++ after), before.length⟩ =
      .ok (v.decoded,
        ⟨before ++ (v.encoding ++ after), before.length + v.encoding.length⟩) := by
  have hroom : v.val.xdr.length ≤ 4 * depth := by
    simp only [List.length_append, Nested.encoding] at hdepth
    omega
  have hread := reads_decodeScVal v.val depth (Nested.readable_val v h) hroom before after
  rwa [Nested.renderedVal_val v h] at hread

/-- A vector in a map, with texts of several bytes a character. -/
def someNested : Nested :=
  .map [(.symbol "who", .vec [.address (.contract (Vector.replicate 32 7)), .void, .bool true]),
    (.string "§", .map [(.symbol "amount", .i128 (-7)), (.symbol "note", .string "10 €")])]

theorem representable_someNested : someNested.Representable DistinctTexts := by
  have hwho : (Nested.vec [.address (.contract (Vector.replicate 32 7)), .void,
      .bool true]).Representable DistinctTexts := ⟨by decide, trivial, trivial, trivial, trivial⟩
  have hamount : (Nested.i128 (-7)).Representable DistinctTexts :=
    (by decide : (-2 : ℤ) ^ 127 ≤ -7 ∧ (-7 : ℤ) < 2 ^ 127)
  have hnote : (Nested.string "10 €").Representable DistinctTexts := (by decide : Legible "10 €")
  exact ⟨by decide, by decide, by decide, hwho, by decide,
    ⟨by decide, by decide, by decide, hamount, by decide, hnote, trivial⟩, trivial⟩

/-- It is found between other bytes. -/
theorem decodeScVal_encoding_someNested :
    let before : Bytes := [1, 2, 3, 4]
    let buffer := before ++ (someNested.encoding ++ [5])
    decodeScVal 70 ⟨buffer, before.length⟩ =
      .ok (someNested.decoded, ⟨buffer, before.length + someNested.encoding.length⟩) :=
  decodeScVal_encoding representable_someNested [1, 2, 3, 4] [5] (by decide +kernel)

/-- Two entries, one under a symbol and one under a string of the same text. -/
def clash : Nested := .map [(.symbol "a", .u32 1), (.string "a", .u32 2)]

set_option maxRecDepth 10000 in
/-- **Different keys are not enough**: the two entries become one. -/
theorem decodeScVal_clash :
    clash.Representable DistinctKeys ∧
      decodeScVal 14 ⟨clash.encoding, 0⟩ =
        .ok (.map [("a", .u32 2)], ⟨clash.encoding, clash.encoding.length⟩) ∧
      clash.decoded = .map [("a", .u32 1), ("a", .u32 2)] := by
  have hvalue : ∀ n < 3, (Nested.u32 n).Representable DistinctKeys :=
    fun n hn ↦ (by omega : n < 2 ^ 32)
  refine ⟨⟨by decide, by decide, by decide, hvalue 1 (by decide), by decide, hvalue 2 (by decide),
    trivial⟩, ?_, rfl⟩
  rfl

end Indexer
