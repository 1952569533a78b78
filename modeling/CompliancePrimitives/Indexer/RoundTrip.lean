import CompliancePrimitives.Indexer.AddressText
import CompliancePrimitives.Indexer.Decoder
import CompliancePrimitives.Indexer.Text

/-!
# The reader undoes the encoding

`Reads x bytes a` says that wherever `bytes` stand in a buffer, `x` started in front of them yields
`a` and stops right behind them. Readers compose as encodings do (`Reads.bind`), so the statement
about a value follows the shape of its encoding: a discriminant, a length, the parts.

`Val.rendered` is what a value of the host is for the indexer, which has addresses as text and map
entries under the text of their keys. `reads_decodeScVal` is the round trip, for every value that
is `Readable`: of a kind the reader knows, with numbers that fit into their width and with distinct
keys. The depth the reader is given suffices, because every level of nesting takes four bytes.
-/

namespace Indexer

open Encoding Soroban

/-! ### Reading an encoding -/

/-- **A reader reads `a` off `bytes`**, wherever they stand. -/
def Reads {α : Type} (x : Reader α) (bytes : Bytes) (a : α) : Prop :=
  ∀ before after, x ⟨before ++ (bytes ++ after), before.length⟩ =
    .ok (a, ⟨before ++ (bytes ++ after), before.length + bytes.length⟩)

section

variable {α β : Type} {x : Reader α} {k : α → Reader β} {bytes bytes' : Bytes} {a : α} {b : β}

theorem reads_pure (a : α) : Reads (pure a) [] a := fun _ _ ↦ rfl

/-- One reader after the other reads one encoding after the other. -/
theorem Reads.bind (hx : Reads x bytes a) (hk : Reads (k a) bytes' b) :
    Reads (x >>= k) (bytes ++ bytes') b := by
  intro before after
  have hfirst := hx before (bytes' ++ after)
  have hsecond := hk (before ++ bytes) after
  rw [List.append_assoc, List.length_append] at hsecond
  rw [List.append_assoc, Tx.bind_of_ok hfirst, hsecond, List.length_append, Nat.add_assoc]

/-- Reshaping what was read reads nothing more. -/
theorem Reads.map (hx : Reads x bytes a) (f : α → β) :
    Reads (x >>= fun a ↦ pure (f a)) bytes (f a) := by
  have h := hx.bind (k := fun a ↦ pure (f a)) (reads_pure (f a))
  rwa [List.append_nil] at h

end

/-- Bytes are taken as they stand, and what is skipped is not looked at. -/
theorem reads_takeBytes (bytes padding : Bytes) :
    Reads (takeBytes bytes.length padding.length) (bytes ++ padding) bytes := by
  intro before after
  have hroom : before.length + bytes.length ≤ (before ++ (bytes ++ padding ++ after)).length := by
    simp only [List.length_append]
    omega
  have htake : ((before ++ (bytes ++ padding ++ after)).drop before.length).take bytes.length =
      bytes := by
    rw [List.drop_left, List.append_assoc, List.take_left]
  refine takeBytes_eq_ok_iff.2 ⟨hroom, htake.symm, ?_⟩
  rw [List.length_append, ← Nat.add_assoc]

/-! ### Numbers -/

theorem beNat_append_singleton (bytes : Bytes) (b : UInt8) :
    beNat (bytes ++ [b]) = beNat bytes * 256 + b.toNat := by
  rw [beNat, List.foldl_append]
  rfl

/-- A number that fits into its width survives. -/
theorem beNat_bigEndian {width n : ℕ} (h : n < 256 ^ width) : beNat (bigEndian width n) = n := by
  induction width generalizing n with
  | zero =>
    rw [Nat.pow_zero, Nat.lt_one_iff] at h
    rw [h]
    rfl
  | succ width ih =>
    have hrest : n / 256 < 256 ^ width :=
      Nat.div_lt_of_lt_mul (by rwa [Nat.mul_comm, ← Nat.pow_succ])
    rw [bigEndian, beNat_append_singleton, ih hrest, UInt8.toNat_ofNat']
    exact Nat.div_add_mod' n 256

/-- A number of `w` bytes is read off its encoding. -/
theorem reads_bigEndian {w n : ℕ} (h : n < 256 ^ w) {α : Type} (f : ℕ → α) :
    Reads (takeBytes w 0 >>= fun bytes ↦ pure (f (beNat bytes))) (bigEndian w n)
      (f n) := by
  have htake := reads_takeBytes (bigEndian w n) []
  rw [List.append_nil, length_bigEndian] at htake
  have hmap := htake.map fun bytes ↦ f (beNat bytes)
  rwa [beNat_bigEndian h] at hmap

theorem reads_readU32 {n : ℕ} (h : n < 2 ^ 32) : Reads readU32 (xdrU32 n) n :=
  reads_bigEndian (w := 4) h id

/-- A number that says how to go on. -/
theorem reads_tag {α : Type} {k : ℕ → Reader α} {bytes : Bytes} {a : α} {n : ℕ} (h : n < 2 ^ 32)
    (hk : Reads (k n) bytes a) : Reads (readU32 >>= k) (xdrU32 n ++ bytes) a :=
  (reads_readU32 h).bind hk

theorem reads_readU64 {n : ℕ} (h : n < 2 ^ 64) : Reads readU64 (xdrU64 n) (n : ℤ) :=
  reads_bigEndian (w := 8) h fun n ↦ (n : ℤ)

/-- Two's complement, back to the number. -/
theorem toSigned_emod {z : ℤ} (hlower : -2 ^ 63 ≤ z) (hupper : z < 2 ^ 63) :
    toSigned 64 (z % 2 ^ 64).toNat = z := by
  unfold toSigned
  split_ifs <;> omega

theorem reads_readI64 {z : ℤ} (hlower : -2 ^ 63 ≤ z) (hupper : z < 2 ^ 63) :
    Reads readI64 (xdrU64 (z % 2 ^ 64).toNat) z := by
  have h := reads_bigEndian (n := (z % 2 ^ 64).toNat) (w := 8) (by omega) (toSigned 64)
  rwa [toSigned_emod hlower hupper] at h

/-! ### Texts and addresses -/

/-- What `readBytes` skips after the bytes it takes. -/
theorem reads_readBytes (bytes : Bytes) :
    Reads (readBytes bytes.length)
      (bytes ++ List.replicate ((4 - bytes.length % 4) % 4) 0) bytes := by
  have h := reads_takeBytes bytes (List.replicate ((4 - bytes.length % 4) % 4) 0)
  rwa [List.length_replicate] at h

theorem reads_readString {bytes : Bytes} (h : bytes.length < 2 ^ 32) :
    Reads readString (xdrOpaque bytes) (textDecode bytes) :=
  ((reads_readU32 h).bind (reads_readBytes bytes)).map textDecode

/-- The 32 bytes of a key or a hash need no padding. -/
theorem reads_bytes32 (bytes : Bytes32) : Reads (readBytes 32) bytes.toList bytes.toList := by
  have h := reads_takeBytes bytes.toList []
  rwa [List.append_nil, Vector.length_toList] at h

theorem reads_readAddress (a : ScAddress) : Reads readAddress a.xdr (.address (rendered a)) := by
  cases a with
  | account key =>
    exact reads_tag (by norm_num) <| reads_tag (by norm_num) <|
      (reads_bytes32 key).map fun raw ↦ ScVal.address (encodeG raw)
  | contract hash =>
    exact reads_tag (by norm_num) <| (reads_bytes32 hash).map fun raw ↦ ScVal.address (bufToHex raw)

/-! ### Values -/

/-- The text of a key. -/
def keyText : MapKey → String
  | .symbol name => textDecode (utf8 name)
  | .string text => textDecode text

mutual

/-- What the indexer makes of a value. Of a kind it does not know it keeps the discriminant. -/
def renderedVal : Val → ScVal
  | .void => .void
  | .bool value => .bool value
  | .u32 value => .u32 value
  | .u64 _ => .other 5
  | .i128 value => .i128 value
  | .bytes _ => .other 13
  | .symbol value => .symbol (textDecode (utf8 value))
  | .string value => .string (textDecode value)
  | .address value => .address (rendered value)
  | .vec items => .vec (renderedItems items)
  | .map entries => .map (renderedEntries entries)

/-- The items of a vector. -/
def renderedItems : List Val → List ScVal
  | [] => []
  | x :: items => renderedVal x :: renderedItems items

/-- The entries of a map. -/
def renderedEntries : List (MapKey × Val) → List (String × ScVal)
  | [] => []
  | (k, x) :: entries => (keyText k, renderedVal x) :: renderedEntries entries

end

/-- A key whose text is not too long. -/
def KeyReadable : MapKey → Prop
  | .symbol name => (utf8 name).length < 2 ^ 32
  | .string text => text.length < 2 ^ 32

mutual

/-- **A value the indexer can read**: of a kind it knows, within the widths of the encoding, and
with distinct keys in every map. -/
def Readable : Val → Prop
  | .void => True
  | .bool _ => True
  | .u32 value => value < 2 ^ 32
  | .u64 _ => False
  | .i128 value => -2 ^ 127 ≤ value ∧ value < 2 ^ 127
  | .bytes _ => False
  | .symbol value => (utf8 value).length < 2 ^ 32
  | .string value => value.length < 2 ^ 32
  | .address _ => True
  | .vec items => items.length < 2 ^ 32 ∧ ReadableItems items
  | .map entries =>
    entries.length < 2 ^ 32 ∧ (entries.map fun entry ↦ keyText entry.1).Nodup ∧
      ReadableEntries entries

/-- The items of a vector. -/
def ReadableItems : List Val → Prop
  | [] => True
  | x :: items => Readable x ∧ ReadableItems items

/-- The entries of a map. -/
def ReadableEntries : List (MapKey × Val) → Prop
  | [] => True
  | (k, x) :: entries => KeyReadable k ∧ Readable x ∧ ReadableEntries entries

end

/-- A new key goes behind the entries there are. -/
theorem mapSet_of_notMem {entries : List (String × ScVal)} {key : String} {value : ScVal}
    (h : key ∉ entries.map Prod.fst) : mapSet entries key value = entries ++ [(key, value)] := by
  rw [mapSet, if_neg]
  intro hany
  obtain ⟨e, he, hkey⟩ := List.any_eq_true.1 hany
  exact h (List.mem_map.2 ⟨e, he, of_decide_eq_true hkey⟩)

/-- A key is read, under any depth at all. -/
theorem reads_key (depth : ℕ) {k : MapKey} (h : KeyReadable k) (i : ℕ) :
    ∃ value, Reads (decodeScVal (depth + 1)) k.xdr value ∧ keyStr i value = keyText k := by
  cases k with
  | symbol name =>
    exact ⟨_, reads_tag (by norm_num) ((reads_readString h).map ScVal.symbol), rfl⟩
  | string text =>
    exact ⟨_, reads_tag (by norm_num) ((reads_readString h).map ScVal.string), rfl⟩

theorem length_xdrU32 (n : ℕ) : (xdrU32 n).length = 4 := length_bigEndian 4 n

/-- Every value starts with a discriminant. -/
theorem four_le_length_xdr (v : Val) : 4 ≤ v.xdr.length := by
  cases v <;> simp only [Val.xdr, List.length_append, length_xdrU32] <;> omega

theorem four_le_length_key (k : MapKey) : 4 ≤ k.xdr.length := by
  cases k <;> simp only [MapKey.xdr, List.length_append, length_xdrU32] <;> omega

/-- `Int128Parts` put together again. -/
theorem reads_i128 {z : ℤ} (hlower : -2 ^ 127 ≤ z) (hupper : z < 2 ^ 127) :
    Reads (readI64 >>= fun hi ↦ readU64 >>= fun lo ↦ pure (ScVal.i128 (hi * 2 ^ 64 + lo)))
      (xdrI128 z) (.i128 z) := by
  have hhi := reads_readI64 (z := z / 2 ^ 64) (by omega) (by omega)
  have hlo := reads_readU64 (n := (z % 2 ^ 64).toNat) (by omega)
  have hsum : z / 2 ^ 64 * 2 ^ 64 + ((z % 2 ^ 64).toNat : ℤ) = z := by omega
  have hpair := hhi.bind
    (k := fun hi ↦ readU64 >>= fun lo ↦ pure (ScVal.i128 (hi * 2 ^ 64 + lo)))
    (hlo.map fun lo ↦ ScVal.i128 (z / 2 ^ 64 * 2 ^ 64 + lo))
  rwa [hsum] at hpair

mutual

/-- **The round trip of a value**, at any depth its encoding has room for. -/
theorem reads_decodeScVal : ∀ (v : Val) (depth : ℕ), Readable v → v.xdr.length ≤ 4 * depth →
    Reads (decodeScVal depth) v.xdr (renderedVal v)
  | v, 0, _, hdepth => absurd (four_le_length_xdr v) (by omega)
  | .void, depth + 1, _, _ => (reads_readU32 (by norm_num)).bind (reads_pure _)
  | .bool true, depth + 1, _, _ =>
    reads_tag (by norm_num) <|
      (reads_readU32 (n := 1) (by norm_num)).map fun word ↦ ScVal.bool (decide (word ≠ 0))
  | .bool false, depth + 1, _, _ =>
    reads_tag (by norm_num) <|
      (reads_readU32 (n := 0) (by norm_num)).map fun word ↦ ScVal.bool (decide (word ≠ 0))
  | .u32 value, depth + 1, hread, _ =>
    reads_tag (by norm_num) ((reads_readU32 hread).map ScVal.u32)
  -- the decoder has no kind for these two
  | .u64 _, _ + 1, hread, _ => hread.elim
  | .bytes _, _ + 1, hread, _ => hread.elim
  | .i128 value, depth + 1, hread, _ => reads_tag (by norm_num) (reads_i128 hread.1 hread.2)
  | .symbol value, depth + 1, hread, _ =>
    reads_tag (by norm_num) ((reads_readString hread).map ScVal.symbol)
  | .string value, depth + 1, hread, _ =>
    reads_tag (by norm_num) ((reads_readString hread).map ScVal.string)
  | .address value, depth + 1, _, _ => reads_tag (by norm_num) (reads_readAddress value)
  -- four bytes went into the discriminant, so there is room for the items one level down
  | .vec items, depth + 1, hread, hdepth => by
    have hitems : (Val.xdrItems items).length ≤ 4 * depth := by
      simp only [Val.xdr, List.length_append, length_xdrU32] at hdepth
      omega
    exact reads_tag (by norm_num) <| reads_tag (by norm_num) <| reads_tag hread.1 <|
      (reads_readItems items depth hread.2 hitems).map ScVal.vec
  | .map entries, depth + 1, hread, hdepth => by
    have hentries : (Val.xdrEntries entries).length ≤ 4 * depth := by
      simp only [Val.xdr, List.length_append, length_xdrU32] at hdepth
      omega
    exact reads_tag (by norm_num) <| reads_tag (by norm_num) <| reads_tag hread.1 <|
      (reads_readEntries entries depth 0 [] hread.2.2 hread.2.1 hentries).map ScVal.map

/-- The items of a vector. -/
theorem reads_readItems : ∀ (items : List Val) (depth : ℕ), ReadableItems items →
    (Val.xdrItems items).length ≤ 4 * depth →
    Reads (readItems (decodeScVal depth) items.length) (Val.xdrItems items) (renderedItems items)
  | [], _, _, _ => reads_pure _
  | x :: items, depth, hread, hdepth => by
    rw [Val.xdrItems, List.length_append] at hdepth
    have hx := reads_decodeScVal x depth hread.1 (by omega)
    have hitems := reads_readItems items depth hread.2 (by omega)
    exact hx.bind (hitems.map (renderedVal x :: ·))

/-- The entries of a map, behind those that were read before. -/
theorem reads_readEntries : ∀ (entries : List (MapKey × Val)) (depth i : ℕ)
    (before : List (String × ScVal)), ReadableEntries entries →
    (before.map Prod.fst ++ entries.map fun entry ↦ keyText entry.1).Nodup →
    (Val.xdrEntries entries).length ≤ 4 * depth →
    Reads (readEntries (decodeScVal depth) i entries.length before) (Val.xdrEntries entries)
      (before ++ renderedEntries entries)
  | [], _, _, before, _, _, _ => by
    rw [renderedEntries, List.append_nil]
    exact reads_pure _
  | (k, x) :: entries, 0, i, before, hread, hkeys, hdepth => by
    have hkey := four_le_length_key k
    rw [Val.xdrEntries, List.length_append] at hdepth
    omega
  | (k, x) :: entries, depth + 1, i, before, hread, hkeys, hdepth => by
    rw [Val.xdrEntries, List.length_append, List.length_append] at hdepth
    obtain ⟨value, hvalue, htext⟩ := reads_key depth hread.1 i
    have hx := reads_decodeScVal x (depth + 1) hread.2.1 (by omega)
    -- the key is new, and those that follow are new after it
    rw [List.map_cons, List.append_cons] at hkeys
    have hnew : keyText k ∉ before.map Prod.fst :=
      fun hmem ↦ (List.nodup_append.1 (List.Nodup.of_append_left hkeys)).2.2 _ hmem _
        List.mem_cons_self rfl
    have hset : mapSet before (keyStr i value) (renderedVal x) =
        before ++ [(keyText k, renderedVal x)] := by
      rw [htext, mapSet_of_notMem hnew]
    have hrest := reads_readEntries entries (depth + 1) (i + 1)
      (before ++ [(keyText k, renderedVal x)]) hread.2.2
      (by rwa [List.map_append, List.map_singleton]) (by omega)
    rw [List.append_assoc, List.singleton_append, ← hset] at hrest
    exact hvalue.bind (hx.bind hrest)

end

/-- The bytes of a value are decoded to it. -/
theorem decodeBytes_xdr {v : Val} (h : Readable v) : decodeBytes v.xdr = some (renderedVal v) := by
  have hread := reads_decodeScVal v (v.xdr.length / 4 + 1) h (by omega) [] []
  rw [List.nil_append, List.append_nil, List.length_nil] at hread
  rw [decodeBytes, hread]

/-- So is the text that is delivered. -/
theorem decodeText_xdr {v : Val} (h : Readable v) :
    decodeText (base64Encode v.xdr) = some (renderedVal v) := by
  rw [decodeText, base64ToBytes_base64Encode]
  exact decodeBytes_xdr h

/-- Something is delivered for every value. -/
theorem base64Encode_xdr_ne_empty (v : Val) : (base64Encode v.xdr).isEmpty = false := by
  rw [Bool.eq_false_iff]
  intro hempty
  have hbytes := base64ToBytes_base64Encode v.xdr
  rw [String.isEmpty_iff.1 hempty] at hbytes
  have hnil : v.xdr = [] := (Option.some.inj hbytes).symm
  have hfour := four_le_length_xdr v
  rw [hnil] at hfour
  exact absurd hfour (by decide)

end Indexer
