import CompliancePrimitives.Host.Env

/-!
# Reading XDR

The indexer parses event topics and data with a reader of its own: base64 text, then bytes, then
an `ScVal`. A reader is a buffer with a position that only moves forward; reading outside of the
buffer is a range error, which ends the decoding of the event.

Decoding is recursive in vectors and maps. Every level of nesting reads a discriminant of four
bytes first, so a buffer of `n` bytes nests no deeper than `n / 4`, and the depth `decodeScVal` is
given is one more than that.

The text decoder of the platform is written out (`textDecode`): it replaces what is not UTF-8
instead of failing, and drops a byte order mark at the start. Numbers are naturals or integers
where the source has `number` or `bigint`: none of them leaves the range a `number` is exact in.
-/

namespace Indexer

open Soroban

/-! ### Base64 text -/

/-- Why an event cannot be decoded. -/
inductive DecodeError where
  | invalidCharacter
  | range
  deriving DecidableEq, Repr

/-- The six bits a base64 character stands for. -/
def base64Value (c : Char) : Option ℕ :=
  if 'A' ≤ c ∧ c ≤ 'Z' then some (c.toNat - 65)
  else if 'a' ≤ c ∧ c ≤ 'z' then some (c.toNat - 71)
  else if '0' ≤ c ∧ c ≤ '9' then some (c.toNat + 4)
  else if c = '+' then some 62
  else if c = '/' then some 63
  else none

/-- The white space `atob` skips. -/
def isAsciiWhitespace (c : Char) : Bool :=
  decide (c.toNat = 9 ∨ c.toNat = 10 ∨ c.toNat = 12 ∨ c.toNat = 13 ∨ c.toNat = 32)

/-- Up to two padding characters, dropped where the length allows them. -/
def stripPadding (cs : List Char) : List Char :=
  if cs.length % 4 = 0 then
    match cs.reverse with
    | '=' :: '=' :: rest => rest.reverse
    | '=' :: rest => rest.reverse
    | _ => cs
  else cs

/-- Groups of six bits, as bytes. Left-over bits are dropped; a single left-over group is an
error. -/
def sextetBytes : List ℕ → Option Bytes
  | a :: b :: c :: d :: rest => do
    let bytes ← sextetBytes rest
    pure (.ofNat (a * 4 + b / 16) :: .ofNat (b * 16 + c / 4) :: .ofNat (c * 64 + d) :: bytes)
  | [a, b, c] => some [.ofNat (a * 4 + b / 16), .ofNat (b * 16 + c / 4)]
  | [a, b] => some [.ofNat (a * 4 + b / 16)]
  | [_] => none
  | [] => some []

/-- `atob`, as the bytes its characters stand for (`base64ToBytes`). -/
def base64ToBytes (b64 : String) : Option Bytes := do
  let sextets ← (stripPadding (b64.toList.filter (!isAsciiWhitespace ·))).mapM base64Value
  sextetBytes sextets

/-! ### Text -/

/-- Where a UTF-8 decoder is inside a character: the bits it has, how many bytes it still needs,
and the range the next one has to be in. -/
structure Utf8State where
  codePoint : ℕ
  needed : ℕ
  lower : ℕ
  upper : ℕ

/-- Between two characters. -/
def Utf8State.between : Utf8State := ⟨0, 0, 0x80, 0xBF⟩

/-- The replacement character. -/
def replacement : Char := Char.ofNat 0xFFFD

/-- The first byte of a character. -/
def utf8Lead (b : ℕ) : List Char × Utf8State :=
  if b ≤ 0x7F then ([Char.ofNat b], .between)
  else if 0xC2 ≤ b ∧ b ≤ 0xDF then ([], ⟨b % 0x20, 1, 0x80, 0xBF⟩)
  else if 0xE0 ≤ b ∧ b ≤ 0xEF then
    ([], ⟨b % 0x10, 2, if b = 0xE0 then 0xA0 else 0x80, if b = 0xED then 0x9F else 0xBF⟩)
  else if 0xF0 ≤ b ∧ b ≤ 0xF4 then
    ([], ⟨b % 0x08, 3, if b = 0xF0 then 0x90 else 0x80, if b = 0xF4 then 0x8F else 0xBF⟩)
  else ([replacement], .between)

/-- One byte. A byte that cannot continue the character replaces it and starts anew. -/
def utf8Step (q : Utf8State) (b : ℕ) : List Char × Utf8State :=
  if q.needed = 0 then utf8Lead b
  else if b < q.lower ∨ q.upper < b then
    let (cs, q') := utf8Lead b
    (replacement :: cs, q')
  else
    let codePoint := q.codePoint * 0x40 + b % 0x40
    if q.needed = 1 then ([Char.ofNat codePoint], .between)
    else ([], ⟨codePoint, q.needed - 1, 0x80, 0xBF⟩)

/-- The characters of a byte string, from a state on. -/
def utf8Chars : Utf8State → Bytes → List Char
  | q, [] => if q.needed = 0 then [] else [replacement]
  | q, b :: bytes =>
    let (cs, q') := utf8Step q b.toNat
    cs ++ utf8Chars q' bytes

/-- `new TextDecoder().decode`. -/
def textDecode (bytes : Bytes) : String :=
  String.ofList <|
    match bytes with
    | 0xEF :: 0xBB :: 0xBF :: rest => utf8Chars .between rest
    | _ => utf8Chars .between bytes

/-! ### The reader -/

/-- `XdrReader`: a buffer and the position in it. -/
structure XdrReader where
  bytes : Bytes
  pos : ℕ
  deriving DecidableEq, Repr

/-- Reading something. -/
abbrev Reader (α : Type) := Tx DecodeError XdrReader α

/-- A big-endian number. -/
def beNat (bytes : Bytes) : ℕ := bytes.foldl (fun acc b ↦ acc * 256 + b.toNat) 0

/-- Two's complement in `w` bits. -/
def toSigned (w n : ℕ) : ℤ := if n < 2 ^ (w - 1) then n else n - 2 ^ w

/-- The next `n` bytes, which have to be there, and a step over them and `skip` more. -/
def takeBytes (n skip : ℕ) : Reader Bytes := do
  let r ← Tx.get
  Tx.ensure (r.pos + n ≤ r.bytes.length) .range
  Tx.modify fun r ↦ { r with pos := r.pos + n + skip }
  pure ((r.bytes.drop r.pos).take n)

theorem takeBytes_eq_ok_iff {n skip : ℕ} {r r' : XdrReader} {bytes : Bytes} :
    takeBytes n skip r = .ok (bytes, r') ↔
      r.pos + n ≤ r.bytes.length ∧ bytes = (r.bytes.drop r.pos).take n ∧
        r' = { r with pos := r.pos + n + skip } := by
  simp only [takeBytes, Tx.bind_eq_ok_iff, Tx.get_eq_ok_iff, Tx.ensure_eq_ok_iff,
    Tx.modify_eq_ok_iff, Tx.pure_eq_ok_iff, and_assoc, exists_and_left, exists_eq_left,
    exists_const]

/-- `readU32`. -/
def readU32 : Reader ℕ := do
  let bytes ← takeBytes 4 0
  pure (beNat bytes)

/-- `readI64`. -/
def readI64 : Reader ℤ := do
  let bytes ← takeBytes 8 0
  pure (toSigned 64 (beNat bytes))

/-- `readU64`. -/
def readU64 : Reader ℤ := do
  let bytes ← takeBytes 8 0
  pure (beNat bytes : ℤ)

/-- `readBytes`: XDR pads to a boundary of four bytes, and the padding need not be there. -/
def readBytes (n : ℕ) : Reader Bytes := takeBytes n ((4 - n % 4) % 4)

/-- `readVarBytes`. -/
def readVarBytes : Reader Bytes := do
  let len ← readU32
  readBytes len

/-- `readString`. -/
def readString : Reader String := do
  let bytes ← readVarBytes
  pure (textDecode bytes)

/-! ### Addresses as text -/

/-- A hexadecimal digit. -/
def hexDigit (n : ℕ) : Char := "0123456789abcdef".toList.getD n '0'

/-- `bufToHex`. -/
def bufToHex (bytes : Bytes) : String :=
  String.ofList (bytes.flatMap fun b ↦ [hexDigit (b.toNat / 16), hexDigit (b.toNat % 16)])

/-- One bit of the checksum. -/
def crcShift (crc : ℕ) : ℕ :=
  (if crc &&& 0x8000 ≠ 0 then (crc <<< 1) ^^^ 0x1021 else crc <<< 1) &&& 0xFFFF

/-- `crc16xmodem`. -/
def crc16xmodem (data : Bytes) : ℕ :=
  data.foldl (fun crc b ↦ crcShift^[8] (crc ^^^ (b.toNat <<< 8))) 0

/-- `BASE32_ALPHABET`, indexed by the low five bits of a word. -/
def base32Digit (word : UInt32) : Char :=
  "ABCDEFGHIJKLMNOPQRSTUVWXYZ234567".toList.getD (word &&& 31).toNat 'A'

/-- The inner loop of `base32Encode`: the digits there are bits for, and the number of bits left. -/
def base32Drain (value : UInt32) : ℕ → List Char × ℕ
  | bits + 5 =>
    let (digits, left) := base32Drain value bits
    (base32Digit (value >>> UInt32.ofNat bits) :: digits, left)
  | bits => ([], bits)

/-- The outer loop of `base32Encode`. The accumulator is a 32-bit word, and old bits fall out. -/
def base32Loop : (bits : ℕ) → (value : UInt32) → Bytes → List Char
  | bits, value, [] =>
    if 0 < bits then [base32Digit (value <<< UInt32.ofNat (5 - bits))] else []
  | bits, value, byte :: data =>
    let value := (value <<< 8) ||| byte.toUInt32
    let (digits, left) := base32Drain value (bits + 8)
    digits ++ base32Loop left value data

/-- `base32Encode`. -/
def base32Encode (data : Bytes) : String := String.ofList (base32Loop 0 0 data)

/-- `encodeG`: the version byte of accounts, the key, and the checksum of both. -/
def encodeG (raw : Bytes) : String :=
  let payload : Bytes := 48 :: raw
  let checksum := crc16xmodem payload
  base32Encode
    (payload ++ [UInt8.ofNat (checksum &&& 0xFF), UInt8.ofNat ((checksum >>> 8) &&& 0xFF)])

/-! ### Values -/

/-- `ScVal`. A map keeps its entries in the order of their first insertion. -/
inductive ScVal where
  | void
  | bool (value : Bool)
  | symbol (value : String)
  | string (value : String)
  | address (value : String)
  | i128 (value : ℤ)
  | u32 (value : ℕ)
  | vec (value : List ScVal)
  | map (value : List (String × ScVal))
  | other (discriminant : ℕ)

/-- `Map.set`. -/
def mapSet (entries : List (String × ScVal)) (key : String) (value : ScVal) :
    List (String × ScVal) :=
  if entries.any fun e ↦ decide (e.1 = key) then
    entries.map fun e ↦ if e.1 = key then (key, value) else e
  else entries ++ [(key, value)]

/-- `Map.get`. -/
def mapGet (entries : List (String × ScVal)) (key : String) : Option ScVal :=
  (entries.find? fun e ↦ decide (e.1 = key)).map Prod.snd

/-- The key of the entry at index `i` of a map: its index where it is no text. -/
def keyStr (i : ℕ) : ScVal → String
  | .symbol value => value
  | .string value => value
  | _ => toString i

/-- The loop over the items of a vector. -/
def readItems (item : Reader ScVal) : ℕ → Reader (List ScVal)
  | 0 => pure []
  | n + 1 => do
    let x ← item
    let xs ← readItems item n
    pure (x :: xs)

/-- The loop over the entries of a map, from index `i` on. -/
def readEntries (item : Reader ScVal) :
    ℕ → ℕ → List (String × ScVal) → Reader (List (String × ScVal))
  | _, 0, entries => pure entries
  | i, n + 1, entries => do
    let k ← item
    let v ← item
    readEntries item (i + 1) n (mapSet entries (keyStr i k) v)

/-! `ScType` and `ScAddressType`. -/

namespace ScType

@[match_pattern] def bool : ℕ := 0
@[match_pattern] def void : ℕ := 1
@[match_pattern] def u32 : ℕ := 3
@[match_pattern] def i128 : ℕ := 10
@[match_pattern] def string : ℕ := 14
@[match_pattern] def symbol : ℕ := 15
@[match_pattern] def vec : ℕ := 16
@[match_pattern] def map : ℕ := 17
@[match_pattern] def address : ℕ := 18

end ScType

/-- The address after its discriminant. -/
def readAddress : Reader ScVal := do
  let addrType ← readU32
  if addrType = 0 then do
    -- an account: the discriminant of its key is skipped
    let _ ← readU32
    let raw ← readBytes 32
    pure (.address (encodeG raw))
  else do
    let raw ← readBytes 32
    pure (.address (bufToHex raw))

/-- `decodeScVal`, nested at most `depth` deep. -/
def decodeScVal : (depth : ℕ) → Reader ScVal
  | 0 => Tx.trap
  | depth + 1 => do
    let disc ← readU32
    match disc with
    | ScType.bool => do
      let word ← readU32
      pure (.bool (decide (word ≠ 0)))
    | ScType.void => pure .void
    | ScType.symbol => do
      let value ← readString
      pure (.symbol value)
    | ScType.string => do
      let value ← readString
      pure (.string value)
    | ScType.u32 => do
      let value ← readU32
      pure (.u32 value)
    | ScType.i128 => do
      let hi ← readI64
      let lo ← readU64
      pure (.i128 (hi * 2 ^ 64 + lo))
    | ScType.address => readAddress
    | ScType.vec => do
      let present ← readU32
      if present = 0 then pure (.vec [])
      else do
        let len ← readU32
        let items ← readItems (decodeScVal depth) len
        pure (.vec items)
    | ScType.map => do
      let present ← readU32
      if present = 0 then pure (.map [])
      else do
        let len ← readU32
        let entries ← readEntries (decodeScVal depth) 0 len []
        pure (.map entries)
    | disc => pure (.other disc)

/-- The value a byte string starts with. -/
def decodeBytes (bytes : Bytes) : Option ScVal :=
  match decodeScVal (bytes.length / 4 + 1) ⟨bytes, 0⟩ with
  | .ok (value, _) => some value
  | .error _ => none

end Indexer
