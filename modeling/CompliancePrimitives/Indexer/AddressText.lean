import CompliancePrimitives.Foundation.BitGroups
import CompliancePrimitives.Host.ContractEvent
import CompliancePrimitives.Indexer.Xdr

/-!
# Addresses as text

Every table of the indexer is keyed by the text of an address, so two addresses may never share
one: `rendered_injective`, over accounts and contracts together. The text of an account has 56
characters and that of a contract 64, and within a kind the text determines the bytes.

The base32 loop keeps its bits in a 32-bit word that is never masked. Only the low bits of the word
are meant, as many as are still to be written, and these are exact, because at most twelve of them
are meant at a time (`base32Loop_eq`). So the loop writes all the groups of five bits of its input
(`base32Encode_eq_encode`).
-/

namespace Indexer

open Encoding Soroban

/-- The text the indexer knows an address by: a StrKey for an account, hexadecimal digits for a
contract. -/
def rendered : ScAddress → String
  | .account key => encodeG key.toList
  | .contract hash => bufToHex hash.toList

/-! ### Hexadecimal digits -/

theorem hexDigit_inj {m n : ℕ} (hm : m < 16) (hn : n < 16) (h : hexDigit m = hexDigit n) :
    m = n := by
  have hall : ∀ m < 16, ∀ n < 16, hexDigit m = hexDigit n → m = n := by decide +kernel
  exact hall m hm n hn h

theorem toList_bufToHex (bytes : Bytes) :
    (bufToHex bytes).toList =
      bytes.flatMap fun b ↦ [hexDigit (b.toNat / 16), hexDigit (b.toNat % 16)] :=
  String.toList_ofList

/-- Two digits a byte. -/
theorem length_bufToHex (bytes : Bytes) : (bufToHex bytes).toList.length = 2 * bytes.length := by
  rw [toList_bufToHex]
  induction bytes with
  | nil => rfl
  | cons b bytes ih =>
    rw [List.flatMap_cons, List.length_append, ih, List.length_cons]
    exact (Nat.add_comm _ _)

/-- The digits determine the bytes. -/
theorem bufToHex_inj {bytes bytes' : Bytes} (h : bufToHex bytes = bufToHex bytes') :
    bytes = bytes' := by
  have hdigits := congrArg String.toList h
  rw [toList_bufToHex, toList_bufToHex] at hdigits
  clear h
  induction bytes generalizing bytes' with
  | nil =>
    cases bytes' with
    | nil => rfl
    | cons b bytes' => cases hdigits
  | cons b bytes ih =>
    cases bytes' with
    | nil => cases hdigits
    | cons b' bytes' =>
      have hb := b.toNat_lt
      have hb' := b'.toNat_lt
      rw [List.flatMap_cons, List.flatMap_cons] at hdigits
      obtain ⟨hhigh, hdigits⟩ := List.cons.inj hdigits
      obtain ⟨hlow, hdigits⟩ := List.cons.inj hdigits
      have h₁ := hexDigit_inj (by omega) (by omega) hhigh
      have h₂ := hexDigit_inj (by omega) (by omega) hlow
      have hbyte : b = b' := UInt8.toNat_inj.1 (by omega)
      rw [hbyte, ih hdigits]

/-! ### Base32 -/

/-- The character of a group of five bits. -/
def base32Char (n : ℕ) : Char := "ABCDEFGHIJKLMNOPQRSTUVWXYZ234567".toList.getD n 'A'

/-- Only the low five bits of a word count. -/
theorem base32Digit_eq (word : UInt32) : base32Digit word = base32Char (word.toNat % 32) := by
  rw [base32Digit, base32Char, UInt32.toNat_and]
  exact congrArg (List.getD _ · 'A') (Nat.and_two_pow_sub_one_eq_mod word.toNat 5)

theorem base32Digit_shiftRight (word : UInt32) {k : ℕ} (hk : k < 32) :
    base32Digit (word >>> UInt32.ofNat k) = base32Char (word.toNat / 2 ^ k % 32) := by
  have hshift : (UInt32.ofNat k).toNat % 32 = k := by
    rw [UInt32.toNat_ofNat']
    omega
  rw [base32Digit_eq, UInt32.toNat_shiftRight, hshift, Nat.shiftRight_eq_div_pow]

/-- One more byte in the word, from which the highest one falls out. -/
theorem toNat_pushByte (word : UInt32) (byte : UInt8) :
    ((word <<< 8) ||| byte.toUInt32).toNat = word.toNat % 2 ^ 24 * 256 + byte.toNat := by
  have hbyte : byte.toNat < 2 ^ 8 := byte.toNat_lt
  have hshift : (word <<< 8).toNat = (word.toNat % 2 ^ 24) <<< 8 := by
    rw [UInt32.toNat_shiftLeft]
    show word.toNat <<< 8 % 2 ^ 32 = _
    rw [Nat.shiftLeft_eq, Nat.shiftLeft_eq]
    omega
  rw [UInt32.toNat_or, hshift, UInt8.toNat_toUInt32, ← Nat.shiftLeft_add_eq_or_of_lt hbyte,
    Nat.shiftLeft_eq]

/-- The inner loop after one byte: one digit where less than two bits were left, and two digits
otherwise. -/
theorem base32Drain_eq (word : UInt32) {bits : ℕ} (hbits : bits ≤ 4) :
    base32Drain word (bits + 8) =
      if bits < 2 then ([base32Digit (word >>> UInt32.ofNat (bits + 3))], bits + 3)
      else
        ([base32Digit (word >>> UInt32.ofNat (bits + 3)),
          base32Digit (word >>> UInt32.ofNat (bits - 2))], bits - 2) := by
  interval_cases bits <;> rfl

/-- **The loop writes the groups of five bits**, whatever is in the high bits of the word. -/
theorem base32Loop_eq {bits : ℕ} (word : UInt32) (data : Bytes) (hbits : bits ≤ 4) :
    base32Loop bits word data =
      (quintets bits (word.toNat % 2 ^ bits) data).map base32Char := by
  induction data generalizing bits word with
  | nil =>
    rw [base32Loop, quintets]
    split_ifs with hpos
    -- the last group: a shift to the left may push meant bits against the mask, but not out
    · have hshift : (UInt32.ofNat (5 - bits)).toNat % 32 = 5 - bits := by
        rw [UInt32.toNat_ofNat']
        omega
      have hgroup : word.toNat * 2 ^ (5 - bits) % 2 ^ 32 % 32 =
          word.toNat % 2 ^ bits * 2 ^ (5 - bits) := by
        interval_cases bits <;> omega
      rw [base32Digit_eq, UInt32.toNat_shiftLeft, hshift, Nat.shiftLeft_eq, List.map_singleton]
      exact congrArg (fun n ↦ [base32Char n]) hgroup
    · rfl
  | cons byte data ih =>
    have hbyte := byte.toNat_lt
    have hfirst : (word.toNat % 2 ^ 24 * 256 + byte.toNat) / 2 ^ (bits + 3) % 32 =
        (word.toNat % 2 ^ bits * 256 + byte.toNat) / 2 ^ (bits + 3) := by
      interval_cases bits <;> omega
    rw [base32Loop, base32Drain_eq _ hbits, quintets]
    split_ifs with hfew
    · have hrest : (word.toNat % 2 ^ 24 * 256 + byte.toNat) % 2 ^ (bits + 3) =
          (word.toNat % 2 ^ bits * 256 + byte.toNat) % 2 ^ (bits + 3) := by
        interval_cases bits <;> omega
      dsimp only [List.cons_append, List.nil_append]
      rw [List.map_cons, ih _ (by omega), base32Digit_shiftRight _ (by omega), toNat_pushByte,
        hfirst, hrest]
    -- a second digit, as there are ten bits or more
    · have hsecond : (word.toNat % 2 ^ 24 * 256 + byte.toNat) / 2 ^ (bits - 2) % 32 =
          (word.toNat % 2 ^ bits * 256 + byte.toNat) / 2 ^ (bits - 2) % 32 := by
        interval_cases bits <;> omega
      have hrest : (word.toNat % 2 ^ 24 * 256 + byte.toNat) % 2 ^ (bits - 2) =
          (word.toNat % 2 ^ bits * 256 + byte.toNat) % 2 ^ (bits - 2) := by
        interval_cases bits <;> omega
      dsimp only [List.cons_append, List.nil_append]
      rw [List.map_cons, List.map_cons, ih _ (by omega), base32Digit_shiftRight _ (by omega),
        base32Digit_shiftRight _ (by omega), toNat_pushByte, hfirst, hsecond, hrest]

theorem toList_base32Encode (data : Bytes) :
    (base32Encode data).toList = (quintets 0 0 data).map base32Char := by
  rw [base32Encode, String.toList_ofList, base32Loop_eq _ _ (by norm_num)]
  rfl

/-- **The loop writes base32**, for inputs of every length. -/
theorem base32Encode_eq_encode (data : Bytes) : base32Encode data = Base32.encode data := by
  rw [← String.toList_inj, toList_base32Encode,
    Base32.quintets_eq_groups data (Nat.zero_le 4) Nat.one_pos, Nat.zero_add, Base32.encode,
    String.toList_ofList]
  rfl

/-- The text determines the bytes. -/
theorem base32Encode_inj {data data' : Bytes} (h : base32Encode data = base32Encode data') :
    data = data' := by
  rw [base32Encode_eq_encode, base32Encode_eq_encode] at h
  exact Base32.encode_injective h

/-! ### Addresses -/

theorem length_encodeG (key : Bytes32) : (encodeG key.toList).toList.length = 56 := by
  rw [encodeG, base32Encode_eq_encode, Base32.length_encode]
  simp only [List.length_append, List.length_cons, List.length_nil, Vector.length_toList]

/-- The version byte and the key are in front of the checksum. -/
theorem encodeG_inj {key key' : Bytes32} (h : encodeG key.toList = encodeG key'.toList) :
    key = key' := by
  have hbytes := base32Encode_inj h
  have hfront := (List.append_inj hbytes (by simp)).1
  exact Vector.toList_inj.1 (List.cons.inj hfront).2

/-- **No two addresses share a text.** -/
theorem rendered_injective : Function.Injective rendered := by
  intro a b h
  have hlength := congrArg (fun s : String ↦ s.toList.length) h
  cases a with
  | account key =>
    cases b with
    | account key' => rw [encodeG_inj h]
    | contract hash =>
      simp only [rendered, length_encodeG, length_bufToHex, Vector.length_toList] at hlength
      omega
  | contract hash =>
    cases b with
    | account key =>
      simp only [rendered, length_encodeG, length_bufToHex, Vector.length_toList] at hlength
      omega
    | contract hash' => rw [Vector.toList_inj.1 (bufToHex_inj h)]

/-- Every address has a text. -/
theorem rendered_ne_empty (a : ScAddress) : (rendered a).isEmpty = false := by
  rw [Bool.eq_false_iff]
  intro hempty
  have hlength := congrArg (fun s : String ↦ s.toList.length) (String.isEmpty_iff.1 hempty)
  cases a <;>
    simp [rendered, length_encodeG, length_bufToHex, Vector.length_toList] at hlength

end Indexer
