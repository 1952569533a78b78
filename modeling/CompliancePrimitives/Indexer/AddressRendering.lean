import CompliancePrimitives.Indexer.RoundTrip
import CompliancePrimitives.Indexer.StrKeys

/-!
# The text of an address, read back

The indexer writes addresses by code of its own: `encodeG` for an account, hexadecimal digits for a
contract. This module is about the account. Its text is base32 as the standard has it, for the loop
writes the same groups of five bits (`base32Encode_eq_encode`), and base32 can be read back.

So from the text a reader gets the version byte, the key and the two bytes of the checksum, exactly
as they were put in (`decode_encodeG`). That two accounts never share a text is one consequence, and
`address_rendering` puts it together with what is known of contracts.
-/

namespace Indexer

open Encoding Soroban

section

variable (key : Bytes32)

theorem encodeG_eq_encode : encodeG key.toList = Base32.encode (strKeyBytes 48 key.toList) := by
  rw [encodeG_eq, base32Text_eq]

/-- **The text of a key, read back.** -/
theorem decode_encodeG :
    Base32.decode (encodeG key.toList) = some (strKeyBytes 48 key.toList) := by
  rw [encodeG_eq_encode, Base32.decode_encode]

/-- An account's text starts with `G`, the character of the high bits of the version byte. -/
theorem head?_encodeG : (encodeG key.toList).toList.head? = some 'G' := by
  rw [encodeG_eq_encode, strKeyBytes, List.cons_append, Base32.head?_encode]
  rfl

end

/-- **The text of an address.** Base32 is written as in the standard, for every byte string. The
text of an account consists of 56 base32 characters, the first of which is `G`, and stands for the
version byte 48, the key, and the CRC-16/XMODEM of these 33 bytes with its low byte first. It is
the text that is decoded from the encoding of the address, and no two addresses, be they accounts
or contracts, have the same. -/
theorem address_rendering :
    (∀ data, base32Encode data = Base32.encode data) ∧
      (∀ key : Bytes32, (encodeG key.toList).toList.length = 56 ∧
        (∀ c ∈ (encodeG key.toList).toList, c ∈ Base32.alphabet) ∧
        (encodeG key.toList).toList.head? = some 'G' ∧
        let checksum := (crc16 (48 :: key.toList)).toNat
        Base32.decode (encodeG key.toList) =
          some (48 :: key.toList ++ [.ofNat (checksum % 256), .ofNat (checksum / 256)])) ∧
      (∀ a, decodeBytes (Val.address a).xdr = some (.address (rendered a))) ∧
      Function.Injective rendered := by
  refine ⟨base32Encode_eq_encode, fun key ↦ ⟨length_encodeG key, fun c hc ↦ ?_,
    head?_encodeG key, decode_encodeG key⟩, fun a ↦ ?_, rendered_injective⟩
  · rw [encodeG_eq_encode] at hc
    exact Base32.mem_alphabet_of_mem_encode hc
  · exact decodeBytes_xdr (v := .address a) trivial

end Indexer
