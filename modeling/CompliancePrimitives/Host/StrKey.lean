import CompliancePrimitives.Foundation.BitGroups
import CompliancePrimitives.Foundation.Crc
import CompliancePrimitives.Host.ContractEvent

/-!
# Addresses as people write them

The external form of an address is its **StrKey**: a version byte for the kind of address, its 32
bytes, and a checksum of both, in base32 without padding. Accounts start with `G` and contracts with
`C`. The checksum is CRC-16/XMODEM with the low byte first.

This is the standard, apart from any program that writes or reads StrKeys. A StrKey determines the
address (`strKey_injective`), and has no characters but those of base32.

The version byte has the letter in its first five bits, which are the first group, and zeros behind
it. Only writing is given, since that is all a reader of the tables is compared with.
-/

namespace Soroban

open Encoding

/-- `x^16 + x^12 + x^5 + 1`, without its highest term. -/
def crc16Poly : BitVec 16 := 0x1021#16

/-- The bits of a byte, highest first. -/
def byteBits (byte : UInt8) : List Bool :=
  (List.range 8).map fun i ↦ byte.toNat.testBit (7 - i)

/-- CRC-16/XMODEM. -/
def crc16 (data : Bytes) : BitVec 16 := Crc.remainder crc16Poly (data.flatMap byteBits)

/-- Base32 without padding. -/
def base32Text (data : Bytes) : String :=
  String.ofList <| (quintets 0 0 data).map fun n ↦
    "ABCDEFGHIJKLMNOPQRSTUVWXYZ234567".toList.getD n 'A'

/-- The bytes of a StrKey. -/
def strKeyBytes (version : UInt8) (payload : Bytes) : Bytes :=
  let checksum := (crc16 (version :: payload)).toNat
  version :: payload ++ [UInt8.ofNat (checksum % 256), UInt8.ofNat (checksum / 256)]

/-- The version byte of an address: eight times the place of its first letter among the digits. -/
def ScAddress.version : ScAddress → UInt8
  | .account _ => 6 * 8
  | .contract _ => 2 * 8

/-- The 32 bytes of an address. -/
def ScAddress.payload : ScAddress → Bytes
  | .account key => key.toList
  | .contract hash => hash.toList

/-- **The StrKey of an address.** -/
def ScAddress.strKey (a : ScAddress) : String := base32Text (strKeyBytes a.version a.payload)

example : (ScAddress.account (Vector.replicate 32 0)).strKey =
    "GAAAAAAAAAAAAAAAAAAAAAAAAAAAAAAAAAAAAAAAAAAAAAAAAAAAAWHF" := by decide +kernel

example : (ScAddress.contract (Vector.replicate 32 0)).strKey =
    "CAAAAAAAAAAAAAAAAAAAAAAAAAAAAAAAAAAAAAAAAAAAAAAAAAAABSC4" := by decide +kernel

/-! ### What they determine -/

theorem base32Text_eq (data : Bytes) : base32Text data = Base32.encode data := by
  rw [base32Text, Base32.quintets_eq_groups data (Nat.zero_le 4) Nat.one_pos, Nat.zero_add]
  rfl

/-- **No two addresses share a StrKey.** -/
theorem strKey_injective : Function.Injective ScAddress.strKey := by
  intro a b h
  have hbytes : strKeyBytes a.version a.payload = strKeyBytes b.version b.payload := by
    rw [ScAddress.strKey, ScAddress.strKey, base32Text_eq, base32Text_eq] at h
    exact Base32.encode_injective h
  have hlength : ∀ a : ScAddress, a.payload.length = 32 := by
    intro a
    cases a <;> exact Vector.length_toList
  rw [strKeyBytes, strKeyBytes] at hbytes
  obtain ⟨hversion, hrest⟩ := List.cons.inj hbytes
  have hpayload : a.payload = b.payload :=
    (List.append_inj hrest ((hlength a).trans (hlength b).symm)).1
  cases a with
  | account key =>
    cases b with
    | account key' => exact congrArg _ (Vector.toList_inj.1 hpayload)
    | contract hash => exact absurd (show (6 * 8 : UInt8) = 2 * 8 from hversion) (by decide)
  | contract hash =>
    cases b with
    | account key => exact absurd (show (2 * 8 : UInt8) = 6 * 8 from hversion) (by decide)
    | contract hash' => exact congrArg _ (Vector.toList_inj.1 hpayload)

theorem mem_alphabet_of_mem_strKey {a : ScAddress} {c : Char} (h : c ∈ a.strKey.toList) :
    c ∈ Base32.alphabet := by
  rw [ScAddress.strKey, base32Text_eq] at h
  exact Base32.mem_alphabet_of_mem_encode h

end Soroban
