import CompliancePrimitives.Host.StrKey
import CompliancePrimitives.Indexer.AddressText

/-!
# Which addresses the indexer knows by their StrKey

`encodeG` writes the StrKey of an account (`rendered_account`). Two things are its own: a checksum
that shifts a byte at a time, where the standard divides bit by bit, and a base32 loop that keeps
its bits in a number.

A contract is known by its hexadecimal digits instead, so that its StrKey is not the text of
anything (`strKey_contract_ne_rendered`): it has 56 characters as the text of an account has, but
starts with `C`, and the digits of a contract are 64.

The StrKey itself is the standard's, in `Host/StrKey.lean`, and knows nothing of the indexer.
-/

namespace Indexer

open Encoding Soroban

/-! ### The checksum -/

/-- One bit of the checksum, on the register it stands for. -/
theorem crcShift_toNat (reg : BitVec 16) :
    crcShift reg.toNat = (Crc.shift crc16Poly reg).toNat := by
  have hmask : ∀ n : ℕ, n &&& 0xFFFF = n % 2 ^ 16 := fun n ↦ Nat.and_two_pow_sub_one_eq_mod n 16
  have hmsb : reg.toNat &&& 0x8000 ≠ 0 ↔ reg.msb = true := by
    have hbit : reg.toNat &&& 2 ^ 15 = (reg.toNat.testBit 15).toNat * 2 ^ 15 :=
      Nat.and_two_pow reg.toNat 15
    have hlast : reg.msb = reg.toNat.testBit 15 := by
      rw [BitVec.msb_eq_getLsbD_last, BitVec.testBit_toNat]
    rw [hlast]
    rw [show (0x8000 : ℕ) = 2 ^ 15 from rfl, hbit]
    cases reg.toNat.testBit 15 <;> simp
  rw [crcShift, Crc.shift, hmask, BitVec.toNat_xor, BitVec.toNat_shiftLeft]
  by_cases htop : reg.msb = true
  · rw [if_pos (hmsb.2 htop), if_pos htop, Nat.xor_mod_two_pow]
    rfl
  · rw [if_neg (mt hmsb.1 htop), if_neg htop, BitVec.toNat_ofNat, Nat.zero_mod, Nat.xor_zero]

theorem crcShift_iterate (n : ℕ) (reg : BitVec 16) :
    crcShift^[n] reg.toNat = ((Crc.shift crc16Poly)^[n] reg).toNat := by
  induction n generalizing reg with
  | zero => rfl
  | succ n ih => rw [Function.iterate_succ_apply, Function.iterate_succ_apply, crcShift_toNat, ih]

/-- The bits of a byte, at the top of the register. -/
theorem toNat_atTop_byteBits (byte : UInt8) :
    (Crc.atTop 16 (byteBits byte)).toNat = byte.toNat <<< 8 := by
  revert byte
  decide +kernel

/-- **The checksum is CRC-16/XMODEM.** -/
theorem crc16xmodem_eq (data : Bytes) : crc16xmodem data = (crc16 data).toNat := by
  have hfold : ∀ (data : Bytes) (reg : BitVec 16),
      data.foldl (fun crc b ↦ crcShift^[8] (crc ^^^ (b.toNat <<< 8))) reg.toNat =
        ((data.flatMap byteBits).foldl (Crc.push crc16Poly) reg).toNat := by
    intro data
    induction data with
    | nil => exact fun reg ↦ rfl
    | cons byte data ih =>
      intro reg
      have hbyte : crcShift^[8] (reg.toNat ^^^ (byte.toNat <<< 8)) =
          ((byteBits byte).foldl (Crc.push crc16Poly) reg).toNat := by
        have hshift := Crc.shift_iterate crc16Poly (byteBits byte) reg (by simp [byteBits])
        rw [← toNat_atTop_byteBits, ← BitVec.toNat_xor, crcShift_iterate, ← hshift]
        rfl
      rw [List.foldl_cons, hbyte, ih, List.flatMap_cons, List.foldl_append]
  exact hfold data 0#16

/-! ### Accounts and contracts -/

theorem base32Encode_eq (data : Bytes) : base32Encode data = base32Text data := by
  rw [base32Encode_eq_encode, base32Text_eq]

/-- `encodeG` writes a StrKey. -/
theorem encodeG_eq (raw : Bytes) : encodeG raw = base32Text (strKeyBytes 48 raw) := by
  have hlow : ∀ n : ℕ, n &&& 0xFF = n % 256 := fun n ↦ Nat.and_two_pow_sub_one_eq_mod n 8
  have hhigh : (crc16 (48 :: raw)).toNat / 256 % 256 = (crc16 (48 :: raw)).toNat / 256 := by
    have hlt := (crc16 (48 :: raw)).isLt
    omega
  rw [encodeG, base32Encode_eq, strKeyBytes]
  simp only [crc16xmodem_eq, hlow, Nat.shiftRight_eq_div_pow]
  rw [show (2 : ℕ) ^ 8 = 256 from rfl, hhigh]

/-- **An account is known by its StrKey.** -/
theorem rendered_account (key : Bytes32) :
    rendered (.account key) = (ScAddress.account key).strKey := encodeG_eq key.toList

/-- A StrKey has 56 characters. -/
theorem length_strKey (a : ScAddress) : a.strKey.toList.length = 56 := by
  have hpayload : a.payload.length = 32 := by
    cases a <;> exact Vector.length_toList
  rw [ScAddress.strKey, base32Text_eq, Base32.length_encode]
  simp only [strKeyBytes, List.length_append, List.length_cons, List.length_nil, hpayload]

/-- **The StrKey of a contract is the text of no address.** Hexadecimal digits are longer, and the
StrKey of an account has another version byte. -/
theorem strKey_contract_ne_rendered (hash : Bytes32) (a : ScAddress) :
    (ScAddress.contract hash).strKey ≠ rendered a := by
  intro heq
  cases a with
  | account key =>
    rw [rendered_account, ScAddress.strKey, ScAddress.strKey, ← base32Encode_eq,
      ← base32Encode_eq] at heq
    have hbytes := base32Encode_inj heq
    have hversion : (2 * 8 : UInt8) = 6 * 8 := (List.cons.inj hbytes).1
    exact absurd hversion (by decide)
  | contract hash' =>
    have hlength := congrArg (fun s : String ↦ s.toList.length) heq
    simp only [length_strKey, rendered, length_bufToHex, Vector.length_toList] at hlength
    omega

end Indexer
