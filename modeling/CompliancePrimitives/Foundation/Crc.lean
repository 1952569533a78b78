import Mathlib

/-!
# Checksums by long division

A cyclic redundancy check is the remainder of a message, read as a polynomial over the field of two
elements, by a fixed polynomial. `remainder` is the schoolbook division: it takes the message bit by
bit, and the register holds the remainder of what was taken so far.

Programs take a byte at a time: they put its bits at the top of the register and shift the register
eight times. `shift_iterate` says that this is the same, for any number of bits there is room for.
Nothing here depends on the width of the register or on the polynomial.

The register is a bit vector, so that shifting and the sum of polynomials are the operations the
programs have. A message that is put at the top of it (`atTop`) moves up with the register and meets
the polynomial bit by bit, which is what the induction is about.
-/

namespace Crc

variable {w : ℕ} (poly : BitVec w)

/-- The register moves up by one bit, and the polynomial is subtracted if one falls out. -/
def shift (reg : BitVec w) : BitVec w := (reg <<< 1) ^^^ (if reg.msb then poly else 0#w)

/-- The next bit of the message. -/
def push (reg : BitVec w) (bit : Bool) : BitVec w :=
  (reg <<< 1) ^^^ (if reg.msb ^^ bit then poly else 0#w)

/-- **The remainder of a message.** -/
def remainder (bits : List Bool) : BitVec w := bits.foldl (push poly) 0#w

/-- Bits at the top of a register, the first one highest. -/
def atTop (w : ℕ) : List Bool → BitVec w
  | [] => 0#w
  | bit :: bits => (if bit then BitVec.intMin w else 0#w) ^^^ (atTop w bits >>> 1)

theorem getLsbD_atTop_cons {bit : Bool} {bits : List Bool} {i : ℕ} (hi : i + 1 < w) :
    (atTop w (bit :: bits)).getLsbD i = (atTop w bits).getLsbD (i + 1) := by
  have htop : (if bit then BitVec.intMin w else 0#w).getLsbD i = false := by
    cases bit
    · exact BitVec.getLsbD_zero
    · rw [if_pos rfl, BitVec.getLsbD_intMin]
      exact decide_eq_false (by omega)
  rw [atTop, BitVec.getLsbD_xor, htop, BitVec.getLsbD_ushiftRight, Bool.false_xor, Nat.add_comm]

/-- Below the bits that were put there, a register is empty. -/
theorem getLsbD_atTop {bits : List Bool} {i : ℕ} (hi : i + bits.length < w) :
    (atTop w bits).getLsbD i = false := by
  induction bits generalizing i with
  | nil => exact BitVec.getLsbD_zero
  | cons bit bits ih =>
    rw [List.length_cons] at hi
    rw [getLsbD_atTop_cons (by omega), ih (by omega)]

/-- The first bit is on top. -/
theorem msb_atTop_cons {bit : Bool} {bits : List Bool} (hw : 0 < w) :
    (atTop w (bit :: bits)).msb = bit := by
  have htop : (if bit then BitVec.intMin w else 0#w).msb = bit := by
    cases bit
    · exact BitVec.msb_zero
    · rw [if_pos rfl, BitVec.msb_intMin]
      exact decide_eq_true hw
  have hrest : (atTop w bits >>> 1).msb = false := by
    rw [BitVec.msb_eq_getLsbD_last, BitVec.getLsbD_ushiftRight]
    exact BitVec.getLsbD_of_ge _ _ (by omega)
  rw [atTop, BitVec.msb_xor, htop, hrest, Bool.xor_false]

/-- **One shift takes one bit**, and the others move up. -/
theorem shift_xor_atTop {reg : BitVec w} {bit : Bool} {bits : List Bool}
    (hroom : bits.length < w) :
    shift poly (reg ^^^ atTop w (bit :: bits)) = push poly reg bit ^^^ atTop w bits := by
  have hmsb : (reg ^^^ atTop w (bit :: bits)).msb = (reg.msb ^^ bit) := by
    rw [BitVec.msb_xor, msb_atTop_cons (by omega)]
  have hmove : (reg ^^^ atTop w (bit :: bits)) <<< 1 = reg <<< 1 ^^^ atTop w bits := by
    refine BitVec.eq_of_getLsbD_eq fun i hi ↦ ?_
    rw [BitVec.getLsbD_shiftLeft, BitVec.getLsbD_xor, BitVec.getLsbD_xor, BitVec.getLsbD_shiftLeft]
    cases i with
    | zero =>
      have hlow : (atTop w bits).getLsbD 0 = false := getLsbD_atTop (by omega)
      simp [hlow]
    | succ i => simp [getLsbD_atTop_cons hi, hi]
  rw [shift, push, hmsb, hmove, BitVec.xor_assoc, BitVec.xor_assoc, BitVec.xor_comm (atTop w bits)]

/-- **A few bits at once**: put them on top, and shift as often. -/
theorem shift_iterate (bits : List Bool) (reg : BitVec w) (hroom : bits.length ≤ w) :
    (shift poly)^[bits.length] (reg ^^^ atTop w bits) = bits.foldl (push poly) reg := by
  induction bits generalizing reg with
  | nil => exact BitVec.xor_zero
  | cons bit bits ih =>
    rw [List.length_cons] at hroom ⊢
    rw [Function.iterate_succ_apply, shift_xor_atTop poly (by omega), ih _ (by omega),
      List.foldl_cons]

end Crc
