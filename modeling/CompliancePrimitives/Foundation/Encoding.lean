import Mathlib

/-!
# Standard encodings of numbers, text and bytes

The encoding halves of standards, for programs that have the other half, or a version of their own:
fixed-width big-endian numbers, UTF-8 text, base64 with padding, and the groups of five bits that
base32 writes. Each is given by the small facts a program is proved against — how long the result
is, how it splits, what it determines — and by nothing about any program.

Numbers are written with a fixed count of bytes, and what does not fit is cut off, so whoever wants
a number back says how large it may be. Base64 writes three bytes as four characters, and a rest of
one or two with padding.
-/

namespace Encoding

/-- What reads every symbol back reads a list of them back. -/
theorem mapM_map_eq_some {α β : Type} {read : β → Option α} {write : α → β} {l : List α}
    (h : ∀ a ∈ l, read (write a) = some a) : (l.map write).mapM read = some l := by
  induction l with
  | nil => rfl
  | cons a l ih =>
    obtain ⟨ha, hl⟩ := List.forall_mem_cons.1 h
    rw [List.map_cons, List.mapM_cons, ha, ih hl]
    rfl

/-! ### Numbers -/

/-- The low `width` bytes of a number, most significant first. -/
def bigEndian : (width : ℕ) → ℕ → List UInt8
  | 0, _ => []
  | width + 1, n => bigEndian width (n / 256) ++ [UInt8.ofNat n]

@[simp]
theorem length_bigEndian (width n : ℕ) : (bigEndian width n).length = width := by
  induction width generalizing n with
  | zero => rfl
  | succ width ih => simp [bigEndian, ih]

/-! ### Text -/

/-- The UTF-8 encoding of a text. -/
def utf8 (s : String) : List UInt8 := s.toList.flatMap String.utf8EncodeChar

/-- The bytes of one character, by the number of them. -/
theorem utf8EncodeChar_cases (c : Char) :
    (c.toNat ≤ 0x7F ∧ String.utf8EncodeChar c = [.ofNat c.toNat]) ∨
    (0x80 ≤ c.toNat ∧ c.toNat ≤ 0x7FF ∧
      String.utf8EncodeChar c =
        [.ofNat (c.toNat / 64 % 32 + 192), .ofNat (c.toNat % 64 + 128)]) ∨
    (0x800 ≤ c.toNat ∧ c.toNat ≤ 0xFFFF ∧
      String.utf8EncodeChar c =
        [.ofNat (c.toNat / 4096 % 16 + 224), .ofNat (c.toNat / 64 % 64 + 128),
          .ofNat (c.toNat % 64 + 128)]) ∨
    (0x10000 ≤ c.toNat ∧
      String.utf8EncodeChar c =
        [.ofNat (c.toNat / 262144 % 8 + 240), .ofNat (c.toNat / 4096 % 64 + 128),
          .ofNat (c.toNat / 64 % 64 + 128), .ofNat (c.toNat % 64 + 128)]) := by
  have hval : c.val.toNat = c.toNat := rfl
  by_cases h1 : c.toNat ≤ 0x7F
  · exact .inl ⟨h1, by simp [String.utf8EncodeChar, hval, h1]⟩
  by_cases h2 : c.toNat ≤ 0x7FF
  · exact .inr (.inl ⟨by omega, h2, by simp [String.utf8EncodeChar, hval, h1, h2]⟩)
  by_cases h3 : c.toNat ≤ 0xFFFF
  · exact .inr (.inr (.inl ⟨by omega, h3, by simp [String.utf8EncodeChar, hval, h1, h2, h3]⟩))
  · exact .inr (.inr (.inr ⟨by omega, by simp [String.utf8EncodeChar, hval, h1, h2, h3]⟩))

/-- A character is no surrogate, and below the limit of Unicode. -/
theorem toNat_range (c : Char) : c.toNat < 0xD800 ∨ (0xDFFF < c.toNat ∧ c.toNat < 0x110000) :=
  c.valid

/-! ### Base64 -/

/-- The groups of six bits of a byte string, the last one filled up with zeros. -/
def sextets : List UInt8 → List ℕ
  | a :: b :: c :: rest =>
    a.toNat / 4 :: (a.toNat % 4 * 16 + b.toNat / 16) :: (b.toNat % 16 * 4 + c.toNat / 64) ::
      c.toNat % 64 :: sextets rest
  | [a, b] => [a.toNat / 4, a.toNat % 4 * 16 + b.toNat / 16, b.toNat % 16 * 4]
  | [a] => [a.toNat / 4, a.toNat % 4 * 16]
  | [] => []

/-- The base64 alphabet. -/
def base64Digit (n : ℕ) : Char :=
  "ABCDEFGHIJKLMNOPQRSTUVWXYZabcdefghijklmnopqrstuvwxyz0123456789+/".toList.getD n 'A'

/-- The base64 text of a byte string, padded to a multiple of four characters. -/
def base64Encode (bytes : List UInt8) : String :=
  String.ofList ((sextets bytes).map base64Digit ++
    List.replicate ((4 - (sextets bytes).length % 4) % 4) '=')

theorem lt_of_mem_sextets : ∀ {bytes : List UInt8} {n : ℕ}, n ∈ sextets bytes → n < 64
  | a :: b :: c :: rest, n, h => by
    have ha := a.toNat_lt
    have hb := b.toNat_lt
    have hc := c.toNat_lt
    simp only [sextets, List.mem_cons] at h
    rcases h with rfl | rfl | rfl | rfl | h
    · omega
    · omega
    · omega
    · omega
    · exact lt_of_mem_sextets h
  | [a, b], n, h => by
    have ha := a.toNat_lt
    have hb := b.toNat_lt
    simp only [sextets, List.mem_cons, List.not_mem_nil, or_false] at h
    omega
  | [a], n, h => by
    have ha := a.toNat_lt
    simp only [sextets, List.mem_cons, List.not_mem_nil, or_false] at h
    omega
  | [], n, h => by simp [sextets] at h

/-- A single group of six bits is never left over. -/
theorem length_sextets_mod : ∀ bytes : List UInt8, (sextets bytes).length % 4 ≠ 1
  | a :: b :: c :: rest => by
    have ih := length_sextets_mod rest
    simp only [sextets, List.length_cons]
    omega
  | [a, b] => by simp [sextets]
  | [a] => by simp [sextets]
  | [] => by simp [sextets]

/-! ### Base32 -/

/-- The groups of five bits of a byte string, behind `bits` bits that are still to be written, as
the number `pending`. The last group is filled up with zeros. -/
def quintets : (bits pending : ℕ) → List UInt8 → List ℕ
  | bits, pending, [] => if 0 < bits then [pending * 2 ^ (5 - bits)] else []
  | bits, pending, byte :: data =>
    let n := pending * 256 + byte.toNat
    if bits < 2 then n / 2 ^ (bits + 3) :: quintets (bits + 3) (n % 2 ^ (bits + 3)) data
    else
      n / 2 ^ (bits + 3) :: (n / 2 ^ (bits - 2) % 32) ::
        quintets (bits - 2) (n % 2 ^ (bits - 2)) data

end Encoding
