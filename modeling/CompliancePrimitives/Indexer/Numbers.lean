import CompliancePrimitives.Foundation.Binary64

/-!
# `Number` of a text

The built-in conversion of a text to a number, for the arguments of the command line. White space
around is dropped, and nothing at all is zero. What is left is a number in binary, octal or
hexadecimal digits behind `0b`, `0o` or `0x`, or a decimal one: a sign or none, digits with a point
among them or none, and an exponent or none. All are rounded to binary64.

An infinite number is `none`, as `NaN` is: what is asked of a number here is whether it is an
integer, and these are not. A whole number is read back from its digits (`toNumber_toString`).

The grammar is the language's for texts, which is not the one for source code: no separators between
digits, and a sign before a decimal number only. A value is a rational until all of its digits are
read, and is rounded once.
-/

namespace Indexer

open Binary64

/-- White space and the ends of lines. -/
def isStrWhiteSpace (c : Char) : Bool :=
  decide (c.toNat ∈ [0x09, 0x0A, 0x0B, 0x0C, 0x0D, 0x20, 0xA0, 0x1680, 0x2028, 0x2029, 0x202F,
    0x205F, 0x3000, 0xFEFF] ∨ 0x2000 ≤ c.toNat ∧ c.toNat ≤ 0x200A)

/-- A text without the white space around it. -/
def trimmed (cs : List Char) : List Char :=
  (cs.dropWhile isStrWhiteSpace).rdropWhile isStrWhiteSpace

/-- A sign, negative or not, and what comes after it. -/
def signOf : List Char → Bool × List Char
  | '+' :: cs => (false, cs)
  | '-' :: cs => (true, cs)
  | cs => (false, cs)

/-- The value of a digit, in a base up to 16. -/
def digitOf (base : ℕ) (c : Char) : Option ℕ :=
  let value :=
    if '0' ≤ c ∧ c ≤ '9' then c.toNat - 48
    else if 'a' ≤ c ∧ c ≤ 'f' then c.toNat - 87
    else if 'A' ≤ c ∧ c ≤ 'F' then c.toNat - 55
    else 16
  if value < base then some value else none

/-- `NonDecimalIntegerLiteral`. It has no sign. -/
def nonDecimalLiteral : List Char → Option ℚ
  | '0' :: c :: cs => do
    let base ← if c = 'b' ∨ c = 'B' then some 2 else if c = 'o' ∨ c = 'O' then some 8
      else if c = 'x' ∨ c = 'X' then some 16 else none
    let digits ← cs.mapM (digitOf base)
    if digits = [] then none
    else nearest (digits.foldl (fun value digit ↦ value * base + digit) 0 : ℕ)
  | _ => none

/-- `ExponentPart`, or nothing. -/
def exponentPart : List Char → Option ℤ
  | [] => some 0
  | c :: cs =>
    let (negative, digits) := signOf cs
    if (c = 'e' ∨ c = 'E') ∧ digits ≠ [] ∧ digits.all Char.isDigit = true then
      let value : ℤ := Nat.ofDigitChars 10 digits 0
      some (if negative then -value else value)
    else none

/-- The digits behind a point, if there is one, and what comes after them. -/
def fractionPart : List Char → List Char × List Char
  | '.' :: cs => (cs.takeWhile Char.isDigit, cs.dropWhile Char.isDigit)
  | cs => ([], cs)

/-- `StrUnsignedDecimalLiteral`. -/
def unsignedDecimalLiteral (cs : List Char) : Option ℚ := do
  let whole := cs.takeWhile Char.isDigit
  let (fraction, rest) := fractionPart (cs.dropWhile Char.isDigit)
  let exponent ← exponentPart rest
  if whole ++ fraction = [] then none
  else
    nearest (Nat.ofDigitChars 10 (whole ++ fraction) 0 * 10 ^ (exponent - fraction.length : ℤ))

/-- `StrDecimalLiteral`. -/
def decimalLiteral (cs : List Char) : Option ℚ :=
  let (negative, cs) := signOf cs
  (unsignedDecimalLiteral cs).map fun value ↦ if negative then -value else value

/-- `Number`. -/
def toNumber (text : String) : Option ℚ :=
  match trimmed text.toList with
  | [] => some 0
  | cs => (nonDecimalLiteral cs).or (decimalLiteral cs)

/-! ### Whole numbers -/

section

variable {c : Char} {cs : List Char}

theorem toNat_of_isDigit (h : c.isDigit = true) : 48 ≤ c.toNat ∧ c.toNat ≤ 57 := by
  rw [Char.isDigit, Bool.and_eq_true, decide_eq_true_eq, decide_eq_true_eq] at h
  exact ⟨h.1, h.2⟩

theorem isStrWhiteSpace_of_isDigit (h : c.isDigit = true) : isStrWhiteSpace c = false := by
  have hrange := toNat_of_isDigit h
  simp only [isStrWhiteSpace, decide_eq_false_iff_not, List.mem_cons, List.not_mem_nil,
    or_false]
  omega

theorem trimmed_of_digits (h : ∀ c ∈ cs, c.isDigit = true) : trimmed cs = cs := by
  have hspace : ∀ c ∈ cs, ¬isStrWhiteSpace c = true := fun c hc ↦
    Bool.eq_false_iff.1 (isStrWhiteSpace_of_isDigit (h c hc))
  have hfront : cs.dropWhile isStrWhiteSpace = cs := by
    cases cs with
    | nil => rfl
    | cons c cs => exact List.dropWhile_cons_of_neg (hspace c (.head _))
  rw [trimmed, hfront, List.rdropWhile_eq_self_iff]
  exact fun hne ↦ hspace _ (List.getLast_mem hne)

/-- Digits alone are no number in another base. -/
theorem nonDecimalLiteral_of_digits (h : ∀ c ∈ cs, c.isDigit = true) :
    nonDecimalLiteral cs = none := by
  unfold nonDecimalLiteral
  split
  · next c cs =>
    have hrange := toNat_of_isDigit (h c (.tail _ (.head _)))
    have hother : ∀ d : Char, 57 < d.toNat → c ≠ d := by
      rintro d hd rfl
      omega
    rw [if_neg (not_or.2 ⟨hother 'b' (by decide), hother 'B' (by decide)⟩),
      if_neg (not_or.2 ⟨hother 'o' (by decide), hother 'O' (by decide)⟩),
      if_neg (not_or.2 ⟨hother 'x' (by decide), hother 'X' (by decide)⟩)]
    rfl
  · rfl

theorem signOf_of_digits (h : ∀ c ∈ cs, c.isDigit = true) : signOf cs = (false, cs) := by
  unfold signOf
  split
  · exact absurd (h '+' (.head _)) (by decide)
  · exact absurd (h '-' (.head _)) (by decide)
  · rfl

theorem unsignedDecimalLiteral_of_digits (h : ∀ c ∈ cs, c.isDigit = true) (hne : cs ≠ []) :
    unsignedDecimalLiteral cs = nearest (Nat.ofDigitChars 10 cs 0 : ℕ) := by
  have hwhole : cs.takeWhile Char.isDigit = cs := List.takeWhile_eq_self_iff.2 h
  have hrest : cs.dropWhile Char.isDigit = [] := List.dropWhile_eq_nil_iff.2 h
  simp [unsignedDecimalLiteral, hwhole, hrest, fractionPart, exponentPart, hne]

/-- **A whole number is read back from its digits.** -/
theorem toNumber_toString {n : ℕ} (h : n < 2 ^ 53) : toNumber (toString n) = some (n : ℚ) := by
  have htext : (toString n).toList = Nat.toDigits 10 n := Nat.toList_repr
  have hdigits : ∀ c ∈ Nat.toDigits 10 n, c.isDigit = true := fun c hc ↦
    Nat.isDigit_of_mem_toDigits (by decide) le_rfl hc
  have hne : Nat.toDigits 10 n ≠ [] := Nat.toDigits_ne_nil
  have hdecimal : decimalLiteral (Nat.toDigits 10 n) = some (n : ℚ) := by
    rw [decimalLiteral, signOf_of_digits hdigits]
    simp [unsignedDecimalLiteral_of_digits hdigits hne, Nat.ofDigitChars_ten_toDigits,
      nearest_natCast h]
  unfold toNumber
  rw [htext, trimmed_of_digits hdigits]
  split
  · next hnil => exact absurd hnil hne
  · rw [nonDecimalLiteral_of_digits hdigits, Option.none_or, hdecimal]

end

/-- White space, a base, an exponent; and integers that are not told apart. -/
example :
    toNumber " 0x1F " = some 31 ∧ toNumber "-2.50e1" = some (-25) ∧ toNumber "1." = some 1 ∧
      toNumber "" = some 0 ∧ toNumber "." = none ∧ toNumber "1_000" = none ∧
      toNumber "9007199254740993" = some 9007199254740992 := by
  decide +kernel

end Indexer
