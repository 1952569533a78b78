import CompliancePrimitives.Foundation.Transaction

/-!
# Signed 128-bit amounts

`i128` of the source, with its two operations that token contracts use. The contracts are built with
overflow checks, so a result out of range stops the invocation.

An amount is an integer with its range as a part of it, so no balance, allowance or argument is ever
out of range, and nothing has to be assumed of the amounts a call comes with. The two operations are
transactions: they complete exactly if the result is in range, and then with the sum or the
difference of the integers (`add_eq_ok_iff`, `sub_eq_ok_iff`).
-/

namespace Soroban

/-- `i128`. -/
abbrev I128 := {x : ℤ // -2 ^ 127 ≤ x ∧ x < 2 ^ 127}

namespace I128

/-- The amount `n`, or the largest there is. -/
def ofNat (n : ℕ) : I128 := ⟨(min n (2 ^ 127 - 1) : ℕ), by omega⟩

/-- `0`. -/
def zero : I128 := ofNat 0

@[simp] theorem coe_zero : ((zero : I128) : ℤ) = 0 := rfl

variable {ε σ : Type} {a b c : I128} {s s' : σ}

/-- An integer as an `i128`, if it is one. -/
def checked (x : ℤ) : Tx ε σ I128 :=
  if h : -2 ^ 127 ≤ x ∧ x < 2 ^ 127 then pure ⟨x, h⟩ else Tx.trap

/-- `a + b`. -/
def add (a b : I128) : Tx ε σ I128 := checked (a + b)

/-- `a - b`. -/
def sub (a b : I128) : Tx ε σ I128 := checked (a - b)

theorem checked_eq_ok_iff {x : ℤ} :
    (checked x : Tx ε σ I128) s = .ok (c, s') ↔ (c : ℤ) = x ∧ s' = s := by
  by_cases h : -2 ^ 127 ≤ x ∧ x < 2 ^ 127
  · rw [checked, dif_pos h, Tx.pure_eq_ok_iff, Subtype.ext_iff]
  · rw [checked, dif_neg h, Tx.trap_eq_ok_iff]
    exact ⟨False.elim, fun hc ↦ h (hc.1 ▸ c.2)⟩

@[simp]
theorem add_eq_ok_iff : (add a b : Tx ε σ I128) s = .ok (c, s') ↔ (c : ℤ) = a + b ∧ s' = s :=
  checked_eq_ok_iff

@[simp]
theorem sub_eq_ok_iff : (sub a b : Tx ε σ I128) s = .ok (c, s') ↔ (c : ℤ) = a - b ∧ s' = s :=
  checked_eq_ok_iff

end I128

end Soroban
