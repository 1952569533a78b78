import CompliancePrimitives.Foundation.Transaction

/-!
# Metered transactions

A transaction that runs beside a meter. A `Meter` says what of its states is the meter's reading and
what is left when the meter is forgotten, and `Tx.charge` advances a counter by one. Then
`Tx.Metered m n x y` says two things of a start at once: with the meter forgotten `x` runs as `y`
does, and the meter advances by no more than `n`. So a bound on the reading is a bound on how often
`y` does what is charged for, and the rules below are those of a cost: what follows adds up, and a
loop costs its rounds.

A transaction that fails leaves no reading, as it leaves no state, so the bound speaks of those that
complete. For a count that survives a failure there is `Tally`.
-/

/-- A meter kept beside states `τ`, in states `τ'`. -/
structure Meter (τ' τ : Type) where
  /-- The state, without the meter. -/
  forget : τ' → τ
  /-- What the meter shows. -/
  reading : τ' → ℕ

namespace Meter

variable {τ' τ : Type}

/-- A counter. -/
def counter (τ : Type) : Meter (τ × ℕ) τ where
  forget := Prod.fst
  reading := Prod.snd

/-- A meter of the second half of a state. -/
def beside (ρ : Type) (m : Meter τ' τ) : Meter (ρ × τ') (ρ × τ) where
  forget p := (p.1, m.forget p.2)
  reading p := m.reading p.2

end Meter

namespace Tx

variable {ε ρ τ' τ α β : Type}

/-- Run `x`, and count it. -/
def charge (x : Tx ε τ α) : Tx ε (τ × ℕ) α := fun p ↦
  match x p.1 with
  | .ok (a, t) => .ok (a, t, p.2 + 1)
  | .error e => .error e

/-- From `p`, `x` is `y` with a meter that advances by at most `n`. -/
def Metered (m : Meter τ' τ) (n : ℕ) (x : Tx ε τ' α) (y : Tx ε τ α) (p : τ') : Prop :=
  match x p with
  | .ok (a, p') => y (m.forget p) = .ok (a, m.forget p') ∧ m.reading p' ≤ m.reading p + n
  | .error e => y (m.forget p) = .error e

section

variable {m : Meter τ' τ} {n n' : ℕ} {x : Tx ε τ' α} {y : Tx ε τ α} {p p' : τ'} {a : α}

theorem metered_of_ok (hx : x p = .ok (a, p')) (hy : y (m.forget p) = .ok (a, m.forget p'))
    (hn : m.reading p' ≤ m.reading p + n) : Metered m n x y p := by
  rw [Metered, hx]
  exact ⟨hy, hn⟩

theorem metered_of_error {e : Failure ε} (hx : x p = .error e)
    (hy : y (m.forget p) = .error e) : Metered m n x y p := by
  rw [Metered, hx]
  exact hy

/-- A metered transaction that completes. -/
theorem Metered.ok (h : Metered m n x y p) (hx : x p = .ok (a, p')) :
    y (m.forget p) = .ok (a, m.forget p') ∧ m.reading p' ≤ m.reading p + n := by
  rwa [Metered, hx] at h

/-- A metered transaction that does not. -/
theorem Metered.error {e : Failure ε} (h : Metered m n x y p) (hx : x p = .error e) :
    y (m.forget p) = .error e := by
  rwa [Metered, hx] at h

theorem Metered.mono (h : Metered m n x y p) (hn : n ≤ n') : Metered m n' x y p := by
  rcases hx : x p with e | ⟨a, p'⟩
  · exact metered_of_error hx (h.error hx)
  · obtain ⟨hy, hreading⟩ := h.ok hx
    exact metered_of_ok hx hy (hreading.trans (Nat.add_le_add_left hn _))

theorem metered_pure (a : α) (n : ℕ) : Metered m n (pure a) (pure a : Tx ε τ α) p :=
  metered_of_ok rfl rfl (Nat.le_add_right _ _)

/-- **What follows adds up.** -/
theorem Metered.bind {k : α → Tx ε τ' β} {l : α → Tx ε τ β} (hx : Metered m n x y p)
    (hk : ∀ a p', x p = .ok (a, p') → Metered m n' (k a) (l a) p') :
    Metered m (n + n') (x >>= k) (y >>= l) p := by
  rcases h : x p with e | ⟨a, p'⟩
  · exact metered_of_error (bind_of_error h) (bind_of_error (hx.error h))
  obtain ⟨hy, hreading⟩ := hx.ok h
  rcases h' : k a p' with e | ⟨b, p''⟩
  · exact metered_of_error ((bind_of_ok h).trans h') ((bind_of_ok hy).trans ((hk a p' h).error h'))
  · obtain ⟨hl, hreading'⟩ := (hk a p' h).ok h'
    refine metered_of_ok ((bind_of_ok h).trans h') ((bind_of_ok hy).trans hl) ?_
    omega

/-- Only the first half is charged for. -/
theorem Metered.bind_pure (hx : Metered m n x y p) (f : α → β) :
    Metered m n (x >>= fun a ↦ pure (f a)) (y >>= fun a ↦ pure (f a)) p :=
  (hx.bind fun _ _ _ ↦ metered_pure _ 0).mono le_rfl

/-- **A loop costs its rounds.** -/
theorem metered_foldlM {k : β → α → Tx ε τ' β} {l : β → α → Tx ε τ β}
    (hround : ∀ b a p, Metered m n (k b a) (l b a) p) (items : List α) (b : β) (p : τ') :
    Metered m (items.length * n) (items.foldlM k b) (items.foldlM l b) p := by
  induction items generalizing b p with
  | nil => exact metered_pure b _
  | cons a items ih =>
    rw [List.foldlM_cons, List.foldlM_cons, List.length_cons, Nat.succ_mul, Nat.add_comm]
    exact (hround b a p).bind fun b' p' _ ↦ ih b' p'

/-- What is charged for costs one. -/
theorem metered_charge (x : Tx ε τ α) (p : τ × ℕ) : Metered (.counter τ) 1 (charge x) x p := by
  rcases h : x p.1 with e | ⟨a, t⟩
  · exact metered_of_error (by rw [charge, h]) h
  · have hcharge : charge x p = .ok (a, t, p.2 + 1) := by rw [charge, h]
    exact metered_of_ok hcharge h le_rfl

/-- Work on the half without the meter is free. -/
theorem metered_onFst (x : Tx ε ρ α) (p : ρ × τ') :
    Metered (m.beside ρ) 0 (onFst x) (onFst x) p := by
  rcases h : x p.1 with e | ⟨a, s⟩
  · exact metered_of_error (within_of_error rfl h) (within_of_error rfl h)
  · have hrun : onFst x p = .ok (a, s, p.2) := onFst_eq_ok_iff.2 ⟨h, rfl⟩
    exact metered_of_ok hrun (onFst_eq_ok_iff.2 ⟨h, rfl⟩) le_rfl

theorem Metered.onSnd {p : ρ × τ'} (h : Metered m n x y p.2) :
    Metered (m.beside ρ) n (Tx.onSnd x) (Tx.onSnd y) p := by
  rcases hx : x p.2 with e | ⟨a, t⟩
  · exact metered_of_error (onSnd_of_error hx) (onSnd_of_error (h.error hx))
  · obtain ⟨hy, hreading⟩ := h.ok hx
    have hrun : Tx.onSnd x p = .ok (a, p.1, t) := onSnd_eq_ok_iff.2 ⟨hx, rfl⟩
    exact metered_of_ok hrun (onSnd_eq_ok_iff.2 ⟨hy, rfl⟩) hreading

end

end Tx
