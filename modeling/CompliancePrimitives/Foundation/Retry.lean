import Mathlib

/-!
# How long a bounded retry goes on

Something is attempted, and attempted again after a failure that may be temporary, but only so many
times. Which attempt is the last one depends on which of them **stop** the retries, by success or by
a failure that is final: it is the first of these, or else the one after the last permitted retry
(`IsLast`). Attempts are numbered from zero, so `k` is the last one where `k + 1` were made.

There is exactly one such attempt (`exists_isLast`, `IsLast.eq`). Two ways to decide what stops the
retries make the same number of attempts exactly if they agree on the first attempt that either of
them stops at, unless it is the last that is permitted (`IsLast.eq_iff_agree`).
-/

namespace Retry

/-- **The last attempt.** It is permitted, no attempt before it stops the retries, and it does so
itself or is the last that is permitted. -/
structure IsLast (stops : ℕ → Prop) (retries k : ℕ) : Prop where
  /-- It is not beyond the last that is permitted. -/
  le : k ≤ retries
  /-- No attempt before it stops the retries. -/
  open_before : ∀ j < k, ¬stops j
  /-- It is the last that is permitted, or stops them. -/
  ends : k = retries ∨ stops k

variable {stops stops' : ℕ → Prop} {retries k k' p : ℕ}

/-- The last attempt, if some attempt stops: one less than the smaller of the number of permitted
attempts and the position of the first that stops. -/
theorem isLast_min (hp : stops p) (hfirst : ∀ j < p, ¬stops j) :
    IsLast stops retries (min retries p) where
  le := min_le_left retries p
  open_before j hj := hfirst j (hj.trans_le (min_le_right retries p))
  ends := by
    rcases le_total retries p with hle | hle
    · exact .inl (min_eq_left hle)
    · rw [min_eq_right hle]
      exact .inr hp

/-- If none stops, it is the last that is permitted. -/
theorem isLast_retries (hnone : ∀ j < retries, ¬stops j) : IsLast stops retries retries :=
  ⟨le_rfl, hnone, .inl rfl⟩

theorem exists_isLast (stops : ℕ → Prop) (retries : ℕ) : ∃ k, IsLast stops retries k := by
  induction retries with
  | zero => exact ⟨0, isLast_retries (by simp)⟩
  | succ retries ih =>
    obtain ⟨k, hk⟩ := ih
    by_cases hstops : stops k
    · exact ⟨k, hk.le.trans (Nat.le_succ _), hk.open_before, .inr hstops⟩
    · have hretries : k = retries := hk.ends.resolve_right hstops
      refine ⟨retries + 1, isLast_retries fun j hj ↦ ?_⟩
      rcases Nat.lt_succ_iff_lt_or_eq.1 hj with hlt | rfl
      · exact hk.open_before j (hretries ▸ hlt)
      · rwa [← hretries]

/-- An attempt that does not end the retries has one after it. -/
theorem IsLast.not_lt (h : IsLast stops retries k) (h' : IsLast stops retries k') : ¬k < k' := by
  intro hlt
  rcases h.ends with rfl | hstops
  · exact absurd h'.le (Nat.not_le.2 hlt)
  · exact h'.open_before k hlt hstops

/-- **There is only one.** -/
theorem IsLast.eq (h : IsLast stops retries k) (h' : IsLast stops retries k') : k = k' :=
  le_antisymm (Nat.not_lt.1 (h'.not_lt h)) (Nat.not_lt.1 (h.not_lt h'))

/-- If the ways agree wherever both are still open, the one does not stop before the other. -/
theorem IsLast.not_lt_of_agree (h : IsLast stops retries k) (h' : IsLast stops' retries k')
    (hagree : ∀ i < retries, (∀ j < i, ¬stops j ∧ ¬stops' j) → (stops i ↔ stops' i)) :
    ¬k < k' := by
  intro hlt
  have hpermitted : k < retries := hlt.trans_le h'.le
  have hstops : stops k := h.ends.resolve_left hpermitted.ne
  have hopen : ∀ j < k, ¬stops j ∧ ¬stops' j :=
    fun j hj ↦ ⟨h.open_before j hj, h'.open_before j (hj.trans hlt)⟩
  exact h'.open_before k hlt ((hagree k hpermitted hopen).1 hstops)

/-- **When two ways to stop make the same attempts.** -/
theorem IsLast.eq_iff_agree (h : IsLast stops retries k) (h' : IsLast stops' retries k') :
    k = k' ↔
      ∀ i < retries, (∀ j < i, ¬stops j ∧ ¬stops' j) → (stops i ↔ stops' i) := by
  constructor
  · rintro rfl i hi hopen
    have hle : i ≤ k := by
      by_contra hlt
      have hend : k ≠ retries := by omega
      exact (hopen k (Nat.not_le.1 hlt)).1 (h.ends.resolve_left hend)
    rcases hle.lt_or_eq with hlt | rfl
    · exact iff_of_false (h.open_before i hlt) (h'.open_before i hlt)
    · exact iff_of_true (h.ends.resolve_left hi.ne) (h'.ends.resolve_left hi.ne)
  · intro hagree
    have hagree' : ∀ i < retries, (∀ j < i, ¬stops' j ∧ ¬stops j) → (stops' i ↔ stops i) :=
      fun i hi hopen ↦ (hagree i hi fun j hj ↦ (hopen j hj).symm).symm
    exact le_antisymm (Nat.not_lt.1 (h'.not_lt_of_agree h hagree'))
      (Nat.not_lt.1 (h.not_lt_of_agree h' hagree))

end Retry
