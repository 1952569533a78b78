import CompliancePrimitives.Foundation.Run
import Mathlib

/-!
# Bookkeeping

Accounts hold amounts, and every step of a system adds an **entry** to them: a finitely supported
function that says what each account gains, losses being negative. Nothing here depends on what
makes an entry, or on whether an account may go below zero.

Two facts follow for whole runs from the same one for a step. An account holds what it started with
and the sum of what the steps added to it (`System.booked`), and all accounts together hold the sum
of the entries' totals (`System.total_booked`). What one account gains in a stretch of a run, under
whatever holds there, is `System.accumulated`. The total of an entry is its `Finsupp.degree`; a
movement between two accounts has total zero (`degree_movement`), and an entry that favours one
account alone is its whole amount.

There may be infinitely many accounts: a system that starts with none funded has only finitely many
funded ones at any time, and `∑ᶠ` is the sum over those.
-/

namespace Bookkeeping

variable {α A : Type} [AddCommGroup A]

/-- What moving an amount between two accounts adds to each. -/
noncomputable def movement (source target : α) (amount : A) : α →₀ A :=
  Finsupp.single target amount - Finsupp.single source amount

/-- **A movement creates nothing.** -/
@[simp]
theorem degree_movement (source target : α) (amount : A) :
    (movement source target amount).degree = 0 := by
  rw [movement, map_sub, Finsupp.degree_single, Finsupp.degree_single, sub_self]

theorem movement_apply_of_ne {source target a : α} (amount : A) (hsource : a ≠ source)
    (htarget : a ≠ target) : movement source target amount a = 0 := by
  rw [movement, Finsupp.sub_apply, Finsupp.single_eq_of_ne htarget,
    Finsupp.single_eq_of_ne hsource, sub_zero]

theorem movement_apply_source {source target : α} (amount : A) (hne : source ≠ target) :
    movement source target amount source = -amount := by
  rw [movement, Finsupp.sub_apply, Finsupp.single_eq_of_ne hne, Finsupp.single_eq_same, zero_sub]

theorem movement_apply_target {source target : α} (amount : A) (hne : source ≠ target) :
    movement source target amount target = amount := by
  rw [movement, Finsupp.sub_apply, Finsupp.single_eq_same, Finsupp.single_eq_of_ne hne.symm,
    sub_zero]

/-- The total of a list of entries is the sum of their totals. -/
theorem degree_sum (entries : List (α →₀ A)) :
    entries.sum.degree = (entries.map Finsupp.degree).sum :=
  map_list_sum Finsupp.degree entries

/-- The finitely many funded accounts together. -/
theorem finsum_coe (entry : α →₀ A) : ∑ᶠ a, entry a = entry.degree := by
  refine finsum_eq_sum_of_support_subset _ fun a ha ↦ ?_
  simpa using ha

end Bookkeeping

namespace System

variable {σ ι ρ α A : Type} [AddCommGroup A] (M : System σ ι ρ)
  {entry : Step σ ι ρ → α →₀ A}

/-- What the steps of a history added to each account. -/
noncomputable def booking (entry : Step σ ι ρ → α →₀ A) (h : List (Step σ ι ρ)) : α →₀ A :=
  (h.map entry).sum

@[simp]
theorem booking_nil (entry : Step σ ι ρ → α →₀ A) : booking entry [] = 0 := rfl

@[simp]
theorem booking_cons (entry : Step σ ι ρ → α →₀ A) (e : Step σ ι ρ) (h : List (Step σ ι ρ)) :
    booking entry (e :: h) = entry e + booking entry h := by
  rw [booking, List.map_cons, List.sum_cons, booking]

/-- **What an account holds.** If every step adds its entry, a run adds the sum of the entries. -/
theorem booked (view : σ → α → A)
    (hstep : ∀ s i a, view (M.exec i s).2 a = view s a + entry (M.stepFrom s i) a) (is : List ι)
    (a : α) :
    view (M.final is) a = view M.start a + booking entry (M.history is) a := by
  induction is with
  | nil => simp
  | cons i is ih =>
    rw [final_cons, hstep, ih, history_cons, booking_cons, Finsupp.add_apply]
    abel

/-- **What all accounts hold together**, if they were empty at the start. -/
theorem total_booked (view : σ → α → A)
    (hstep : ∀ s i a, view (M.exec i s).2 a = view s a + entry (M.stepFrom s i) a)
    (hstart : ∀ a, view M.start a = 0) (is : List ι) :
    ∑ᶠ a, view (M.final is) a = ((M.history is).map fun e ↦ (entry e).degree).sum := by
  have hview : view (M.final is) = booking entry (M.history is) := by
    funext a
    rw [M.booked view hstep is a, hstart, zero_add]
  rw [hview, Bookkeeping.finsum_coe, booking, Bookkeeping.degree_sum, List.map_map]
  rfl

/-- **What a stretch adds to one amount.** Under an invariant `P` and a condition `C` on the steps,
if every step adds its part then the stretch adds the sum of the parts. -/
theorem accumulated (view : σ → A) (part : Step σ ι ρ → A) {P : σ → Prop} {C : Step σ ι ρ → Prop}
    {s : σ} {during : List ι} (hs : P s)
    (hstep : ∀ t i, P t → C (M.stepFrom t i) →
      P (M.exec i t).2 ∧ view (M.exec i t).2 = view t + part (M.stepFrom t i))
    (hC : ∀ e ∈ (M.startingAt s).history during, C e) :
    view ((M.startingAt s).final during) =
      view s + (((M.startingAt s).history during).map part).sum := by
  induction during with
  | nil => simp
  | cons i during ih =>
    have hinv := (M.stretch_induction hs (fun t i ht hi ↦ (hstep t i ht hi).1)
      ((List.forall_mem_cons.1 hC).2)).1
    rw [history_cons, List.forall_mem_cons] at hC
    rw [final_cons, history_cons, List.map_cons, List.sum_cons, add_left_comm, ← ih hC.2,
      add_comm (part _)]
    exact (hstep _ i hinv hC.1).2

end System
