import CompliancePrimitives.Host.Env

/-!
# The shared pause switch

The `pausable` crate: a flag with the timestamp and the optional reason of the pause, embedded in
the instance storage of the contracts that use it. Its functions are total on the storage; only the
two `require` guards can stop an invocation, and they do so with an error the caller chooses.

The contracts store the switch among their own slots, and their models hold a `State` of this module
for it. Two of the functions write nothing when the switch is already set, which is what keeps the
first timestamp and the first reason of a pause.
-/

namespace Pausable

/-- The three instance-storage slots of the crate. -/
structure State where
  paused : Option Bool
  pausedSince : Option ℕ
  pauseReason : Option Soroban.Bytes
  deriving DecidableEq, Repr

/-- Storage in which nothing was ever written. -/
def State.fresh : State := ⟨none, none, none⟩

variable {Address : Type}

/-- `is_paused`: an absent flag reads as not paused. -/
def isPaused (s : State) : Bool := s.paused.getD false

/-- `pause`: a no-op when already paused. -/
def pause (env : Soroban.Env Address) (s : State) : State :=
  if isPaused s then s
  else { s with paused := some true, pausedSince := some env.timestamp }

/-- `pause_with_reason`: a no-op when already paused; without a reason, a stored one is left. -/
def pauseWithReason (env : Soroban.Env Address) (reason : Option Soroban.Bytes) (s : State) :
    State :=
  if isPaused s then s
  else
    { paused := some true
      pausedSince := some env.timestamp
      pauseReason := reason.orElse fun _ ↦ s.pauseReason }

/-- `unpause`: also clears the timestamp and the reason. -/
def unpause (_s : State) : State :=
  { paused := some false, pausedSince := none, pauseReason := none }

/-- `require_not_paused_or`. -/
def requireNotPausedOr {ε σ : Type} (switch : σ → State) (err : ε) : Tx ε σ Unit := do
  let s ← Tx.get
  Tx.ensure (isPaused (switch s) = false) err

@[simp]
theorem requireNotPausedOr_eq_ok_iff {ε σ : Type} {switch : σ → State} {err : ε} {s s' : σ}
    {u : Unit} :
    requireNotPausedOr switch err s = .ok (u, s') ↔ isPaused (switch s) = false ∧ s' = s := by
  simp [requireNotPausedOr, and_comm]

@[simp] theorem isPaused_fresh : isPaused .fresh = false := rfl

@[simp] theorem isPaused_pause (env : Soroban.Env Address) (s : State) :
    isPaused (pause env s) = true := by
  by_cases h : isPaused s = true <;> simp [pause, h]
  rfl

@[simp] theorem isPaused_unpause (s : State) : isPaused (unpause s) = false := rfl

end Pausable
