import CompliancePrimitives.Contracts.AllowlistToken.Model
import CompliancePrimitives.Contracts.CircuitBreaker
import CompliancePrimitives.Contracts.DenylistGate.Model
import CompliancePrimitives.Contracts.JurisdictionFlag
import CompliancePrimitives.Contracts.PolicyEngine

/-!
# A ledger of contract instances

A `World` says which contract, in which state, is deployed at each address. Calling an entry point
of an address that does not have it traps. `callees` answers what a policy engine asks by running
the code of the instance it is addressed to, with the three ways a callee can fail kept apart: a
trap of the callee or a typed error stops the engine, except behind `try_`.

The jurisdiction flag may publish an event when it is read, so asking it changes the world. It
changes nothing that is ever read again: `World.silent` forgets the events of flags, and putting
back a flag that differs in them only leaves it alone (`silent_put`).

A contract is called by its address only, so two addresses may have the same code and share nothing.
What a contract stores is reached through its own entry points, and no instance changes its kind.
-/

namespace Composition

open Soroban

/-- One deployed contract with its state. -/
inductive Instance (Address : Type) where
  | denylistGate (s : DenylistGate.State Address)
  | jurisdictionFlag (s : JurisdictionFlag.State Address)
  | allowlistToken (s : AllowlistToken.State Address)
  | circuitBreaker (s : CircuitBreaker.State Address)

/-- What is deployed where. -/
abbrev World (Address : Type) := Address → Option (Instance Address)

section

variable {Address : Type}

/-- The denylist gate deployed at an address. -/
def World.gate (w : World Address) (contract : Address) : Option (DenylistGate.State Address) :=
  match w contract with
  | some (.denylistGate s) => some s
  | _ => none

/-- The jurisdiction flag deployed at an address. -/
def World.flag (w : World Address) (contract : Address) :
    Option (JurisdictionFlag.State Address) :=
  match w contract with
  | some (.jurisdictionFlag s) => some s
  | _ => none

/-- The allowlist token deployed at an address. -/
def World.token (w : World Address) (contract : Address) : Option (AllowlistToken.State Address) :=
  match w contract with
  | some (.allowlistToken s) => some s
  | _ => none

/-- The circuit breaker deployed at an address. -/
def World.breaker (w : World Address) (contract : Address) :
    Option (CircuitBreaker.State Address) :=
  match w contract with
  | some (.circuitBreaker s) => some s
  | _ => none

variable [DecidableEq Address]

/-- Put an instance back after it has run. -/
def World.put (contract : Address) (i : Instance Address) (w : World Address) : World Address :=
  Function.update w contract (some i)

/-- How the deployed contracts answer a policy engine. -/
def callees (env : Env Address) : PolicyEngine.Callees Address (World Address) where
  check contract address :=
    Tx.within (fun w ↦ w.gate contract) (fun s ↦ World.put contract (.denylistGate s)) do
      let s ← Tx.get
      pure (DenylistGate.check s address)
  tryIsPermittedJurisdiction contract address allowedCodes :=
    Tx.attempt <|
      Tx.within (fun w ↦ w.flag contract) (fun s ↦ World.put contract (.jurisdictionFlag s))
        (JurisdictionFlag.isPermittedJurisdiction env address allowedCodes)
  isAllowed contract address :=
    Tx.within (fun w ↦ w.token contract) (fun s ↦ World.put contract (.allowlistToken s)) do
      let s ← Tx.get
      pure (AllowlistToken.isAllowed env.sequence s address)
  isFrozen contract :=
    Tx.call <|
      Tx.within (fun w ↦ w.breaker contract) (fun s ↦ World.put contract (.circuitBreaker s))
        CircuitBreaker.isFrozen

end

/-! ### What asking leaves alone -/

variable {Address : Type}

/-- An instance without the events of a flag. -/
def Instance.silent : Instance Address → Instance Address
  | .jurisdictionFlag s => .jurisdictionFlag { s with events := [] }
  | i => i

/-- The world without the events of flags. -/
def World.silent (w : World Address) : World Address := fun contract ↦
  (w contract).map Instance.silent

@[simp]
theorem gate_silent (w : World Address) (contract : Address) :
    w.silent.gate contract = w.gate contract := by
  rcases h : w contract with _ | i
  · simp [World.gate, World.silent, h]
  · cases i <;> simp [World.gate, World.silent, Instance.silent, h]

@[simp]
theorem flag_silent (w : World Address) (contract : Address) :
    w.silent.flag contract = (w.flag contract).map fun s ↦ { s with events := [] } := by
  rcases h : w contract with _ | i
  · simp [World.flag, World.silent, h]
  · cases i <;> simp [World.flag, World.silent, Instance.silent, h]

@[simp]
theorem token_silent (w : World Address) (contract : Address) :
    w.silent.token contract = w.token contract := by
  rcases h : w contract with _ | i
  · simp [World.token, World.silent, h]
  · cases i <;> simp [World.token, World.silent, Instance.silent, h]

@[simp]
theorem breaker_silent (w : World Address) (contract : Address) :
    w.silent.breaker contract = w.breaker contract := by
  rcases h : w contract with _ | i
  · simp [World.breaker, World.silent, h]
  · cases i <;> simp [World.breaker, World.silent, Instance.silent, h]

theorem gate_eq_some_iff {w : World Address} {contract : Address}
    {s : DenylistGate.State Address} :
    w.gate contract = some s ↔ w contract = some (.denylistGate s) := by
  rcases h : w contract with _ | i
  · simp [World.gate, h]
  · cases i <;> simp [World.gate, h]

theorem flag_eq_some_iff {w : World Address} {contract : Address}
    {s : JurisdictionFlag.State Address} :
    w.flag contract = some s ↔ w contract = some (.jurisdictionFlag s) := by
  rcases h : w contract with _ | i
  · simp [World.flag, h]
  · cases i <;> simp [World.flag, h]

theorem token_eq_some_iff {w : World Address} {contract : Address}
    {s : AllowlistToken.State Address} :
    w.token contract = some s ↔ w contract = some (.allowlistToken s) := by
  rcases h : w contract with _ | i
  · simp [World.token, h]
  · cases i <;> simp [World.token, h]

theorem breaker_eq_some_iff {w : World Address} {contract : Address}
    {s : CircuitBreaker.State Address} :
    w.breaker contract = some s ↔ w contract = some (.circuitBreaker s) := by
  rcases h : w contract with _ | i
  · simp [World.breaker, h]
  · cases i <;> simp [World.breaker, h]

variable [DecidableEq Address]

/-- Putting back an instance that differs in its events only is invisible to `silent`. -/
theorem silent_put {w : World Address} {contract : Address} {i j : Instance Address}
    (hw : w contract = some i) (hsilent : j.silent = i.silent) :
    (w.put contract j).silent = w.silent := by
  funext a
  by_cases ha : a = contract
  · subst ha
    simp [World.silent, World.put, hw, hsilent]
  · simp [World.silent, World.put, ha]

end Composition
