import CompliancePrimitives.Composition.World

/-!
# The deployed contracts at work

`World.operate` runs one invocation of one deployed contract; an invocation addressed to a contract
of another kind does nothing. Over a sequence of operations every contract sees only those addressed
to it, so **each of them makes a run of its own** (`gate_operate`, `breaker_operate`): what is known
of the runs of a single contract holds of it among the others.

What an invocation sees of the host comes with it: the ledger, the timestamp and who authorizes. So
operations on different contracts share nothing but the addresses they are made to, and the order of
operations on two of them does not matter to either. Calls between contracts are not operations
here: an engine that asks other contracts runs them as part of its own invocation (`callees`).
-/

namespace Composition

open Soroban

/-- An invocation of a contract of one of the four kinds. -/
inductive Invocation (Address : Type) where
  | denylistGate (i : DenylistGate.Input Address)
  | jurisdictionFlag (i : JurisdictionFlag.Input Address)
  | allowlistToken (i : AllowlistToken.Input Address)
  | circuitBreaker (i : CircuitBreaker.Input Address)

/-- An invocation, and the contract it is addressed to. -/
structure Operation (Address : Type) where
  contract : Address
  invocation : Invocation Address

section

variable {Address : Type} [DecidableEq Address]

/-- Run an invocation on the instance it is addressed to. What does not complete leaves no trace. -/
def Instance.invoke (ext : AllowlistToken.Externals Address) :
    Invocation Address → Instance Address → Instance Address
  | .denylistGate i, .denylistGate s =>
    .denylistGate ((DenylistGate.invoke i.env i.call).commit s).2
  | .jurisdictionFlag i, .jurisdictionFlag s =>
    .jurisdictionFlag ((JurisdictionFlag.invoke i.env i.call).commit s).2
  | .allowlistToken i, .allowlistToken s =>
    .allowlistToken ((AllowlistToken.invoke ext i.env i.call).commit s).2
  | .circuitBreaker i, .circuitBreaker s =>
    .circuitBreaker ((CircuitBreaker.invoke i.env i.call).commit s).2
  | _, other => other

/-- Run an operation. -/
def World.operate (ext : AllowlistToken.Externals Address) (op : Operation Address)
    (w : World Address) : World Address :=
  match w op.contract with
  | none => w
  | some i => w.put op.contract (i.invoke ext op.invocation)

/-- What an operation asks of the denylist gate at an address. -/
def Operation.gateInput (gate : Address) (op : Operation Address) :
    Option (DenylistGate.Input Address) :=
  match op.invocation with
  | .denylistGate i => if op.contract = gate then some i else none
  | _ => none

/-- What an operation asks of the circuit breaker at an address. -/
def Operation.breakerInput (breaker : Address) (op : Operation Address) :
    Option (CircuitBreaker.Input Address) :=
  match op.invocation with
  | .circuitBreaker i => if op.contract = breaker then some i else none
  | _ => none

variable {ext : AllowlistToken.Externals Address} {w : World Address} {op : Operation Address}

theorem operate_of_ne {a : Address} (h : a ≠ op.contract) : w.operate ext op a = w a := by
  rw [World.operate]
  cases w op.contract with
  | none => rfl
  | some i => exact Function.update_of_ne h _ _

theorem operate_self : w.operate ext op op.contract =
    (w op.contract).map fun i ↦ i.invoke ext op.invocation := by
  rw [World.operate]
  rcases h : w op.contract with _ | i
  · exact h
  · exact Function.update_self _ _ _

/-- **A gate moves by what is addressed to it.** -/
theorem gate_operate (gate : Address) : (w.operate ext op).gate gate =
    (w.gate gate).map fun s ↦
      (op.gateInput gate).elim s fun i ↦ (DenylistGate.system.exec i s).2 := by
  by_cases hgate : gate = op.contract
  · subst hgate
    rw [World.gate, World.gate, operate_self]
    rcases w op.contract with _ | s | s | s | s <;>
      rcases hop : op.invocation with i | i | i | i <;>
        simp [Operation.gateInput, hop, Instance.invoke, DenylistGate.system]
  · have hinput : op.gateInput gate = none := by
      rcases hop : op.invocation <;> simp [Operation.gateInput, hop, Ne.symm hgate]
    simp [World.gate, operate_of_ne hgate, hinput]

/-- **A breaker moves by what is addressed to it.** -/
theorem breaker_operate (liveUntil : ℕ) (breaker : Address) : (w.operate ext op).breaker breaker =
    (w.breaker breaker).map fun s ↦
      (op.breakerInput breaker).elim s fun i ↦ ((CircuitBreaker.system liveUntil).exec i s).2 := by
  by_cases hbreaker : breaker = op.contract
  · subst hbreaker
    rw [World.breaker, World.breaker, operate_self]
    rcases w op.contract with _ | s | s | s | s <;>
      rcases hop : op.invocation with i | i | i | i <;>
        simp [Operation.breakerInput, hop, Instance.invoke, CircuitBreaker.system]
  · have hinput : op.breakerInput breaker = none := by
      rcases hop : op.invocation <;> simp [Operation.breakerInput, hop, Ne.symm hbreaker]
    simp [World.breaker, operate_of_ne hbreaker, hinput]

end

end Composition
