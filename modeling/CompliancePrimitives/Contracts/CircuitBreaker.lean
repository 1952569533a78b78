import CompliancePrimitives.Foundation.Run
import CompliancePrimitives.Host.Env

/-!
# The `circuit-breaker` contract

An incident-wide stop. The admin or any guardian may freeze; only the admin may unfreeze. A breaker
that was never initialized answers `is_frozen` with an error rather than with `false`, so that a
consumer cannot mistake it for an open one.

The contract calls an audit log after each change, under a storage key which no entry point writes:
`auditLog` is absent in every state the contract reaches. Unlike `denylist-gate` it would not
survive a failing log. The call in `freeze` names an identifier that is not in scope there; the
model takes the caller.
-/

namespace CircuitBreaker

open Soroban

/-- The remaining time to live below which it is extended. -/
def instanceTtlThreshold : ℕ := 120960

/-- The remaining time to live after an extension. -/
def instanceTtlExtendTo : ℕ := 1555200

/-- The contract's events. -/
inductive Event (Address : Type) where
  | frozen (caller : Address)
  | unfrozen (admin : Address)
  | adminProposed (current proposed : Address)
  | adminProposalCancelled (current : Address)
  | adminTransferred (newAdmin oldAdmin : Address)
  | upgradePerformed (admin : Address) (newWasmHash : Bytes32)
  deriving DecidableEq

/-- `Error`. -/
inductive Error where
  | notInitialized
  | alreadyInitialized
  | notAuthorized
  | noPendingAdmin
  | pendingAdminMismatch
  deriving DecidableEq, Repr

/-- One call of the audit log's `record`; the contract itself is the source. -/
structure RecordCall (Address : Type) where
  auditLog : Address
  kind : Symbol
  subject : Address
  detail : String
  deriving DecidableEq

/-- Instance storage, with the time to live all of it shares and what was emitted so far. -/
structure State (Address : Type) where
  admin : Option Address
  frozen : Option Bool
  pendingAdmin : Option Address
  guardians : Option (List Address)
  auditLog : Option Address
  liveUntil : ℕ
  events : List (Event Address)
  records : List (RecordCall Address)
  installed : List Bytes32
  deriving DecidableEq

/-- The storage of an instance deployed to live until `liveUntil`. -/
def deploy {Address : Type} (liveUntil : ℕ) : State Address where
  admin := none
  frozen := none
  pendingAdmin := none
  guardians := none
  auditLog := none
  liveUntil := liveUntil
  events := []
  records := []
  installed := []

/-- One invocation's view of the host. -/
structure Env (Address : Type) extends Soroban.Env Address where
  /-- Whether the audit log accepts a `record` call. -/
  auditAnswer : RecordCall Address → Bool

section Operations

variable {Address : Type} [DecidableEq Address]

/-- An operation of the contract. -/
abbrev Op (Address α : Type) := Tx Error (State Address) α

def publish (e : Event Address) : Op Address Unit :=
  Tx.modify fun s ↦ { s with events := s.events ++ [e] }

def extendInstanceTtl (env : Env Address) : Op Address Unit :=
  Tx.modify fun s ↦
    { s with
      liveUntil := extendTtl instanceTtlThreshold instanceTtlExtendTo env.sequence s.liveUntil }

/-! ### Private helpers -/

/-- `guardians`. -/
def guardians (s : State Address) : List Address := s.guardians.getD []

/-- `require_admin`. -/
def requireAdmin (env : Env Address) (admin : Address) : Op Address Unit :=
  requireStored env.toEnv State.admin .notInitialized .notAuthorized admin

/-- `require_admin_or_guardian`. -/
def requireAdminOrGuardian (env : Env Address) (caller : Address) : Op Address Unit := do
  requireAuth env.toEnv caller
  let s ← Tx.get
  let storedAdmin ← Tx.okOr s.admin .notInitialized
  Tx.ensure (storedAdmin = caller ∨ caller ∈ guardians s) .notAuthorized

/-- `record_audit`: a failing log traps. -/
def recordAudit (env : Env Address) (kind : Symbol) (subject : Address) (detail : String) :
    Op Address Unit := do
  let s ← Tx.get
  match s.auditLog with
  | none => pure ()
  | some auditLog =>
    let call : RecordCall Address := { auditLog, kind, subject, detail }
    Tx.orTrap (env.auditAnswer call = true)
    Tx.modify fun s ↦ { s with records := s.records ++ [call] }

/-! ### Entry points -/

/-- `initialize`, a reserved word here. -/
def initialise (env : Env Address) (admin : Address) : Op Address Unit := do
  let s ← Tx.get
  Tx.ensure (s.admin = none) .alreadyInitialized
  requireAuth env.toEnv admin
  Tx.modify fun s ↦ { s with admin := some admin, frozen := some false }
  extendInstanceTtl env

/-- `freeze`: also when already frozen. -/
def freeze (env : Env Address) (caller : Address) : Op Address Unit := do
  requireAdminOrGuardian env caller
  Tx.modify fun s ↦ { s with frozen := some true }
  extendInstanceTtl env
  publish (.frozen caller)
  recordAudit env "freeze" caller "circuit breaker frozen"

/-- `unfreeze`: nothing happens when not frozen. -/
def unfreeze (env : Env Address) (admin : Address) : Op Address Unit := do
  requireAdmin env admin
  let s ← Tx.get
  if s.frozen.getD false = false then pure ()
  else do
    Tx.modify fun s ↦ { s with frozen := some false }
    extendInstanceTtl env
    publish (.unfrozen admin)
    recordAudit env "unfreeze" admin "circuit breaker unfrozen"

/-- `is_frozen`: an error, not `false`, before initialization. -/
def isFrozen : Op Address Bool := do
  let s ← Tx.get
  Tx.ensure (s.admin.isSome = true) .notInitialized
  pure (s.frozen.getD false)

/-- `add_guardian`: nothing happens for a guardian. -/
def addGuardian (env : Env Address) (admin guardian : Address) : Op Address Unit := do
  requireAdmin env admin
  let s ← Tx.get
  if guardian ∈ guardians s then pure ()
  else Tx.modify fun s ↦ { s with guardians := some (guardians s ++ [guardian]) }

/-- `remove_guardian`: nothing happens for anyone else. -/
def removeGuardian (env : Env Address) (admin guardian : Address) : Op Address Unit := do
  requireAdmin env admin
  let s ← Tx.get
  if guardian ∈ guardians s then
    Tx.modify fun s ↦
      { s with guardians := some ((guardians s).filter fun g ↦ decide (g ≠ guardian)) }
  else pure ()

/-- `is_guardian`. -/
def isGuardian (s : State Address) (address : Address) : Bool := decide (address ∈ guardians s)

/-- `propose_admin`. -/
def proposeAdmin (env : Env Address) (admin newAdmin : Address) : Op Address Unit := do
  requireAdmin env admin
  Tx.modify fun s ↦ { s with pendingAdmin := some newAdmin }
  publish (.adminProposed admin newAdmin)
  extendInstanceTtl env

/-- `accept_admin`. -/
def acceptAdmin (env : Env Address) (newAdmin : Address) : Op Address Unit := do
  requireAuth env.toEnv newAdmin
  let s ← Tx.get
  let pendingAdmin ← Tx.okOr s.pendingAdmin .noPendingAdmin
  Tx.ensure (pendingAdmin = newAdmin) .pendingAdminMismatch
  let oldAdmin ← Tx.okOr s.admin .notInitialized
  Tx.modify fun s ↦ { s with admin := some newAdmin, pendingAdmin := none }
  publish (.adminTransferred newAdmin oldAdmin)
  extendInstanceTtl env

/-- `upgrade`. -/
def upgrade (env : Env Address) (admin : Address) (newWasmHash : Bytes32) : Op Address Unit := do
  requireAdmin env admin
  publish (.upgradePerformed admin newWasmHash)
  Tx.modify fun s ↦ { s with installed := s.installed ++ [newWasmHash] }

/-- `cancel_admin_proposal`. -/
def cancelAdminProposal (env : Env Address) (admin : Address) : Op Address Unit := do
  requireAdmin env admin
  let s ← Tx.get
  Tx.ensure (s.pendingAdmin.isSome = true) .noPendingAdmin
  Tx.modify fun s ↦ { s with pendingAdmin := none }
  publish (.adminProposalCancelled admin)

/-! ### The contract as a system -/

/-- A call of an entry point that can change something. -/
inductive Call (Address : Type) where
  | initialise (admin : Address)
  | freeze (caller : Address)
  | unfreeze (admin : Address)
  | addGuardian (admin guardian : Address)
  | removeGuardian (admin guardian : Address)
  | proposeAdmin (admin newAdmin : Address)
  | acceptAdmin (newAdmin : Address)
  | upgrade (admin : Address) (newWasmHash : Bytes32)
  | cancelAdminProposal (admin : Address)
  deriving DecidableEq

/-- An invocation: a call, and the host's view it runs under. -/
structure Input (Address : Type) where
  env : Env Address
  call : Call Address

/-- Dispatch of a call to its entry point. -/
def invoke (env : Env Address) : Call Address → Op Address Unit
  | .initialise admin => initialise env admin
  | .freeze caller => freeze env caller
  | .unfreeze admin => unfreeze env admin
  | .addGuardian admin guardian => addGuardian env admin guardian
  | .removeGuardian admin guardian => removeGuardian env admin guardian
  | .proposeAdmin admin newAdmin => proposeAdmin env admin newAdmin
  | .acceptAdmin newAdmin => acceptAdmin env newAdmin
  | .upgrade admin newWasmHash => upgrade env admin newWasmHash
  | .cancelAdminProposal admin => cancelAdminProposal env admin

/-- The contract from its deployment on: a call that does not complete leaves no trace. -/
def system (liveUntil : ℕ) :
    System (State Address) (Input Address) (Except (Failure Error) Unit) where
  start := deploy liveUntil
  exec i s := (invoke i.env i.call).commit s

end Operations

end CircuitBreaker
