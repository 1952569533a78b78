import CompliancePrimitives.Foundation.Quorum
import CompliancePrimitives.Foundation.Run
import CompliancePrimitives.Host.Env

/-!
# The `denylist-gate` contract

A shared denylist, kept by an admin and optionally a compliance officer, with an optional audit log
and an optional M-of-N signer set.

The signer set is governed by its own members. `add_signer`, `remove_signer` and `set_threshold`
each record one approval of one **exact action**, and the action is applied by the call that brings
its approvals from current signers up to the threshold. Approvals of different actions accumulate
side by side, while the set they are counted against changes underneath them.

The audit log is another contract. It is called through `try_record`, so its answer cannot stop the
invocation; what it answers is the host's to say (`Env.auditAnswer`).
-/

namespace DenylistGate

open Soroban

/-- Largest batch of one invocation. -/
def maxBatchSize : ℕ := 45

/-- Minimum upgrade review window, in ledgers. -/
def minUpgradeDelayLedgers : ℕ := 17280

/-- `UpgradeState`. -/
structure UpgradeState where
  newWasm : Bytes32
  activatedAt : ℕ
  deriving DecidableEq

/-- `SignerSet`. -/
structure SignerSet (Address : Type) where
  signers : List Address
  threshold : ℕ
  deriving DecidableEq

/-- `SignerAction`. -/
inductive SignerAction (Address : Type) where
  | add (newSigner : Address)
  | remove (removed : Address)
  | setThreshold (newThreshold : ℕ)
  deriving DecidableEq

/-- One call of the audit log's `record`; the contract itself is the source. -/
structure RecordCall (Address : Type) where
  auditLog : Address
  kind : Symbol
  subject : Address
  detail : String
  deriving DecidableEq

/-- The contract's events. -/
inductive Event (Address : Type) where
  | denyAdd (address : Address)
  | denyRemove (address : Address)
  | auditLogFailed (kind : Symbol) (subject : Address)
  | multisigInitialized (threshold signerCount : ℕ)
  | signerApproved (signer : Address)
  | signerAdded (signer : Address)
  | signerRemoved (signer : Address)
  | thresholdChanged (oldThreshold newThreshold : ℕ)
  | adminTransferred (oldAdmin newAdmin : Address)
  | adminProposed (current proposed : Address)
  | adminProposalCancelled (current : Address)
  | upgradeProposed (admin : Address) (newWasm : Bytes32) (activatedAt : ℕ)
  | upgradeCancelled (admin : Address)
  | upgradeCommitted (admin : Address) (newWasm : Bytes32)
  | paused (admin : Address)
  | unpaused (admin : Address)
  | complianceOfficerSet (officer : Address)
  | complianceOfficerRevoked (officer : Address)
  | auditLogSet (auditLog : Address)
  deriving DecidableEq

/-- `Error`. -/
inductive Error where
  | notInitialized
  | alreadyInitialized
  | notAuthorized
  | contractPaused
  | batchTooLarge
  | thresholdNotMet
  | invalidThreshold
  | invalidSignerSet
  | signerNotInSet
  | upgradeNotReady
  | signerAlreadyExists
  | multisigNotEnabled
  | noPendingAdmin
  | pendingAdminMismatch
  | upgradeDelayTooShort
  deriving DecidableEq, Repr

/-- Storage, with what the invocations so far have emitted: events, calls of the audit log, and
code installations. -/
structure State (Address : Type) where
  /-- `Admin`. Absent before `initialize`. -/
  admin : Option Address
  /-- `PendingAdmin`: who may accept the role. -/
  pendingAdmin : Option Address
  /-- `Paused`. What is absent counts as not paused. -/
  paused : Option Bool
  /-- `ComplianceOfficer`. -/
  complianceOfficer : Option Address
  /-- `AuditLog`: the log that changes are recorded with, if there is one. -/
  auditLog : Option Address
  /-- `SignerSet`. Absent before `initialize_multisig`. -/
  signerSet : Option (SignerSet Address)
  /-- `Denied(address)`. What is absent counts as not denied. -/
  denied : Address → Option Bool
  /-- `PendingUpgrade`. -/
  pendingUpgrade : Option UpgradeState
  /-- `PendingSignerAction(action)`: who has approved the action so far. -/
  pendingSignerAction : SignerAction Address → Option (List Address)
  /-- What was published, first to last. -/
  events : List (Event Address)
  /-- The calls of `record`, first to last, whether the log took them or not. -/
  records : List (RecordCall Address)
  /-- The code that was installed, first to last. -/
  installed : List Bytes32

/-- The storage of a fresh deployment. -/
def deploy {Address : Type} : State Address where
  admin := none
  pendingAdmin := none
  paused := none
  complianceOfficer := none
  auditLog := none
  signerSet := none
  denied := fun _ ↦ none
  pendingUpgrade := none
  pendingSignerAction := fun _ ↦ none
  events := []
  records := []
  installed := []

/-- One invocation's view of the host. -/
structure Env (Address : Type) extends Soroban.Env Address where
  /-- Whether the audit log accepts a `record` call. -/
  auditAnswer : RecordCall Address → Bool

section Operations

variable {Address : Type} [DecidableEq Address]

/-- An operation of the contract. -/
abbrev Op (Address α : Type) := Tx Error (State Address) α

def publish (e : Event Address) : Op Address Unit :=
  Tx.modify fun s ↦ { s with events := s.events ++ [e] }

/-! ### Private helpers -/

/-- `require_admin`. -/
def requireAdmin (env : Env Address) (admin : Address) : Op Address Unit :=
  requireStored env.toEnv State.admin .notInitialized .notAuthorized admin

/-- `require_compliance_authority`: the admin, or the compliance officer if there is one. -/
def requireComplianceAuthority (env : Env Address) (caller : Address) : Op Address Unit := do
  requireAuth env.toEnv caller
  let s ← Tx.get
  let admin ← Tx.okOr s.admin .notInitialized
  Tx.ensure (admin = caller ∨ s.complianceOfficer = some caller) .notAuthorized

/-- `reject_if_paused`. -/
def rejectIfPaused : Op Address Unit := do
  let s ← Tx.get
  Tx.ensure (s.paused.getD false = false) .contractPaused

/-- `record_audit`: best-effort. -/
def recordAudit (env : Env Address) (kind : Symbol) (subject : Address) (detail : String) :
    Op Address Unit := do
  let s ← Tx.get
  match s.auditLog with
  | none => pure ()
  | some auditLog =>
    let call : RecordCall Address := { auditLog, kind, subject, detail }
    Tx.modify fun s ↦ { s with records := s.records ++ [call] }
    if env.auditAnswer call then pure () else publish (.auditLogFailed kind subject)

/-! ### Administration -/

/-- `initialize`, a reserved word here. -/
def initialise (env : Env Address) (admin : Address) : Op Address Unit := do
  let s ← Tx.get
  Tx.ensure (s.admin = none) .alreadyInitialized
  requireAuth env.toEnv admin
  Tx.modify fun s ↦ { s with admin := some admin, paused := some false }

/-- `set_compliance_officer`. -/
def setComplianceOfficer (env : Env Address) (admin officer : Address) : Op Address Unit := do
  requireAdmin env admin
  Tx.modify fun s ↦ { s with complianceOfficer := some officer }
  publish (.complianceOfficerSet officer)

/-- `revoke_compliance_officer`: silent when there is no officer. -/
def revokeComplianceOfficer (env : Env Address) (admin : Address) : Op Address Unit := do
  requireAdmin env admin
  let s ← Tx.get
  match s.complianceOfficer with
  | none => pure ()
  | some officer =>
    Tx.modify fun s ↦ { s with complianceOfficer := none }
    publish (.complianceOfficerRevoked officer)

/-- `set_audit_log`. -/
def setAuditLog (env : Env Address) (admin auditLog : Address) : Op Address Unit := do
  requireAdmin env admin
  Tx.modify fun s ↦ { s with auditLog := some auditLog }
  publish (.auditLogSet auditLog)

/-- `clear_audit_log`: no event. -/
def clearAuditLog (env : Env Address) (admin : Address) : Op Address Unit := do
  requireAdmin env admin
  Tx.modify fun s ↦ { s with auditLog := none }

/-- `propose_admin`. -/
def proposeAdmin (env : Env Address) (currentAdmin newAdmin : Address) : Op Address Unit := do
  requireAdmin env currentAdmin
  Tx.modify fun s ↦ { s with pendingAdmin := some newAdmin }
  publish (.adminProposed currentAdmin newAdmin)

/-- `accept_admin`. -/
def acceptAdmin (env : Env Address) (newAdmin : Address) : Op Address Unit := do
  requireAuth env.toEnv newAdmin
  let s ← Tx.get
  let pendingAdmin ← Tx.okOr s.pendingAdmin .noPendingAdmin
  Tx.ensure (pendingAdmin = newAdmin) .pendingAdminMismatch
  let oldAdmin ← Tx.okOr s.admin .notInitialized
  Tx.modify fun s ↦ { s with admin := some newAdmin, pendingAdmin := none }
  publish (.adminTransferred oldAdmin newAdmin)

/-- `cancel_admin_proposal`. -/
def cancelAdminProposal (env : Env Address) (currentAdmin : Address) : Op Address Unit := do
  requireAdmin env currentAdmin
  let s ← Tx.get
  Tx.ensure (s.pendingAdmin.isSome = true) .noPendingAdmin
  Tx.modify fun s ↦ { s with pendingAdmin := none }
  publish (.adminProposalCancelled currentAdmin)

/-- `transfer_admin`: single-step, and clears a pending proposal. -/
def transferAdmin (env : Env Address) (currentAdmin newAdmin : Address) : Op Address Unit := do
  requireAdmin env currentAdmin
  Tx.modify fun s ↦ { s with admin := some newAdmin, pendingAdmin := none }
  publish (.adminTransferred currentAdmin newAdmin)

/-- `pause`. -/
def pause (env : Env Address) (admin : Address) : Op Address Unit := do
  requireAdmin env admin
  Tx.modify fun s ↦ { s with paused := some true }
  publish (.paused admin)

/-- `unpause`. -/
def unpause (env : Env Address) (admin : Address) : Op Address Unit := do
  requireAdmin env admin
  Tx.modify fun s ↦ { s with paused := some false }
  publish (.unpaused admin)

/-! ### Upgrades -/

/-- `propose_upgrade`. -/
def proposeUpgrade (env : Env Address) (admin : Address) (newWasm : Bytes32)
    (delayLedgers : ℕ) : Op Address Unit := do
  requireAdmin env admin
  Tx.ensure (¬delayLedgers < minUpgradeDelayLedgers) .upgradeDelayTooShort
  let state : UpgradeState := { newWasm, activatedAt := saturatingAdd env.sequence delayLedgers }
  Tx.modify fun s ↦ { s with pendingUpgrade := some state }
  publish (.upgradeProposed admin newWasm state.activatedAt)

/-- `commit_upgrade`. -/
def commitUpgrade (env : Env Address) (admin : Address) : Op Address Unit := do
  requireAdmin env admin
  let s ← Tx.get
  let state ← Tx.okOr s.pendingUpgrade .upgradeNotReady
  Tx.ensure (¬env.sequence < state.activatedAt) .upgradeNotReady
  Tx.modify fun s ↦
    { s with installed := s.installed ++ [state.newWasm], pendingUpgrade := none }
  publish (.upgradeCommitted admin state.newWasm)

/-- `cancel_upgrade`: also when nothing is pending. -/
def cancelUpgrade (env : Env Address) (admin : Address) : Op Address Unit := do
  requireAdmin env admin
  Tx.modify fun s ↦ { s with pendingUpgrade := none }
  publish (.upgradeCancelled admin)

/-! ### The denylist -/

/-- `add_to_denylist`. -/
def addToDenylist (env : Env Address) (admin address : Address) : Op Address Unit := do
  rejectIfPaused
  requireComplianceAuthority env admin
  Tx.modify fun s ↦ { s with denied := Function.update s.denied address (some true) }
  publish (.denyAdd address)
  recordAudit env "deny_add" address "address added to denylist"

/-- `remove_from_denylist`. -/
def removeFromDenylist (env : Env Address) (admin address : Address) : Op Address Unit := do
  rejectIfPaused
  requireComplianceAuthority env admin
  Tx.modify fun s ↦ { s with denied := Function.update s.denied address none }
  publish (.denyRemove address)
  recordAudit env "deny_remove" address "address removed from denylist"

/-- One round of the loop of `remove_multiple_from_denylist`. -/
def removeDenied (address : Address) : Op Address Unit := do
  Tx.modify fun s ↦ { s with denied := Function.update s.denied address none }
  publish (.denyRemove address)

/-- `remove_multiple_from_denylist`: makes no `record` call. -/
def removeMultipleFromDenylist (env : Env Address) (admin : Address) (addresses : List Address) :
    Op Address Unit := do
  rejectIfPaused
  requireComplianceAuthority env admin
  Tx.ensure (¬maxBatchSize < addresses.length) .batchTooLarge
  addresses.foldlM (fun _ address ↦ removeDenied address) ()

/-! ### The signer set -/

/-- `initialize_multisig`. -/
def initializeMultisig (env : Env Address) (admin : Address) (signers : List Address)
    (threshold : ℕ) : Op Address Unit := do
  requireAdmin env admin
  let s ← Tx.get
  Tx.ensure (s.signerSet.isSome = false) .alreadyInitialized
  Tx.ensure (signers.isEmpty = false) .invalidSignerSet
  Tx.ensure (¬(threshold = 0 ∨ signers.length < threshold)) .invalidThreshold
  Tx.ensure (hasDuplicate signers = false) .invalidSignerSet
  Tx.modify fun s ↦ { s with signerSet := some { signers, threshold } }
  publish (.multisigInitialized threshold signers.length)

/-- `require_signer`. -/
def requireSigner (env : Env Address) (caller : Address) : Op Address (SignerSet Address) := do
  requireAuth env.toEnv caller
  let s ← Tx.get
  let signerSet ← Tx.okOr s.signerSet .multisigNotEnabled
  Tx.ensure (caller ∈ signerSet.signers) .notAuthorized
  pure signerSet

/-- The stored approvals of `action`, with the caller's appended unless it is among them. -/
def collect (s : State Address) (action : SignerAction Address) (caller : Address) :
    List Address :=
  let approvals := (s.pendingSignerAction action).getD []
  if caller ∈ approvals then approvals else approvals ++ [caller]

/-- The approvals that come from signers still in the set. -/
def valid (signerSet : SignerSet Address) (approvals : List Address) : ℕ :=
  approvals.countP fun approver ↦ decide (approver ∈ signerSet.signers)

/-- The last part of `approve`: the action has its approvals and takes effect. -/
def apply (signerSet : SignerSet Address) : SignerAction Address → Op Address Unit
  | .add newSigner => do
    Tx.modify fun s ↦
      { s with signerSet := some { signerSet with signers := signerSet.signers ++ [newSigner] } }
    publish (.signerAdded newSigner)
  | .remove removed => do
    let remaining := signerSet.signers.filter fun signer ↦ decide (signer ≠ removed)
    Tx.modify fun s ↦ { s with signerSet := some { signerSet with signers := remaining } }
    publish (.signerRemoved removed)
  | .setThreshold newThreshold => do
    -- the only check left for the moment of application
    Tx.ensure (¬(newThreshold = 0 ∨ signerSet.signers.length < newThreshold)) .invalidThreshold
    Tx.modify fun s ↦ { s with signerSet := some { signerSet with threshold := newThreshold } }
    publish (.thresholdChanged signerSet.threshold newThreshold)

/-- `approve`. Below the threshold the approvals are stored; at the threshold they are cleared and
the action is applied. An application that fails takes the clearing back with it. -/
def approve (caller : Address) (action : SignerAction Address) (signerSet : SignerSet Address) :
    Op Address Unit := do
  let s ← Tx.get
  let approvals := collect s action caller
  publish (.signerApproved caller)
  if valid signerSet approvals < signerSet.threshold then
    Tx.modify fun s ↦
      { s with
        pendingSignerAction := Function.update s.pendingSignerAction action (some approvals) }
  else do
    Tx.modify fun s ↦
      { s with pendingSignerAction := Function.update s.pendingSignerAction action none }
    -- the set the caller was checked against, not one read again
    apply signerSet action

/-- `add_signer`. -/
def addSigner (env : Env Address) (caller newSigner : Address) : Op Address Unit := do
  let signerSet ← requireSigner env caller
  Tx.ensure (newSigner ∉ signerSet.signers) .signerAlreadyExists
  approve caller (.add newSigner) signerSet

/-- `remove_signer`. -/
def removeSigner (env : Env Address) (caller signerToRemove : Address) : Op Address Unit := do
  let signerSet ← requireSigner env caller
  Tx.ensure (signerToRemove ∈ signerSet.signers) .signerNotInSet
  Tx.ensure (¬signerSet.signers.length ≤ 1) .invalidSignerSet
  Tx.ensure (¬signerSet.signers.length - 1 < signerSet.threshold) .invalidThreshold
  approve caller (.remove signerToRemove) signerSet

/-- `set_threshold`: the bounds are checked when the action is applied, not here. -/
def setThreshold (env : Env Address) (caller : Address) (newThreshold : ℕ) : Op Address Unit := do
  let signerSet ← requireSigner env caller
  approve caller (.setThreshold newThreshold) signerSet

/-! ### Read-only entry points -/

/-- `get_admin`. -/
def getAdmin (s : State Address) : Except Error Address :=
  match s.admin with
  | none => .error .notInitialized
  | some admin => .ok admin

/-- `check`: `true` when the address is clear to transact. -/
def check (s : State Address) (address : Address) : Bool :=
  !(s.denied address).getD false

/-- `is_compliant`. -/
def isCompliant (s : State Address) (address : Address) : Bool := check s address

/-- `is_denylisted`. -/
def isDenylisted (s : State Address) (address : Address) : Bool := !check s address

/-- `signers`. -/
def signers (s : State Address) : List Address :=
  match s.signerSet with
  | none => []
  | some set => set.signers

/-! ### The contract as a system -/

/-- A call of an entry point that can change something; the read-only ones are functions of the
state. -/
inductive Call (Address : Type) where
  | initialise (admin : Address)
  | setComplianceOfficer (admin officer : Address)
  | revokeComplianceOfficer (admin : Address)
  | setAuditLog (admin auditLog : Address)
  | clearAuditLog (admin : Address)
  | proposeAdmin (currentAdmin newAdmin : Address)
  | acceptAdmin (newAdmin : Address)
  | cancelAdminProposal (currentAdmin : Address)
  | transferAdmin (currentAdmin newAdmin : Address)
  | proposeUpgrade (admin : Address) (newWasm : Bytes32) (delayLedgers : ℕ)
  | commitUpgrade (admin : Address)
  | cancelUpgrade (admin : Address)
  | pause (admin : Address)
  | unpause (admin : Address)
  | addToDenylist (admin address : Address)
  | removeFromDenylist (admin address : Address)
  | removeMultipleFromDenylist (admin : Address) (addresses : List Address)
  | initializeMultisig (admin : Address) (signers : List Address) (threshold : ℕ)
  | addSigner (caller newSigner : Address)
  | removeSigner (caller signerToRemove : Address)
  | setThreshold (caller : Address) (newThreshold : ℕ)
  deriving DecidableEq

/-- An invocation: a call, and the host's view it runs under. -/
structure Input (Address : Type) where
  env : Env Address
  call : Call Address

/-- Dispatch of a call to its entry point. -/
def invoke (env : Env Address) : Call Address → Op Address Unit
  | .initialise admin => initialise env admin
  | .setComplianceOfficer admin officer => setComplianceOfficer env admin officer
  | .revokeComplianceOfficer admin => revokeComplianceOfficer env admin
  | .setAuditLog admin auditLog => setAuditLog env admin auditLog
  | .clearAuditLog admin => clearAuditLog env admin
  | .proposeAdmin currentAdmin newAdmin => proposeAdmin env currentAdmin newAdmin
  | .acceptAdmin newAdmin => acceptAdmin env newAdmin
  | .cancelAdminProposal currentAdmin => cancelAdminProposal env currentAdmin
  | .transferAdmin currentAdmin newAdmin => transferAdmin env currentAdmin newAdmin
  | .proposeUpgrade admin newWasm delayLedgers => proposeUpgrade env admin newWasm delayLedgers
  | .commitUpgrade admin => commitUpgrade env admin
  | .cancelUpgrade admin => cancelUpgrade env admin
  | .pause admin => pause env admin
  | .unpause admin => unpause env admin
  | .addToDenylist admin address => addToDenylist env admin address
  | .removeFromDenylist admin address => removeFromDenylist env admin address
  | .removeMultipleFromDenylist admin addresses => removeMultipleFromDenylist env admin addresses
  | .initializeMultisig admin signers threshold => initializeMultisig env admin signers threshold
  | .addSigner caller newSigner => addSigner env caller newSigner
  | .removeSigner caller signerToRemove => removeSigner env caller signerToRemove
  | .setThreshold caller newThreshold => setThreshold env caller newThreshold

/-- The contract from its deployment on: a call that does not complete leaves no trace. -/
def system : System (State Address) (Input Address) (Except (Failure Error) Unit) where
  start := deploy
  exec i s := (invoke i.env i.call).commit s

end Operations

end DenylistGate
