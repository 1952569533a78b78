import CompliancePrimitives.Contracts.Pausable
import CompliancePrimitives.Foundation.Quorum
import CompliancePrimitives.Foundation.Run

/-!
# The `multisig-admin` contract

An M-of-N account contract. Its own authorization — the one `add_signer`, `remove_signer`,
`update_threshold`, `pause`, `unpause` and `upgrade` ask for — is decided by its `__check_auth`,
which the host calls with the list of approving addresses supplied by the transaction
(`Env.selfEntry`). The host may withhold it, but it never grants it against `__check_auth`: this is
`requireSelfAuth`, the single place where the two meet.

Proposals are a second, on-chain approval trail next to that: `propose`, `approve` and `execute`
ask for no authorization of the contract itself, `approve` alone asks for the approver's.

All state is instance storage. `Signers` and `Threshold` are two separate slots, and their absence
is a value the code branches on, so both are options.
-/

namespace MultisigAdmin

open Soroban

/-- `Proposal`. -/
structure Proposal (Address : Type) where
  /-- What is proposed, as bytes the contract does not look into. -/
  payload : Bytes
  /-- Ledger sequence at which the proposal expires. -/
  expiry : ℕ
  /-- Who has approved it, in the order of the approvals. -/
  approvals : List Address
  deriving DecidableEq

/-- The contract's events. -/
inductive Event (Address : Type) where
  | signerAdded (signer : Address)
  | signerRemoved (signer : Address)
  | thresholdSet (threshold : ℕ)
  | authOk (validCount threshold : ℕ)
  | contractPausedEvent
  | contractUnpausedEvent
  | upgraded (newWasmHash : Bytes32)
  | propExec (proposalId : ℕ)
  deriving DecidableEq

/-- `Error`. -/
inductive Error where
  | notInitialized
  | alreadyInitialized
  | thresholdNotMet
  | invalidThreshold
  | signerNotFound
  | alreadySigner
  | duplicateSignature
  | contractPaused
  | proposalNotFound
  | expiredProposal
  | duplicateSigner
  | notASigner
  | alreadyApproved
  deriving DecidableEq, Repr

/-- Instance storage, with the time to live all of it shares and the events published so far. -/
structure State (Address : Type) where
  /-- `Signers`. Absent before `initialize`. -/
  signers : Option (List Address)
  /-- `Threshold`. -/
  threshold : Option ℕ
  /-- `Proposal(id)`. Removed when it is executed. -/
  proposals : ℕ → Option (Proposal Address)
  /-- `NextProposalId`. What is absent counts as 0. -/
  nextProposalId : Option ℕ
  /-- What the pausable crate keeps. -/
  pausable : Pausable.State
  /-- The ledger the instance lives until. -/
  liveUntil : ℕ
  /-- What was published, first to last. -/
  events : List (Event Address)

/-- The storage of an instance deployed to live until `liveUntil`. -/
def deploy {Address : Type} (liveUntil : ℕ) : State Address where
  signers := none
  threshold := none
  proposals := fun _ ↦ none
  nextProposalId := none
  pausable := .fresh
  liveUntil := liveUntil
  events := []

/-- One invocation's view of the host. `auths` answers for the addresses given in arguments and
signature lists; `selfEntry` is the signature list supplied for the contract's own authorization,
if the host has one to pass to `__check_auth`. -/
structure Env (Address : Type) extends Soroban.Env Address where
  selfEntry : Option (List Address)

def instanceTtlThreshold : ℕ := 17280

def instanceTtlExtendTo : ℕ := 518400

section Operations

variable {Address : Type} [DecidableEq Address]

/-- An operation of the contract. -/
abbrev Op (Address α : Type) := Tx Error (State Address) α

def publish (e : Event Address) : Op Address Unit :=
  Tx.modify fun s ↦ { s with events := s.events ++ [e] }

def extendInstanceTtl (env : Env Address) : Op Address Unit :=
  Tx.modify fun s ↦
    { s with
      liveUntil := extendTtl instanceTtlThreshold instanceTtlExtendTo env.sequence s.liveUntil }

def requireNotPaused : Op Address Unit :=
  Pausable.requireNotPausedOr State.pausable .contractPaused

/-! ### The custom-account interface -/

/-- One round of the counting loop of `__check_auth`: the address must have authorized the call,
and counts if it is a signer. -/
def countSignature (env : Env Address) (signers : List Address) (validCount : ℕ)
    (sigAddr : Address) : Op Address ℕ := do
  requireAuth env.toEnv sigAddr
  -- an address that is no signer is skipped here, but it did have to authorize
  pure (if sigAddr ∈ signers then validCount + 1 else validCount)

/-- `__check_auth`. -/
def checkAuth (env : Env Address) (signatures : List Address) : Op Address Unit := do
  let s ← Tx.get
  let signers ← Tx.okOr s.signers .notInitialized
  let threshold ← Tx.okOr s.threshold .notInitialized
  Tx.ensure (hasDuplicate signatures = false) .duplicateSignature
  let validCount ← signatures.foldlM (countSignature env signers) 0
  Tx.ensure (threshold ≤ validCount) .thresholdNotMet
  publish (.authOk validCount threshold)

/-- `env.current_contract_address().require_auth()`: the host passes the supplied signature list
to `__check_auth`, and traps the invocation if there is none or it is refused. -/
def requireSelfAuth (env : Env Address) : Op Address Unit :=
  match env.selfEntry with
  | none => Tx.trap
  | some signatures => (checkAuth env signatures).asHost

/-! ### Lifecycle -/

/-- `initialize`, a reserved word here. -/
def initialise (env : Env Address) (signers : List Address) (threshold : ℕ) : Op Address Unit := do
  let s ← Tx.get
  -- the threshold alone stands for being initialized
  Tx.ensure (s.threshold = none) .alreadyInitialized
  Tx.ensure (hasDuplicate signers = false) .duplicateSigner
  Tx.ensure (¬(threshold = 0 ∨ signers.length < threshold)) .invalidThreshold
  Tx.modify fun s ↦ { s with signers := some signers, threshold := some threshold }
  extendInstanceTtl env

/-- `pause`. -/
def pause (env : Env Address) : Op Address Unit := do
  requireSelfAuth env
  Tx.modify fun s ↦ { s with pausable := Pausable.pause env.toEnv s.pausable }
  extendInstanceTtl env
  publish .contractPausedEvent

/-- `unpause`. -/
def unpause (env : Env Address) : Op Address Unit := do
  requireSelfAuth env
  Tx.modify fun s ↦ { s with pausable := Pausable.unpause s.pausable }
  extendInstanceTtl env
  publish .contractUnpausedEvent

/-- `is_paused`. -/
def isPaused (s : State Address) : Bool := Pausable.isPaused s.pausable

/-- `upgrade`. The code swap itself is the host's; storage is untouched. -/
def upgrade (env : Env Address) (newWasmHash : Bytes32) : Op Address Unit := do
  let s ← Tx.get
  Tx.ensure (s.threshold.isSome = true) .notInitialized
  requireSelfAuth env
  publish (.upgraded newWasmHash)

/-! ### Signer-set management -/

/-- `add_signer`. -/
def addSigner (env : Env Address) (newSigner : Address) : Op Address Unit := do
  requireNotPaused
  requireSelfAuth env
  let s ← Tx.get
  let signers ← Tx.okOr s.signers .notInitialized
  Tx.ensure (newSigner ∉ signers) .alreadySigner
  Tx.modify fun s ↦ { s with signers := some (signers ++ [newSigner]) }
  extendInstanceTtl env
  publish (.signerAdded newSigner)

/-- `remove_signer`. The guard on the remaining count is checked after the removal, on the local
copy of the list. -/
def removeSigner (env : Env Address) (signer : Address) : Op Address Unit := do
  requireNotPaused
  requireSelfAuth env
  let s ← Tx.get
  let signers ← Tx.okOr s.signers .notInitialized
  let threshold ← Tx.okOr s.threshold .notInitialized
  let index ← Tx.okOr (signers.findIdx? (· == signer)) .signerNotFound
  let remaining := signers.eraseIdx index
  Tx.ensure (¬remaining.length < threshold) .invalidThreshold
  Tx.modify fun s ↦ { s with signers := some remaining }
  extendInstanceTtl env
  publish (.signerRemoved signer)

/-- `update_threshold`. -/
def updateThreshold (env : Env Address) (threshold : ℕ) : Op Address Unit := do
  requireNotPaused
  requireSelfAuth env
  let s ← Tx.get
  let signers ← Tx.okOr s.signers .notInitialized
  Tx.ensure (¬(threshold = 0 ∨ signers.length < threshold)) .invalidThreshold
  Tx.modify fun s ↦ { s with threshold := some threshold }
  extendInstanceTtl env
  publish (.thresholdSet threshold)

/-! ### Read-only accessors -/

/-- `get_signers`. -/
def getSigners (s : State Address) : List Address × ℕ :=
  (s.signers.getD [], s.threshold.getD 0)

/-- `get_threshold`. -/
def getThreshold (s : State Address) : ℕ := s.threshold.getD 0

/-- `get_proposal`. -/
def getProposal (s : State Address) (proposalId : ℕ) :
    Except Error (Bytes × ℕ × List Address) :=
  match s.proposals proposalId with
  | none => .error .proposalNotFound
  | some p => .ok (p.payload, p.expiry, p.approvals)

/-! ### Proposal workflow -/

/-- `propose`. The identifier counter is a `u64` and the crate is built with overflow checks, so
running out of identifiers traps. -/
def propose (env : Env Address) (payload : Bytes) (expiryLedger : ℕ) : Op Address ℕ := do
  requireNotPaused
  Tx.ensure (¬expiryLedger ≤ env.sequence) .expiredProposal
  let s ← Tx.get
  let proposalId := s.nextProposalId.getD 0
  Tx.ensure (s.signers.isSome = true) .notInitialized
  let proposal : Proposal Address := { payload, expiry := expiryLedger, approvals := [] }
  Tx.modify fun s ↦ { s with proposals := Function.update s.proposals proposalId (some proposal) }
  -- the increment overflows after the proposal is stored; the trap takes the write back
  Tx.orTrap (proposalId + 1 ≤ u64Max)
  Tx.modify fun s ↦ { s with nextProposalId := some (proposalId + 1) }
  extendInstanceTtl env
  pure proposalId

/-- `approve`. The answer compares the length of the approval list, not the number of current
signers in it, with the threshold. -/
def approve (env : Env Address) (proposalId : ℕ) (approver : Address) : Op Address Bool := do
  requireNotPaused
  requireAuth env.toEnv approver
  let s ← Tx.get
  let proposal ← Tx.okOr (s.proposals proposalId) .proposalNotFound
  Tx.ensure (¬proposal.expiry ≤ env.sequence) .expiredProposal
  let signers ← Tx.okOr s.signers .notInitialized
  Tx.ensure (approver ∈ signers) .notASigner
  Tx.ensure (approver ∉ proposal.approvals) .alreadyApproved
  let approvals := proposal.approvals ++ [approver]
  Tx.modify fun s ↦
    { s with
      proposals := Function.update s.proposals proposalId (some { proposal with approvals }) }
  extendInstanceTtl env
  let threshold ← Tx.okOr s.threshold .notInitialized
  pure (decide (threshold ≤ approvals.length))

/-- The approvals of a proposal that still come from current signers. -/
def validApprovalCount (signers : List Address) (proposal : Proposal Address) : ℕ :=
  proposal.approvals.countP fun approver ↦ decide (approver ∈ signers)

/-- `execute`. Not guarded by the pause flag, and asks for no authorization. -/
def execute (env : Env Address) (proposalId : ℕ) : Op Address Unit := do
  let s ← Tx.get
  let proposal ← Tx.okOr (s.proposals proposalId) .proposalNotFound
  Tx.ensure (¬proposal.expiry ≤ env.sequence) .expiredProposal
  let threshold ← Tx.okOr s.threshold .notInitialized
  let signers ← Tx.okOr s.signers .notInitialized
  -- unlike the answer of `approve`, approvals of removed signers do not count
  Tx.ensure (¬validApprovalCount signers proposal < threshold) .thresholdNotMet
  Tx.modify fun s ↦ { s with proposals := Function.update s.proposals proposalId none }
  extendInstanceTtl env
  publish (.propExec proposalId)

/-! ### The contract as a system -/

/-- A call of an entry point. `__check_auth` is one: the host makes it on behalf of any contract
that asks for this contract's authorization. -/
inductive Call (Address : Type) where
  | initialise (signers : List Address) (threshold : ℕ)
  | pause
  | unpause
  | upgrade (newWasmHash : Bytes32)
  | addSigner (newSigner : Address)
  | removeSigner (signer : Address)
  | updateThreshold (threshold : ℕ)
  | propose (payload : Bytes) (expiryLedger : ℕ)
  | approve (proposalId : ℕ) (approver : Address)
  | execute (proposalId : ℕ)
  | checkAuth (signatures : List Address)
  deriving DecidableEq

/-- The calls of the proposal workflow. -/
def Call.IsProposalCall {Address : Type} : Call Address → Prop
  | .propose _ _ | .approve _ _ | .execute _ => True
  | _ => False

/-- What an entry point returns. -/
inductive Value where
  | unit
  | proposalId (n : ℕ)
  | flag (b : Bool)
  deriving DecidableEq, Repr

/-- An invocation: a call, and the host's view it runs under. -/
structure Input (Address : Type) where
  env : Env Address
  call : Call Address

/-- Dispatch of a call to its entry point. -/
def invoke (env : Env Address) : Call Address → Op Address Value
  | .initialise signers threshold => do initialise env signers threshold; pure .unit
  | .pause => do pause env; pure .unit
  | .unpause => do unpause env; pure .unit
  | .upgrade newWasmHash => do upgrade env newWasmHash; pure .unit
  | .addSigner newSigner => do addSigner env newSigner; pure .unit
  | .removeSigner signer => do removeSigner env signer; pure .unit
  | .updateThreshold threshold => do updateThreshold env threshold; pure .unit
  | .propose payload expiryLedger => do
    let proposalId ← propose env payload expiryLedger
    pure (.proposalId proposalId)
  | .approve proposalId approver => do
    let reached ← approve env proposalId approver
    pure (.flag reached)
  | .execute proposalId => do execute env proposalId; pure .unit
  | .checkAuth signatures => do checkAuth env signatures; pure .unit

/-- The contract from its deployment on: a call that does not complete leaves no trace. -/
def system (liveUntil : ℕ) :
    System (State Address) (Input Address) (Except (Failure Error) Value) where
  start := deploy liveUntil
  exec i s := (invoke i.env i.call).commit s

end Operations

end MultisigAdmin
