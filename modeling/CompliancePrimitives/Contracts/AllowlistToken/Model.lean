import CompliancePrimitives.Foundation.Run
import CompliancePrimitives.Host.Env

/-!
# The `allowlist-token` contract

A wrapper which forwards transfers of an underlying token between allowlisted addresses. The admin
adds entries, directly or through `add_to_allowlist_delegated`: a relayer submits an addition that
the holder of a registered ed25519 key has signed, together with a nonce and an expiry.

Three things are not in this contract's code, and are parameters (`Externals`): rendering an address
as a string, ed25519 verification, and the guard `require_compliance_authority` of the removals,
whose definition the source lost. The lookup of `transfer` is there but for its ending: what it
makes of the value it has read is a fourth parameter, about which nothing is assumed.

A delegated addition is checked in the order of the source: the pause flag, the admin, the expiry,
the nonce, and last the signature, at which the host traps if it does not verify. The accepted nonce
is read and never written.
-/

namespace AllowlistToken

open Soroban

/-- Largest batch of one invocation. -/
def maxBatchSize : ℕ := 45

/-- Minimum upgrade review window, in ledgers. -/
def minUpgradeDelayLedgers : ℕ := 17280

/-- `AllowlistEntry`. -/
structure AllowlistEntry where
  expirationLedger : Option ℕ
  deriving DecidableEq, Repr

/-- `UpgradeState`. -/
structure UpgradeState where
  newWasm : Bytes32
  activatedAt : ℕ
  deriving DecidableEq

/-- One forwarded `transfer` of the underlying token. -/
structure TransferCall (Address : Type) where
  token : Address
  source : Address
  target : Address
  amount : ℤ
  deriving DecidableEq

/-- The contract's events. -/
inductive Event (Address : Type) where
  | allowAdd (address : Address)
  | allowRemove (address : Address)
  | blocked (source target : Address) (amount : ℤ)
  | adminTransferred (oldAdmin newAdmin : Address)
  | adminProposed (current proposed : Address)
  | upgradeProposed (admin : Address) (newWasm : Bytes32) (activatedAt : ℕ)
  | upgradeCancelled (admin : Address)
  | upgradeCommitted (admin : Address) (newWasm : Bytes32)
  | paused (admin : Address)
  | unpaused (admin : Address)
  deriving DecidableEq

/-- `Error`. The last one is returned by `propose_upgrade` but missing from the enumeration. -/
inductive Error where
  | notInitialized
  | alreadyInitialized
  | notAuthorized
  | invalidInput
  | contractPaused
  | noPendingAdmin
  | pendingAdminMismatch
  | delegationNotConfigured
  | invalidSignature
  | invalidNonce
  | expiredSignature
  | upgradeNotReady
  | batchTooLarge
  | upgradeDelayTooShort
  deriving DecidableEq, Repr

/-- Storage, with what the invocations so far have emitted: events, forwarded transfers, and code
installations. -/
structure State (Address : Type) where
  /-- `Admin`. Absent before `initialize`. -/
  admin : Option Address
  /-- `ComplianceOfficer`. -/
  complianceOfficer : Option Address
  /-- `Token`: where transfers are forwarded to. -/
  token : Option Address
  /-- `Allowed(address)`, with its expiry if it has one. -/
  allowed : Address → Option AllowlistEntry
  /-- `Paused`. What is absent counts as not paused. -/
  paused : Option Bool
  /-- `PendingAdmin`: who may accept the role. -/
  pendingAdmin : Option Address
  /-- `DelegatedAdminPubKey`. -/
  delegatedAdminPubKey : Option Bytes32
  /-- `DelegatedNonce(admin)`, which no entry point writes. -/
  delegatedNonce : Address → Option ℕ
  /-- `PendingUpgrade`. -/
  pendingUpgrade : Option UpgradeState
  /-- What was published, first to last. -/
  events : List (Event Address)
  /-- The transfers the token took, first to last. -/
  transfers : List (TransferCall Address)
  /-- The code that was installed, first to last. -/
  installed : List Bytes32

/-- The storage of a fresh deployment. -/
def deploy {Address : Type} : State Address where
  admin := none
  complianceOfficer := none
  token := none
  allowed := fun _ ↦ none
  paused := none
  pendingAdmin := none
  delegatedAdminPubKey := none
  delegatedNonce := fun _ ↦ none
  pendingUpgrade := none
  events := []
  transfers := []
  installed := []

/-- What the contract relies on and this model does not define. -/
structure Externals (Address : Type) where
  /-- `Address::to_string`. -/
  addressString : Address → String
  /-- `verify_sig_ed25519` of a key, a message and a signature. -/
  verifySig : Bytes32 → Bytes → Bytes64 → Bool
  /-- Whether `require_compliance_authority` lets a caller pass, given who authorizes. -/
  complianceAuthority : State Address → (Address → Bool) → Address → Bool
  /-- What `is_allowed_and_extend_ttl` answers for the value it has read; the ending it has in the
  source is no answer. -/
  lookupEnding : Bool → Bool

/-- One invocation's view of the host. -/
structure Env (Address : Type) extends Soroban.Env Address where
  /-- Whether the underlying token's `transfer` returns; it traps otherwise. -/
  tokenAnswer : TransferCall Address → Bool

section Operations

variable {Address : Type} [DecidableEq Address]

/-- An operation of the contract. -/
abbrev Op (Address α : Type) := Tx Error (State Address) α

def publish (e : Event Address) : Op Address Unit :=
  Tx.modify fun s ↦ { s with events := s.events ++ [e] }

/-! ### Private helpers -/

/-- `require_configured_admin`: no authorization is asked for. -/
def requireConfiguredAdmin (admin : Address) : Op Address Unit := do
  let s ← Tx.get
  let storedAdmin ← Tx.okOr s.admin .notInitialized
  Tx.ensure (storedAdmin = admin) .notAuthorized

/-- `require_admin`. -/
def requireAdmin (env : Env Address) (admin : Address) : Op Address Unit := do
  requireAuth env.toEnv admin
  requireConfiguredAdmin admin

/-- `require_compliance_authority`. -/
def requireComplianceAuthority (ext : Externals Address) (env : Env Address) (caller : Address) :
    Op Address Unit := do
  let s ← Tx.get
  Tx.ensure (ext.complianceAuthority s env.auths caller = true) .notAuthorized

/-- `reject_if_paused`. -/
def rejectIfPaused : Op Address Unit := do
  let s ← Tx.get
  Tx.ensure (s.paused.getD false = false) .contractPaused

/-- The bytes of a string. -/
def bytesOf (str : String) : Bytes := str.toUTF8.data.toList

/-- `delegated_action_message`: neither the admin nor the contract is part of what is signed. -/
def delegatedActionMessage (ext : Externals Address) (target : Address) (action : Symbol)
    (nonce expiry : ℕ) : Bytes :=
  bytesOf "allowlist-delegated-v1:" ++ bytesOf (ext.addressString target) ++ bytesOf ":" ++
    bytesOf action ++ bytesOf ":" ++ bytesOf (toString nonce) ++ bytesOf ":" ++
    bytesOf (toString expiry)

/-! ### Setup -/

/-- `initialize`, a reserved word here. -/
def initialise (env : Env Address) (admin token : Address) : Op Address Unit := do
  let s ← Tx.get
  Tx.ensure (s.admin = none) .alreadyInitialized
  requireAuth env.toEnv admin
  Tx.modify fun s ↦ { s with admin := some admin, token := some token }

/-- `set_delegated_admin_key`: no event. -/
def setDelegatedAdminKey (env : Env Address) (admin : Address) (pubkey : Bytes32) :
    Op Address Unit := do
  requireAdmin env admin
  Tx.modify fun s ↦ { s with delegatedAdminPubKey := some pubkey }

/-! ### The allowlist -/

/-- Write one entry and announce it. -/
def allow (entry : AllowlistEntry) (address : Address) : Op Address Unit := do
  Tx.modify fun s ↦ { s with allowed := Function.update s.allowed address (some entry) }
  publish (.allowAdd address)

/-- Remove one entry and announce it, whether or not there was one. -/
def disallow (address : Address) : Op Address Unit := do
  Tx.modify fun s ↦ { s with allowed := Function.update s.allowed address none }
  publish (.allowRemove address)

/-- Whether an optional expiration ledger already lies in the past. -/
def isPast (env : Env Address) : Option ℕ → Bool
  | none => false
  | some exp => decide (exp < env.sequence)

/-- `add_to_allowlist`: not guarded by the pause flag. -/
def addToAllowlist (env : Env Address) (admin address : Address) (expirationLedger : Option ℕ) :
    Op Address Unit := do
  requireAdmin env admin
  Tx.ensure (isPast env expirationLedger = false) .invalidInput
  allow { expirationLedger } address

/-- `add_multiple_to_allowlist`: not guarded by the pause flag. -/
def addMultipleToAllowlist (env : Env Address) (admin : Address) (addresses : List Address)
    (expirationLedger : Option ℕ) : Op Address Unit := do
  requireAdmin env admin
  Tx.ensure (¬maxBatchSize < addresses.length) .batchTooLarge
  Tx.ensure (isPast env expirationLedger = false) .invalidInput
  addresses.foldlM (fun _ address ↦ allow { expirationLedger } address) ()

/-- `add_to_allowlist_delegated`. The stored nonce is read, and never written. A signature that does
not verify traps on the host, so that the contract never gets to its own `NotAuthorized`. -/
def addToAllowlistDelegated (ext : Externals Address) (env : Env Address)
    (admin address : Address) (nonce expiry : ℕ) (signature : Bytes64) : Op Address Unit := do
  rejectIfPaused
  requireConfiguredAdmin admin
  Tx.ensure (¬expiry ≤ env.timestamp) .expiredSignature
  let s ← Tx.get
  let lastNonce := (s.delegatedNonce admin).getD 0
  Tx.ensure (¬nonce ≤ lastNonce) .invalidNonce
  let pubkey ← Tx.okOr s.delegatedAdminPubKey .delegationNotConfigured
  let message := delegatedActionMessage ext address "add_to_allowlist" nonce expiry
  Tx.orTrap (ext.verifySig pubkey message signature = true)
  -- here the accepted nonce would have to be stored
  allow { expirationLedger := none } address

/-- `remove_from_allowlist`. -/
def removeFromAllowlist (ext : Externals Address) (env : Env Address) (admin address : Address) :
    Op Address Unit := do
  rejectIfPaused
  requireComplianceAuthority ext env admin
  disallow address

/-- `remove_multiple_from_allowlist`: not guarded by the pause flag. -/
def removeMultipleFromAllowlist (ext : Externals Address) (env : Env Address) (admin : Address)
    (addresses : List Address) : Op Address Unit := do
  requireComplianceAuthority ext env admin
  Tx.ensure (¬maxBatchSize < addresses.length) .batchTooLarge
  addresses.foldlM (fun _ address ↦ disallow address) ()

/-! ### Administration -/

/-- `set_compliance_officer`: no event. -/
def setComplianceOfficer (env : Env Address) (admin officer : Address) : Op Address Unit := do
  requireAdmin env admin
  Tx.modify fun s ↦ { s with complianceOfficer := some officer }

/-- `revoke_compliance_officer`: no event. -/
def revokeComplianceOfficer (env : Env Address) (admin : Address) : Op Address Unit := do
  requireAdmin env admin
  Tx.modify fun s ↦ { s with complianceOfficer := none }

/-- `propose_admin`. -/
def proposeAdmin (env : Env Address) (currentAdmin newAdmin : Address) : Op Address Unit := do
  requireAdmin env currentAdmin
  Tx.modify fun s ↦ { s with pendingAdmin := some newAdmin }
  publish (.adminProposed currentAdmin newAdmin)

/-- `accept_admin`. -/
def acceptAdmin (env : Env Address) (newAdmin : Address) : Op Address Unit := do
  requireAuth env.toEnv newAdmin
  let s ← Tx.get
  let pendingAdmin ← Tx.okOr s.pendingAdmin .noPendingAdmin
  Tx.ensure (pendingAdmin = newAdmin) .pendingAdminMismatch
  let oldAdmin ← Tx.okOr s.admin .notInitialized
  Tx.modify fun s ↦ { s with admin := some newAdmin, pendingAdmin := none }
  publish (.adminTransferred oldAdmin newAdmin)

/-- `transfer_admin`: single-step, and clears a pending proposal. -/
def transferAdmin (env : Env Address) (currentAdmin newAdmin : Address) : Op Address Unit := do
  requireAdmin env currentAdmin
  Tx.modify fun s ↦ { s with admin := some newAdmin, pendingAdmin := none }
  publish (.adminTransferred currentAdmin newAdmin)

/-- `pause`. -/
def pause (env : Env Address) (admin : Address) : Op Address Unit := do
  requireAdmin env admin
  Tx.modify fun s ↦ { s with paused := some true }
  publish (.paused admin)

/-- `unpause`. -/
def unpause (env : Env Address) (admin : Address) : Op Address Unit := do
  requireAdmin env admin
  Tx.modify fun s ↦ { s with paused := some false }
  publish (.unpaused admin)

/-! ### Upgrades -/

/-- `propose_upgrade`. -/
def proposeUpgrade (env : Env Address) (admin : Address) (newWasm : Bytes32)
    (delayLedgers : ℕ) : Op Address Unit := do
  requireAdmin env admin
  Tx.ensure (¬delayLedgers < minUpgradeDelayLedgers) .upgradeDelayTooShort
  let state : UpgradeState := { newWasm, activatedAt := saturatingAdd env.sequence delayLedgers }
  Tx.modify fun s ↦ { s with pendingUpgrade := some state }
  publish (.upgradeProposed admin newWasm state.activatedAt)

/-- `commit_upgrade`. -/
def commitUpgrade (env : Env Address) (admin : Address) : Op Address Unit := do
  requireAdmin env admin
  let s ← Tx.get
  let state ← Tx.okOr s.pendingUpgrade .upgradeNotReady
  Tx.ensure (¬env.sequence < state.activatedAt) .upgradeNotReady
  Tx.modify fun s ↦
    { s with installed := s.installed ++ [state.newWasm], pendingUpgrade := none }
  publish (.upgradeCommitted admin state.newWasm)

/-- `cancel_upgrade`: also when nothing is pending. -/
def cancelUpgrade (env : Env Address) (admin : Address) : Op Address Unit := do
  requireAdmin env admin
  Tx.modify fun s ↦ { s with pendingUpgrade := none }
  publish (.upgradeCancelled admin)

/-! ### Read-only entry points -/

/-- `is_allowed` at a ledger sequence. -/
def isAllowed (sequence : ℕ) (s : State Address) (address : Address) : Bool :=
  match s.allowed address with
  | none => false
  | some ⟨none⟩ => true
  | some ⟨some exp⟩ => decide (sequence ≤ exp)

/-- `is_compliant`. -/
def isCompliant (sequence : ℕ) (s : State Address) (address : Address) : Bool :=
  isAllowed sequence s address

/-- `is_paused`. -/
def isPaused (s : State Address) : Bool := s.paused.getD false

/-- `get_delegated_nonce`. -/
def getDelegatedNonce (s : State Address) (admin : Address) : ℕ := (s.delegatedNonce admin).getD 0

/-! ### Transfers -/

/-- `is_allowed_and_extend_ttl`. It reads the entry as a `bool`, which no entry is, and the host
traps an invocation that reads a stored value as something else. So only a missing entry is read, as
`false`, and no time to live is extended. -/
def isAllowedAndExtendTtl (ext : Externals Address) (address : Address) : Op Address Bool := do
  let s ← Tx.get
  Tx.orTrap (s.allowed address = none)
  let allowed := false
  pure (ext.lookupEnding allowed)

/-- `transfer`: both parties are looked up, whatever the first lookup answers. -/
def transfer (ext : Externals Address) (env : Env Address) (source target : Address)
    (amount : ℤ) : Op Address Bool := do
  Tx.ensure (¬amount < 0) .invalidInput
  let s ← Tx.get
  Tx.ensure (isPaused s = false) .contractPaused
  requireAuth env.toEnv source
  let fromAllowed ← isAllowedAndExtendTtl ext source
  let toAllowed ← isAllowedAndExtendTtl ext target
  if fromAllowed = false ∨ toAllowed = false then do
    publish (.blocked source target amount)
    pure false
  else do
    let token ← Tx.okOr s.token .notInitialized
    let call : TransferCall Address := { token, source, target, amount }
    Tx.orTrap (env.tokenAnswer call = true)
    Tx.modify fun s ↦ { s with transfers := s.transfers ++ [call] }
    pure true

/-! ### The contract as a system -/

/-- A call of an entry point that can change something; the read-only ones are functions of the
state. -/
inductive Call (Address : Type) where
  | initialise (admin token : Address)
  | setDelegatedAdminKey (admin : Address) (pubkey : Bytes32)
  | addToAllowlist (admin address : Address) (expirationLedger : Option ℕ)
  | addMultipleToAllowlist (admin : Address) (addresses : List Address)
      (expirationLedger : Option ℕ)
  | addToAllowlistDelegated (admin address : Address) (nonce expiry : ℕ) (signature : Bytes64)
  | removeFromAllowlist (admin address : Address)
  | removeMultipleFromAllowlist (admin : Address) (addresses : List Address)
  | setComplianceOfficer (admin officer : Address)
  | revokeComplianceOfficer (admin : Address)
  | proposeAdmin (currentAdmin newAdmin : Address)
  | acceptAdmin (newAdmin : Address)
  | transferAdmin (currentAdmin newAdmin : Address)
  | proposeUpgrade (admin : Address) (newWasm : Bytes32) (delayLedgers : ℕ)
  | commitUpgrade (admin : Address)
  | cancelUpgrade (admin : Address)
  | pause (admin : Address)
  | unpause (admin : Address)
  | transfer (source target : Address) (amount : ℤ)
  deriving DecidableEq

/-- What an entry point returns. -/
inductive Value where
  | unit
  | flag (b : Bool)
  deriving DecidableEq, Repr

/-- An invocation: a call, and the host's view it runs under. -/
structure Input (Address : Type) where
  env : Env Address
  call : Call Address

/-- Dispatch of a call to its entry point. -/
def invoke (ext : Externals Address) (env : Env Address) : Call Address → Op Address Value
  | .initialise admin token => do initialise env admin token; pure .unit
  | .setDelegatedAdminKey admin pubkey => do setDelegatedAdminKey env admin pubkey; pure .unit
  | .addToAllowlist admin address expirationLedger => do
    addToAllowlist env admin address expirationLedger; pure .unit
  | .addMultipleToAllowlist admin addresses expirationLedger => do
    addMultipleToAllowlist env admin addresses expirationLedger; pure .unit
  | .addToAllowlistDelegated admin address nonce expiry signature => do
    addToAllowlistDelegated ext env admin address nonce expiry signature; pure .unit
  | .removeFromAllowlist admin address => do
    removeFromAllowlist ext env admin address; pure .unit
  | .removeMultipleFromAllowlist admin addresses => do
    removeMultipleFromAllowlist ext env admin addresses; pure .unit
  | .setComplianceOfficer admin officer => do setComplianceOfficer env admin officer; pure .unit
  | .revokeComplianceOfficer admin => do revokeComplianceOfficer env admin; pure .unit
  | .proposeAdmin currentAdmin newAdmin => do proposeAdmin env currentAdmin newAdmin; pure .unit
  | .acceptAdmin newAdmin => do acceptAdmin env newAdmin; pure .unit
  | .transferAdmin currentAdmin newAdmin => do transferAdmin env currentAdmin newAdmin; pure .unit
  | .proposeUpgrade admin newWasm delayLedgers => do
    proposeUpgrade env admin newWasm delayLedgers; pure .unit
  | .commitUpgrade admin => do commitUpgrade env admin; pure .unit
  | .cancelUpgrade admin => do cancelUpgrade env admin; pure .unit
  | .pause admin => do pause env admin; pure .unit
  | .unpause admin => do unpause env admin; pure .unit
  | .transfer source target amount => do
    let forwarded ← transfer ext env source target amount
    pure (.flag forwarded)

/-- The contract from its deployment on: a call that does not complete leaves no trace. -/
def system (ext : Externals Address) :
    System (State Address) (Input Address) (Except (Failure Error) Value) where
  start := deploy
  exec i s := (invoke ext i.env i.call).commit s

end Operations

end AllowlistToken
