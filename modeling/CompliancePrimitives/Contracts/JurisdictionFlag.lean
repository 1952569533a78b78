import CompliancePrimitives.Foundation.Run
import CompliancePrimitives.Host.Env

/-!
# The `jurisdiction-flag` contract

Jurisdiction codes of addresses. The codes of an address live under two storage keys: the list, and
a legacy single-code key of earlier versions, which writes keep equal to the head of the list and
reads fall back to when there is no list. An optional third key holds the last ledger at which the
codes are valid.

A read that meets expired codes publishes `JurisdictionExpired`, so the read entry points are
operations too. What they answer is `isPermittedJurisdiction_spec` all the same: reading never
changes anything but the events.
-/

namespace JurisdictionFlag

open Soroban

/-- Length in bytes of an ISO 3166-1 alpha-2 code. -/
def jurisdictionCodeLen : ℕ := 2

/-- Largest batch of one invocation. -/
def maxBatchSize : ℕ := 100

/-- Most codes one address can have. -/
def maxCodesPerAddress : ℕ := 8

/-- `UpgradeState`. -/
structure UpgradeState where
  newWasm : Bytes32
  activatedAt : ℕ
  deriving DecidableEq

/-- The contract's events. -/
inductive Event (Address : Type) where
  | jurisdictionSet (address : Address) (code : Bytes)
  | jurisdictionExpired (address : Address)
  | jurisdictionRemoved (address : Address)
  | issuerTransferred (oldIssuer newIssuer : Address)
  | issuerProposed (currentIssuer proposedIssuer : Address)
  | issuerProposalCancelled (issuer : Address)
  | paused (issuer : Address)
  | unpaused (issuer : Address)
  deriving DecidableEq

/-- `Error`. -/
inductive Error where
  | notInitialized
  | alreadyInitialized
  | notAuthorized
  | invalidInput
  | contractPaused
  | invalidJurisdictionCode
  | emptyAllowedCodes
  | noPendingIssuer
  | pendingIssuerMismatch
  | tooManyCodes
  deriving DecidableEq, Repr

/-- Storage, with the events published so far. -/
structure State (Address : Type) where
  /-- `Issuer`. Absent before `initialize`. -/
  issuer : Option Address
  /-- `ComplianceOfficer`. -/
  complianceOfficer : Option Address
  /-- `Jurisdiction(address)`: the one code of the schema before lists. -/
  jurisdiction : Address → Option Bytes
  /-- `Jurisdictions(address)`: the codes, the first of which is the main one. -/
  jurisdictions : Address → Option (List Bytes)
  /-- `ValidUntil(address)`: the ledger the codes hold through, if they expire. -/
  validUntil : Address → Option ℕ
  /-- `Paused`. What is absent counts as not paused. -/
  paused : Option Bool
  /-- `PendingIssuer`: who may accept the role. -/
  pendingIssuer : Option Address
  /-- `PendingUpgrade`. -/
  pendingUpgrade : Option UpgradeState
  /-- What was published, first to last. -/
  events : List (Event Address)

/-- The storage of a fresh deployment. -/
def deploy {Address : Type} : State Address where
  issuer := none
  complianceOfficer := none
  jurisdiction := fun _ ↦ none
  jurisdictions := fun _ ↦ none
  validUntil := fun _ ↦ none
  paused := none
  pendingIssuer := none
  pendingUpgrade := none
  events := []

section Operations

variable {Address : Type} [DecidableEq Address]

/-- An operation of the contract. -/
abbrev Op (Address α : Type) := Tx Error (State Address) α

def publish (e : Event Address) : Op Address Unit :=
  Tx.modify fun s ↦ { s with events := s.events ++ [e] }

/-! ### Private helpers -/

/-- `reject_if_paused`. -/
def rejectIfPaused : Op Address Unit := do
  let s ← Tx.get
  Tx.ensure (s.paused.getD false = false) .contractPaused

/-- `require_issuer`. -/
def requireIssuer (env : Env Address) (issuer : Address) : Op Address Unit :=
  requireStored env State.issuer .notInitialized .notAuthorized issuer

/-- `require_compliance_authority`: the issuer, or the compliance officer if there is one. -/
def requireComplianceAuthority (env : Env Address) (caller : Address) : Op Address Unit := do
  requireAuth env caller
  let s ← Tx.get
  let storedIssuer ← Tx.okOr s.issuer .notInitialized
  Tx.ensure (storedIssuer = caller ∨ s.complianceOfficer = some caller) .notAuthorized

/-- `u8::is_ascii_uppercase`. -/
def isAsciiUppercase (b : UInt8) : Bool := decide (65 ≤ b ∧ b ≤ 90)

/-- `validate_jurisdiction_code`. -/
def validateJurisdictionCode (code : Bytes) : Op Address Unit := do
  Tx.ensure (code.length = jurisdictionCodeLen) .invalidJurisdictionCode
  Tx.ensure (code.all isAsciiUppercase = true) .invalidJurisdictionCode

/-- `load_jurisdictions`: the list, or else the legacy code. -/
def loadJurisdictions (s : State Address) (address : Address) : List Bytes :=
  match s.jurisdictions address with
  | some codes => codes
  | none =>
    match s.jurisdiction address with
    | some code => [code]
    | none => []

/-- `load_active_jurisdictions`. -/
def loadActiveJurisdictions (env : Env Address) (address : Address) : Op Address (List Bytes) := do
  let s ← Tx.get
  let codes := loadJurisdictions s address
  if codes.isEmpty then pure codes
  else
    match s.validUntil address with
    | none => pure codes
    | some validUntil =>
      if validUntil < env.sequence then do
        publish (.jurisdictionExpired address)
        pure []
      else pure codes

/-- `store_jurisdictions`: an empty list clears all three keys, another leaves the expiry. -/
def storeJurisdictions (address : Address) (codes : List Bytes) : Op Address Unit :=
  match codes with
  | firstCode :: _ =>
    Tx.modify fun s ↦
      { s with
        jurisdictions := Function.update s.jurisdictions address (some codes)
        jurisdiction := Function.update s.jurisdiction address (some firstCode) }
  | [] =>
    Tx.modify fun s ↦
      { s with
        jurisdictions := Function.update s.jurisdictions address none
        jurisdiction := Function.update s.jurisdiction address none
        validUntil := Function.update s.validUntil address none }

/-- Remove the expiry of an address. -/
def clearValidUntil (address : Address) : Op Address Unit :=
  Tx.modify fun s ↦ { s with validUntil := Function.update s.validUntil address none }

/-! ### Issuer and officer -/

/-- `initialize`, a reserved word here. -/
def initialise (env : Env Address) (issuer : Address) : Op Address Unit := do
  let s ← Tx.get
  Tx.ensure (s.issuer = none) .alreadyInitialized
  requireAuth env issuer
  Tx.modify fun s ↦ { s with issuer := some issuer, paused := some false }

/-- `transfer_issuer`: single-step, and clears a pending proposal. -/
def transferIssuer (env : Env Address) (currentIssuer newIssuer : Address) : Op Address Unit := do
  requireIssuer env currentIssuer
  Tx.modify fun s ↦ { s with issuer := some newIssuer, pendingIssuer := none }
  publish (.issuerTransferred currentIssuer newIssuer)

/-- `propose_issuer`. -/
def proposeIssuer (env : Env Address) (issuer newIssuer : Address) : Op Address Unit := do
  requireIssuer env issuer
  Tx.modify fun s ↦ { s with pendingIssuer := some newIssuer }
  publish (.issuerProposed issuer newIssuer)

/-- `accept_issuer`. -/
def acceptIssuer (env : Env Address) (newIssuer : Address) : Op Address Unit := do
  requireAuth env newIssuer
  let s ← Tx.get
  let pending ← Tx.okOr s.pendingIssuer .noPendingIssuer
  Tx.ensure (pending = newIssuer) .pendingIssuerMismatch
  let oldIssuer ← Tx.okOr s.issuer .notInitialized
  Tx.modify fun s ↦ { s with issuer := some newIssuer, pendingIssuer := none }
  publish (.issuerTransferred oldIssuer newIssuer)

/-- `cancel_issuer_proposal`: also when nothing is pending. -/
def cancelIssuerProposal (env : Env Address) (issuer : Address) : Op Address Unit := do
  requireIssuer env issuer
  Tx.modify fun s ↦ { s with pendingIssuer := none }
  publish (.issuerProposalCancelled issuer)

/-- `set_compliance_officer`: no event. -/
def setComplianceOfficer (env : Env Address) (issuer officer : Address) : Op Address Unit := do
  requireIssuer env issuer
  Tx.modify fun s ↦ { s with complianceOfficer := some officer }

/-- `revoke_compliance_officer`: no event. -/
def revokeComplianceOfficer (env : Env Address) (issuer : Address) : Op Address Unit := do
  requireIssuer env issuer
  Tx.modify fun s ↦ { s with complianceOfficer := none }

/-- `pause`. -/
def pause (env : Env Address) (issuer : Address) : Op Address Unit := do
  requireIssuer env issuer
  Tx.modify fun s ↦ { s with paused := some true }
  publish (.paused issuer)

/-- `unpause`. -/
def unpause (env : Env Address) (issuer : Address) : Op Address Unit := do
  requireIssuer env issuer
  Tx.modify fun s ↦ { s with paused := some false }
  publish (.unpaused issuer)

/-- `upgrade`: only removes a pending upgrade; no code is installed. -/
def upgrade (env : Env Address) (issuer : Address) (_newWasmHash : Bytes32) :
    Op Address Unit := do
  requireIssuer env issuer
  Tx.modify fun s ↦ { s with pendingUpgrade := none }

/-! ### Writing codes -/

/-- Replace the codes of an address by one that never expires, and announce it. -/
def assignCode (address : Address) (code : Bytes) : Op Address Unit := do
  storeJurisdictions address [code]
  clearValidUntil address
  publish (.jurisdictionSet address code)

/-- `set_jurisdiction`. -/
def setJurisdiction (env : Env Address) (issuer address : Address) (code : Bytes) :
    Op Address Unit := do
  requireComplianceAuthority env issuer
  rejectIfPaused
  validateJurisdictionCode code
  assignCode address code

/-- `set_multiple_jurisdictions`: all codes are validated before any is written. -/
def setMultipleJurisdictions (env : Env Address) (caller : Address)
    (entries : List (Address × Bytes)) : Op Address Unit := do
  requireComplianceAuthority env caller
  rejectIfPaused
  Tx.ensure (¬(entries = [] ∨ maxBatchSize < entries.length)) .invalidInput
  entries.foldlM (fun _ entry ↦ validateJurisdictionCode entry.2) ()
  entries.foldlM (fun _ entry ↦ assignCode entry.1 entry.2) ()

/-- `set_jurisdiction_until`. -/
def setJurisdictionUntil (env : Env Address) (issuer address : Address) (code : Bytes)
    (validUntil : ℕ) : Op Address Unit := do
  requireComplianceAuthority env issuer
  rejectIfPaused
  validateJurisdictionCode code
  Tx.ensure (¬validUntil < env.sequence) .invalidInput
  storeJurisdictions address [code]
  Tx.modify fun s ↦
    { s with validUntil := Function.update s.validUntil address (some validUntil) }
  publish (.jurisdictionSet address code)

/-- `add_jurisdiction`: the codes it adds to are loaded whether or not they have expired. -/
def addJurisdiction (env : Env Address) (issuer address : Address) (code : Bytes) :
    Op Address Unit := do
  requireComplianceAuthority env issuer
  rejectIfPaused
  validateJurisdictionCode code
  let s ← Tx.get
  let codes := loadJurisdictions s address
  if code ∈ codes then pure ()
  else do
    Tx.ensure (¬maxCodesPerAddress ≤ codes.length) .tooManyCodes
    storeJurisdictions address (codes ++ [code])
  publish (.jurisdictionSet address code)

/-- `remove_jurisdiction`. -/
def removeJurisdiction (env : Env Address) (issuer address : Address) (code : Bytes) :
    Op Address Unit := do
  requireIssuer env issuer
  rejectIfPaused
  let s ← Tx.get
  storeJurisdictions address
    ((loadJurisdictions s address).filter fun existing ↦ decide (existing ≠ code))
  publish (.jurisdictionRemoved address)

/-- Clear everything stored for an address, and announce it. -/
def clearCodes (address : Address) : Op Address Unit := do
  storeJurisdictions address []
  publish (.jurisdictionRemoved address)

/-- `remove_jurisdiction_multiple`: no bound on the batch. -/
def removeJurisdictionMultiple (env : Env Address) (issuer : Address) (addresses : List Address) :
    Op Address Unit := do
  requireIssuer env issuer
  rejectIfPaused
  addresses.foldlM (fun _ address ↦ clearCodes address) ()

/-! ### Reading codes -/

/-- `list_jurisdictions`. -/
def listJurisdictions (env : Env Address) (address : Address) : Op Address (List Bytes) :=
  loadActiveJurisdictions env address

/-- `get_jurisdiction`. -/
def getJurisdiction (env : Env Address) (address : Address) : Op Address (Option Bytes) := do
  let codes ← loadActiveJurisdictions env address
  pure codes.head?

/-- `is_permitted_jurisdiction`. -/
def isPermittedJurisdiction (env : Env Address) (address : Address) (allowedCodes : List Bytes) :
    Op Address Bool := do
  Tx.ensure (allowedCodes ≠ []) .emptyAllowedCodes
  let codes ← loadActiveJurisdictions env address
  pure (allowedCodes.any fun allowed ↦ codes.any fun code ↦ decide (code = allowed))

/-- `is_compliant`. -/
def isCompliant (env : Env Address) (address : Address) : Op Address Bool := do
  let code ← getJurisdiction env address
  pure code.isSome

/-! ### What a read answers -/

omit [DecidableEq Address] in
/-- Reading the codes of an address always completes, may publish, and yields none that have
expired. -/
theorem loadActiveJurisdictions_spec (env : Env Address) (address : Address) (s : State Address) :
    ∃ codes events,
      loadActiveJurisdictions env address s = .ok (codes, { s with events := events }) ∧
        ∀ code, code ∈ codes ↔ code ∈ loadJurisdictions s address ∧
          ∀ validUntil, s.validUntil address = some validUntil → env.sequence ≤ validUntil := by
  by_cases hcodes : loadJurisdictions s address = []
  · refine ⟨[], s.events, ?_, by simp [hcodes]⟩
    simp [loadActiveJurisdictions, hcodes]
  rcases hvalid : s.validUntil address with _ | validUntil
  · refine ⟨loadJurisdictions s address, s.events, ?_, by simp⟩
    simp [loadActiveJurisdictions, hcodes, hvalid]
  -- only codes that have expired are reported, and not returned
  by_cases hexpired : validUntil < env.sequence
  · refine ⟨[], s.events ++ [.jurisdictionExpired address], ?_, by simp [hexpired]⟩
    simp [loadActiveJurisdictions, hcodes, hvalid, hexpired, publish]
  · refine ⟨loadJurisdictions s address, s.events, ?_, by simp [not_lt.1 hexpired]⟩
    simp [loadActiveJurisdictions, hcodes, hvalid, hexpired]

omit [DecidableEq Address] in
/-- With codes to allow, `is_permitted_jurisdiction` completes and answers whether the address has
one of them. -/
theorem isPermittedJurisdiction_spec (env : Env Address) (address : Address)
    {allowedCodes : List Bytes} (hallowed : allowedCodes ≠ []) (s : State Address) :
    ∃ permitted events,
      isPermittedJurisdiction env address allowedCodes s =
          .ok (permitted, { s with events := events }) ∧
        (permitted = true ↔
          (∃ code ∈ allowedCodes, code ∈ loadJurisdictions s address) ∧
            ∀ validUntil, s.validUntil address = some validUntil →
              env.sequence ≤ validUntil) := by
  obtain ⟨codes, events, hload, hcodes⟩ := loadActiveJurisdictions_spec env address s
  refine ⟨allowedCodes.any fun allowed ↦ codes.any fun code ↦ decide (code = allowed), events,
    ?_, ?_⟩
  · simp [isPermittedJurisdiction, hallowed, hload]
  · simp only [List.any_eq_true, decide_eq_true_eq, exists_eq_right, hcodes]
    constructor
    · rintro ⟨code, hmem, hcode, hvalid⟩
      exact ⟨⟨code, hmem, hcode⟩, hvalid⟩
    · rintro ⟨⟨code, hmem, hcode⟩, hvalid⟩
      exact ⟨code, hmem, hcode, hvalid⟩

omit [DecidableEq Address] in
/-- Without codes to allow, it fails. -/
theorem isPermittedJurisdiction_nil (env : Env Address) (address : Address) (s : State Address) :
    isPermittedJurisdiction env address [] s = .error (.error .emptyAllowedCodes) := by
  refine Tx.bind_of_error ?_
  simp [Tx.ensure, Tx.fail]

/-! ### The contract as a system -/

/-- A call of an entry point. The reads are among them, since they may publish. -/
inductive Call (Address : Type) where
  | initialise (issuer : Address)
  | transferIssuer (currentIssuer newIssuer : Address)
  | proposeIssuer (issuer newIssuer : Address)
  | acceptIssuer (newIssuer : Address)
  | cancelIssuerProposal (issuer : Address)
  | setComplianceOfficer (issuer officer : Address)
  | revokeComplianceOfficer (issuer : Address)
  | pause (issuer : Address)
  | unpause (issuer : Address)
  | upgrade (issuer : Address) (newWasmHash : Bytes32)
  | setJurisdiction (issuer address : Address) (code : Bytes)
  | setMultipleJurisdictions (caller : Address) (entries : List (Address × Bytes))
  | setJurisdictionUntil (issuer address : Address) (code : Bytes) (validUntil : ℕ)
  | addJurisdiction (issuer address : Address) (code : Bytes)
  | removeJurisdiction (issuer address : Address) (code : Bytes)
  | removeJurisdictionMultiple (issuer : Address) (addresses : List Address)
  | listJurisdictions (address : Address)
  | getJurisdiction (address : Address)
  | isPermittedJurisdiction (address : Address) (allowedCodes : List Bytes)
  | isCompliant (address : Address)
  deriving DecidableEq

/-- What an entry point returns. -/
inductive Value where
  | unit
  | flag (b : Bool)
  | code (c : Option Bytes)
  | codes (l : List Bytes)
  deriving DecidableEq

/-- An invocation: a call, and the host's view it runs under. -/
structure Input (Address : Type) where
  env : Env Address
  call : Call Address

/-- Dispatch of a call to its entry point. -/
def invoke (env : Env Address) : Call Address → Op Address Value
  | .initialise issuer => do initialise env issuer; pure .unit
  | .transferIssuer currentIssuer newIssuer => do
    transferIssuer env currentIssuer newIssuer; pure .unit
  | .proposeIssuer issuer newIssuer => do proposeIssuer env issuer newIssuer; pure .unit
  | .acceptIssuer newIssuer => do acceptIssuer env newIssuer; pure .unit
  | .cancelIssuerProposal issuer => do cancelIssuerProposal env issuer; pure .unit
  | .setComplianceOfficer issuer officer => do
    setComplianceOfficer env issuer officer; pure .unit
  | .revokeComplianceOfficer issuer => do revokeComplianceOfficer env issuer; pure .unit
  | .pause issuer => do pause env issuer; pure .unit
  | .unpause issuer => do unpause env issuer; pure .unit
  | .upgrade issuer newWasmHash => do upgrade env issuer newWasmHash; pure .unit
  | .setJurisdiction issuer address code => do
    setJurisdiction env issuer address code; pure .unit
  | .setMultipleJurisdictions caller entries => do
    setMultipleJurisdictions env caller entries; pure .unit
  | .setJurisdictionUntil issuer address code validUntil => do
    setJurisdictionUntil env issuer address code validUntil; pure .unit
  | .addJurisdiction issuer address code => do
    addJurisdiction env issuer address code; pure .unit
  | .removeJurisdiction issuer address code => do
    removeJurisdiction env issuer address code; pure .unit
  | .removeJurisdictionMultiple issuer addresses => do
    removeJurisdictionMultiple env issuer addresses; pure .unit
  | .listJurisdictions address => do
    let codes ← listJurisdictions env address
    pure (.codes codes)
  | .getJurisdiction address => do
    let code ← getJurisdiction env address
    pure (.code code)
  | .isPermittedJurisdiction address allowedCodes => do
    let permitted ← isPermittedJurisdiction env address allowedCodes
    pure (.flag permitted)
  | .isCompliant address => do
    let compliant ← isCompliant env address
    pure (.flag compliant)

/-- The contract from any storage on, such as one an earlier version left behind: a call that does
not complete leaves no trace. -/
def system (start : State Address) :
    System (State Address) (Input Address) (Except (Failure Error) Value) where
  start := start
  exec i s := (invoke i.env i.call).commit s

end Operations

end JurisdictionFlag
