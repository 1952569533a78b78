import CompliancePrimitives.Contracts.Pausable
import CompliancePrimitives.Foundation.Run

/-!
# The `compliance-aggregator` contract

One call surface over up to three registered contracts: a denylist gate, a jurisdiction flag and a
circuit breaker. Three entry points evaluate them, each with its own control flow — `check_address`
for one address, `check_all` and `batch_check` for several — and are modelled as written, next to
each other.

The registered contracts are called from inside one invocation. During it they answer as functions
of what they are asked (`Callees`); the jurisdiction flag is called through `try_`, so whatever is
not `Ok(Ok(b))` is the answer `none`.
-/

namespace ComplianceAggregator

open Soroban

/-- The remaining time to live below which it is extended. -/
def instanceTtlThreshold : ℕ := 120960

/-- The remaining time to live after an extension. -/
def instanceTtlExtendTo : ℕ := 1555200

/-- Largest batch of `batch_check`. -/
def maxBatchSize : ℕ := 45

/-- `CheckKind`. -/
inductive CheckKind where
  | denylist
  | jurisdiction
  | circuitBreaker
  deriving DecidableEq, Repr

/-- `CheckResult`. -/
structure CheckResult where
  check : CheckKind
  passed : Bool
  deriving DecidableEq, Repr

/-- `AddressCheckResult`. -/
structure AddressCheckResult (Address : Type) where
  address : Address
  allPassed : Bool
  checks : List CheckResult
  deriving DecidableEq

/-- `AggregatorConfig`. -/
structure AggregatorConfig (Address : Type) where
  denylistGate : Option Address
  jurisdictionFlag : Option Address
  circuitBreaker : Option Address
  deriving DecidableEq

/-- The contract's events. -/
inductive Event (Address : Type) where
  | adminSet (admin : Address)
  | denylistGateSet (gate : Address)
  | jurisdictionFlagSet (flag : Address)
  | circuitBreakerSet (breaker : Address)
  | upgradePerformed (admin : Address) (newWasmHash : Bytes32)
  | paused
  | unpaused
  deriving DecidableEq

/-- `Error`. -/
inductive Error where
  | notInitialized
  | alreadyInitialized
  | notAuthorized
  | noChecksRegistered
  | emptyAddressList
  | batchTooLarge
  | contractPaused
  deriving DecidableEq, Repr

/-- Instance storage, with the time to live all of it shares and what was emitted so far. -/
structure State (Address : Type) where
  admin : Option Address
  denylistGate : Option Address
  jurisdictionFlag : Option Address
  circuitBreaker : Option Address
  pausable : Pausable.State
  liveUntil : ℕ
  events : List (Event Address)
  installed : List Bytes32

/-- The storage of an instance deployed to live until `liveUntil`. -/
def deploy {Address : Type} (liveUntil : ℕ) : State Address where
  admin := none
  denylistGate := none
  jurisdictionFlag := none
  circuitBreaker := none
  pausable := .fresh
  liveUntil := liveUntil
  events := []
  installed := []

/-- How the registered contracts answer during one invocation. -/
structure Callees (Address : Type) where
  /-- `denylist-gate.check`. -/
  check : (gate address : Address) → Bool
  /-- `jurisdiction-flag.is_permitted_jurisdiction`: `none` when the call fails. -/
  isPermittedJurisdiction : (flag address : Address) → (allowedCodes : List Bytes) → Option Bool
  /-- `circuit-breaker.is_frozen`. -/
  isFrozen : (breaker : Address) → Bool

section Operations

variable {Address : Type} [DecidableEq Address]

/-- An operation of the contract. -/
abbrev Op (Address α : Type) := Tx Error (State Address) α

def publish (e : Event Address) : Op Address Unit :=
  Tx.modify fun s ↦ { s with events := s.events ++ [e] }

def extendInstanceTtl (env : Env Address) : Op Address Unit :=
  Tx.modify fun s ↦
    { s with
      liveUntil := extendTtl instanceTtlThreshold instanceTtlExtendTo env.sequence s.liveUntil }

/-- `require_admin`. -/
def requireAdmin (env : Env Address) (admin : Address) : Op Address Unit :=
  requireStored env State.admin .notInitialized .notAuthorized admin

def requireNotPaused : Op Address Unit :=
  Pausable.requireNotPausedOr State.pausable .contractPaused

/-! ### Lifecycle -/

/-- Store an optional registration of `initialize` and announce it. -/
def register (store : Address → State Address → State Address) (event : Address → Event Address) :
    Option Address → Op Address Unit
  | none => pure ()
  | some address => do
    Tx.modify (store address)
    publish (event address)

/-- `initialize`, a reserved word here. -/
def initialise (env : Env Address) (admin : Address)
    (denylistGate jurisdictionFlag circuitBreaker : Option Address) : Op Address Unit := do
  let s ← Tx.get
  Tx.ensure (s.admin = none) .alreadyInitialized
  requireAuth env admin
  Tx.modify fun s ↦ { s with admin := some admin }
  publish (.adminSet admin)
  register (fun gate s ↦ { s with denylistGate := some gate }) .denylistGateSet denylistGate
  register (fun flag s ↦ { s with jurisdictionFlag := some flag }) .jurisdictionFlagSet
    jurisdictionFlag
  register (fun breaker s ↦ { s with circuitBreaker := some breaker }) .circuitBreakerSet
    circuitBreaker
  extendInstanceTtl env

/-- `pause`. -/
def pause (env : Env Address) (admin : Address) : Op Address Unit := do
  requireAdmin env admin
  Tx.modify fun s ↦ { s with pausable := Pausable.pause env s.pausable }
  extendInstanceTtl env
  publish .paused

/-- `unpause`. -/
def unpause (env : Env Address) (admin : Address) : Op Address Unit := do
  requireAdmin env admin
  Tx.modify fun s ↦ { s with pausable := Pausable.unpause s.pausable }
  extendInstanceTtl env
  publish .unpaused

/-- `is_paused`. -/
def isPaused (s : State Address) : Bool := Pausable.isPaused s.pausable

/-- The body the configuration setters share: one write and, for most, one event. -/
def configure (env : Env Address) (admin : Address) (write : State Address → State Address)
    (announce : Op Address Unit) : Op Address Unit := do
  requireNotPaused
  requireAdmin env admin
  Tx.modify write
  extendInstanceTtl env
  announce

/-- `set_admin`. -/
def setAdmin (env : Env Address) (admin newAdmin : Address) : Op Address Unit :=
  configure env admin (fun s ↦ { s with admin := some newAdmin }) (publish (.adminSet newAdmin))

/-- `set_denylist_gate`. -/
def setDenylistGate (env : Env Address) (admin gate : Address) : Op Address Unit :=
  configure env admin (fun s ↦ { s with denylistGate := some gate })
    (publish (.denylistGateSet gate))

/-- `set_jurisdiction_flag`. -/
def setJurisdictionFlag (env : Env Address) (admin flag : Address) : Op Address Unit :=
  configure env admin (fun s ↦ { s with jurisdictionFlag := some flag })
    (publish (.jurisdictionFlagSet flag))

/-- `set_circuit_breaker`. -/
def setCircuitBreaker (env : Env Address) (admin breaker : Address) : Op Address Unit :=
  configure env admin (fun s ↦ { s with circuitBreaker := some breaker })
    (publish (.circuitBreakerSet breaker))

/-- `clear_denylist_gate`: no event. -/
def clearDenylistGate (env : Env Address) (admin : Address) : Op Address Unit :=
  configure env admin (fun s ↦ { s with denylistGate := none }) (pure ())

/-- `clear_jurisdiction_flag`: no event. -/
def clearJurisdictionFlag (env : Env Address) (admin : Address) : Op Address Unit :=
  configure env admin (fun s ↦ { s with jurisdictionFlag := none }) (pure ())

/-- `upgrade`: no time-to-live extension. -/
def upgrade (env : Env Address) (admin : Address) (newWasmHash : Bytes32) : Op Address Unit := do
  requireAdmin env admin
  publish (.upgradePerformed admin newWasmHash)
  Tx.modify fun s ↦ { s with installed := s.installed ++ [newWasmHash] }

/-! ### Read helpers -/

/-- `get_config`. -/
def getConfig (s : State Address) : AggregatorConfig Address where
  denylistGate := s.denylistGate
  jurisdictionFlag := s.jurisdictionFlag
  circuitBreaker := s.circuitBreaker

/-- `get_checks_summary`. -/
def getChecksSummary (s : State Address) : Bool × Bool :=
  (s.denylistGate.isSome, s.jurisdictionFlag.isSome)

/-- `circuit_breaker_result`. -/
def circuitBreakerResult (callees : Callees Address) (s : State Address) : Option CheckResult :=
  s.circuitBreaker.map fun breakerAddr ↦
    { check := .circuitBreaker, passed := !callees.isFrozen breakerAddr }

/-! ### Compliance checks -/

/-- What a check of the flag counts as: passed only on `Ok(Ok(true))`. -/
def jurisdictionPassed (callees : Callees Address) (flag address : Address)
    (allowedJurisdictions : List Bytes) : Bool :=
  decide (callees.isPermittedJurisdiction flag address allowedJurisdictions = some true)

/-- `check_address`. -/
def checkAddress (callees : Callees Address) (s : State Address) (address : Address)
    (allowedJurisdictions : List Bytes) : Except Error (Bool × List CheckResult) := do
  let mut results : List CheckResult := []
  let mut allPassed := true
  if let some breaker := circuitBreakerResult callees s then
    results := results ++ [breaker]
    -- a frozen breaker denies before the gate and the flag are asked
    if breaker.passed = false then
      return (false, results)
  if let some gateAddr := s.denylistGate then
    let passed := callees.check gateAddr address
    allPassed := allPassed && passed
    results := results ++ [{ check := .denylist, passed }]
  if let some flagAddr := s.jurisdictionFlag then
    let passed := jurisdictionPassed callees flagAddr address allowedJurisdictions
    allPassed := allPassed && passed
    results := results ++ [{ check := .jurisdiction, passed }]
  if results.isEmpty then
    throw .noChecksRegistered
  return (allPassed, results)

/-- The body of the loop of `check_all`. -/
def checkAllEntry (callees : Callees Address) (breaker : Option CheckResult)
    (gateAddr flagAddr : Option Address) (allowedJurisdictions : List Bytes)
    (address : Address) : AddressCheckResult Address := Id.run do
  let mut results : List CheckResult := []
  let mut allPassed := true
  if let some b := breaker then
    allPassed := b.passed
    results := results ++ [b]
  if allPassed = true then
    if let some ga := gateAddr then
      let passed := callees.check ga address
      allPassed := allPassed && passed
      results := results ++ [{ check := .denylist, passed }]
    if let some fa := flagAddr then
      let passed := jurisdictionPassed callees fa address allowedJurisdictions
      allPassed := allPassed && passed
      results := results ++ [{ check := .jurisdiction, passed }]
  return { address, allPassed, checks := results }

/-- `check_all`. -/
def checkAll (callees : Callees Address) (s : State Address) (addresses : List Address)
    (allowedJurisdictions : List Bytes) : Except Error (List (AddressCheckResult Address)) := do
  if addresses.isEmpty then
    throw .emptyAddressList
  let breaker := circuitBreakerResult callees s
  if breaker.isNone && s.denylistGate.isNone && s.jurisdictionFlag.isNone then
    throw .noChecksRegistered
  return addresses.foldl
    (fun batch address ↦ batch ++ [checkAllEntry callees breaker s.denylistGate s.jurisdictionFlag
      allowedJurisdictions address]) []

/-- The body of the loop of `batch_check`: the circuit breaker does not occur in it. -/
def batchCheckEntry (callees : Callees Address) (gateAddr flagAddr : Option Address)
    (allowedJurisdictions : List Bytes) (address : Address) : Bool := Id.run do
  let mut allPassed := true
  if let some ga := gateAddr then
    allPassed := allPassed && callees.check ga address
  if let some fa := flagAddr then
    allPassed := allPassed && jurisdictionPassed callees fa address allowedJurisdictions
  return allPassed

/-- `batch_check`. -/
def batchCheck (callees : Callees Address) (s : State Address) (addresses : List Address)
    (allowedJurisdictions : List Bytes) : Except Error (List Bool) := do
  if addresses.isEmpty then
    throw .emptyAddressList
  if maxBatchSize < addresses.length then
    throw .batchTooLarge
  -- a registered breaker does not count as a check here, unlike in `check_all`
  if s.denylistGate.isNone && s.jurisdictionFlag.isNone then
    throw .noChecksRegistered
  return addresses.foldl
    (fun results address ↦ results ++ [batchCheckEntry callees s.denylistGate s.jurisdictionFlag
      allowedJurisdictions address]) []

/-! ### The contract as a system -/

/-- A call of an entry point that can change something; the checks and the read helpers are
functions of the state. -/
inductive Call (Address : Type) where
  | initialise (admin : Address) (denylistGate jurisdictionFlag circuitBreaker : Option Address)
  | pause (admin : Address)
  | unpause (admin : Address)
  | setAdmin (admin newAdmin : Address)
  | setDenylistGate (admin gate : Address)
  | setJurisdictionFlag (admin flag : Address)
  | setCircuitBreaker (admin breaker : Address)
  | clearDenylistGate (admin : Address)
  | clearJurisdictionFlag (admin : Address)
  | upgrade (admin : Address) (newWasmHash : Bytes32)
  deriving DecidableEq

/-- An invocation: a call, and the host's view it runs under. -/
structure Input (Address : Type) where
  env : Env Address
  call : Call Address

/-- Dispatch of a call to its entry point. -/
def invoke (env : Env Address) : Call Address → Op Address Unit
  | .initialise admin denylistGate jurisdictionFlag circuitBreaker =>
    initialise env admin denylistGate jurisdictionFlag circuitBreaker
  | .pause admin => pause env admin
  | .unpause admin => unpause env admin
  | .setAdmin admin newAdmin => setAdmin env admin newAdmin
  | .setDenylistGate admin gate => setDenylistGate env admin gate
  | .setJurisdictionFlag admin flag => setJurisdictionFlag env admin flag
  | .setCircuitBreaker admin breaker => setCircuitBreaker env admin breaker
  | .clearDenylistGate admin => clearDenylistGate env admin
  | .clearJurisdictionFlag admin => clearJurisdictionFlag env admin
  | .upgrade admin newWasmHash => upgrade env admin newWasmHash

/-- The contract from its deployment on: a call that does not complete leaves no trace. -/
def system (liveUntil : ℕ) :
    System (State Address) (Input Address) (Except (Failure Error) Unit) where
  start := deploy liveUntil
  exec i s := (invoke i.env i.call).commit s

end Operations

end ComplianceAggregator
