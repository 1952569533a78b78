import CompliancePrimitives.Contracts.Pausable
import CompliancePrimitives.Foundation.Run

/-!
# The `policy-engine` contract

A list of checks, each naming a contract to ask, and an operator to combine their answers with. An
optional circuit breaker comes before all of them.

Evaluation calls other contracts, so it runs on two states at once: the engine's own, and whatever
state `σ` the callees have. What the engine asks of them is `Callees σ`; a callee that fails takes
the evaluation with it, except for the jurisdiction check, which is called through `try_` and
counts as failed. The order of the calls, and which of them are made at all, is the source's: a
check stops at the first party that fails it, `All` at the first failing check, `Any` at the first
passing one.
-/

namespace PolicyEngine

open Soroban

/-- The remaining time to live below which it is extended. -/
def instanceTtlThreshold : ℕ := 120960

/-- The remaining time to live after an extension. -/
def instanceTtlExtendTo : ℕ := 1555200

/-- Most checks one policy can have. -/
def maxChecks : ℕ := 16

/-- The largest `u32`. -/
def u32Max : ℕ := 2 ^ 32 - 1

/-- `CheckKind`, its parameter records flattened. -/
inductive CheckKind (Address : Type) where
  | denylist (contract : Address)
  | jurisdiction (contract : Address) (allowedCodes : List Bytes)
  | allowlist (contract : Address)
  | circuitBreaker (contract : Address)
  deriving DecidableEq

/-- `CombineOp`. -/
inductive CombineOp where
  | all
  | any
  deriving DecidableEq, Repr

/-- `UpgradeState`. -/
structure UpgradeState where
  newWasm : Bytes32
  activatedAt : ℕ
  deriving DecidableEq

/-- `CheckFailure`. -/
structure CheckFailure where
  checkIndex : ℕ
  kind : Symbol
  deriving DecidableEq, Repr

/-- The contract's events. -/
inductive Event (Address : Type) where
  | policyResult (passed : Bool) (source target : Address)
  | upgradePerformed (admin : Address)
  | upgradeProposed (admin : Address) (delayLedgers : ℕ)
  deriving DecidableEq

/-- `Error`. -/
inductive Error where
  | notInitialized
  | alreadyInitialized
  | notAuthorized
  | policyViolation
  | maxDepthExceeded
  | indexOutOfBounds
  | contractPaused
  | checkIndexOutOfRange
  | upgradeNotReady
  deriving DecidableEq, Repr

/-- Instance storage, with the time to live all of it shares and what was emitted so far. No entry
point writes the pause switch, which only guards read. -/
structure State (Address : Type) where
  admin : Option Address
  checks : Option (List (CheckKind Address))
  combineOp : Option CombineOp
  circuitBreaker : Option Address
  pendingUpgrade : Option UpgradeState
  pausable : Pausable.State
  liveUntil : ℕ
  events : List (Event Address)
  installed : List Bytes32
  deriving DecidableEq

/-- The storage of an instance deployed to live until `liveUntil`. -/
def deploy {Address : Type} (liveUntil : ℕ) : State Address where
  admin := none
  checks := none
  combineOp := none
  circuitBreaker := none
  pendingUpgrade := none
  pausable := .fresh
  liveUntil := liveUntil
  events := []
  installed := []

section Operations

variable {Address : Type} [DecidableEq Address]

/-- An operation of the contract on its own state. -/
abbrev Op (Address α : Type) := Tx Error (State Address) α

def publish (e : Event Address) : Op Address Unit :=
  Tx.modify fun s ↦ { s with events := s.events ++ [e] }

/-- `extend_instance_ttl`. -/
def extendInstanceTtl (env : Env Address) : Op Address Unit :=
  Tx.modify fun s ↦
    { s with
      liveUntil := extendTtl instanceTtlThreshold instanceTtlExtendTo env.sequence s.liveUntil }

/-- `require_admin`. -/
def requireAdmin (env : Env Address) (admin : Address) : Op Address Unit :=
  requireStored env State.admin .notInitialized .notAuthorized admin

def requireNotPaused : Op Address Unit :=
  Pausable.requireNotPausedOr State.pausable .contractPaused

/-- Read the check list, which is there once the contract is initialized. -/
def loadChecks : Op Address (List (CheckKind Address)) := do
  let s ← Tx.get
  Tx.okOr s.checks .notInitialized

/-! ### Lifecycle -/

/-- `initialize`, a reserved word here. -/
def initialise (env : Env Address) (admin : Address) (op : CombineOp)
    (circuitBreaker : Option Address) : Op Address Unit := do
  let s ← Tx.get
  Tx.ensure (s.admin = none) .alreadyInitialized
  requireAuth env admin
  Tx.modify fun s ↦ { s with admin := some admin, combineOp := some op, checks := some [] }
  match circuitBreaker with
  | none => pure ()
  | some breaker => Tx.modify fun s ↦ { s with circuitBreaker := some breaker }
  extendInstanceTtl env

/-- `set_circuit_breaker`: not guarded by the pause flag. -/
def setCircuitBreaker (env : Env Address) (admin breaker : Address) : Op Address Unit := do
  requireAdmin env admin
  Tx.modify fun s ↦ { s with circuitBreaker := some breaker }
  extendInstanceTtl env

/-- `propose_upgrade`: any delay. -/
def proposeUpgrade (env : Env Address) (admin : Address) (newWasm : Bytes32)
    (delayLedgers : ℕ) : Op Address Unit := do
  requireAdmin env admin
  let state : UpgradeState := { newWasm, activatedAt := saturatingAdd env.sequence delayLedgers }
  Tx.modify fun s ↦ { s with pendingUpgrade := some state }
  extendInstanceTtl env
  publish (.upgradeProposed admin delayLedgers)

/-- `commit_upgrade`: no time-to-live extension. -/
def commitUpgrade (env : Env Address) (admin : Address) : Op Address Unit := do
  requireAdmin env admin
  let s ← Tx.get
  let state ← Tx.okOr s.pendingUpgrade .upgradeNotReady
  Tx.ensure (¬env.sequence < state.activatedAt) .upgradeNotReady
  Tx.modify fun s ↦
    { s with installed := s.installed ++ [state.newWasm], pendingUpgrade := none }
  publish (.upgradePerformed admin)

/-- `cancel_upgrade`: also when nothing is pending. -/
def cancelUpgrade (env : Env Address) (admin : Address) : Op Address Unit := do
  requireAdmin env admin
  Tx.modify fun s ↦ { s with pendingUpgrade := none }
  extendInstanceTtl env

/-! ### The policy -/

/-- `add_check`. -/
def addCheck (env : Env Address) (admin : Address) (check : CheckKind Address) :
    Op Address Unit := do
  requireNotPaused
  requireAdmin env admin
  let checks ← loadChecks
  Tx.ensure (¬maxChecks ≤ checks.length) .maxDepthExceeded
  Tx.modify fun s ↦ { s with checks := some (checks ++ [check]) }
  extendInstanceTtl env

/-- `remove_check`. -/
def removeCheck (env : Env Address) (admin : Address) (index : ℕ) : Op Address Unit := do
  requireNotPaused
  requireAdmin env admin
  let checks ← loadChecks
  Tx.ensure (¬checks.length ≤ index) .indexOutOfBounds
  Tx.modify fun s ↦ { s with checks := some (checks.eraseIdx index) }
  extendInstanceTtl env

/-- `swap_checks`: not guarded by the pause flag, and no time-to-live extension. Equal indices are
not checked for their range. -/
def swapChecks (env : Env Address) (admin : Address) (i j : ℕ) : Op Address Unit := do
  requireAdmin env admin
  if i = j then pure ()
  else do
    let checks ← loadChecks
    -- the lookups are the source's test of both indices against the length
    let checkI ← Tx.okOr checks[i]? .indexOutOfBounds
    let checkJ ← Tx.okOr checks[j]? .indexOutOfBounds
    Tx.modify fun s ↦ { s with checks := some ((checks.set i checkJ).set j checkI) }

/-- `clear_checks`: no time-to-live extension. -/
def clearChecks (env : Env Address) (admin : Address) : Op Address Unit := do
  requireNotPaused
  requireAdmin env admin
  Tx.modify fun s ↦ { s with checks := some [] }

/-! ### Evaluation -/

/-- What the engine asks of other contracts, whose state is `σ`. -/
structure Callees (Address σ : Type) where
  /-- `denylist-gate.check`. -/
  check : (contract address : Address) → Tx Error σ Bool
  /-- `jurisdiction-flag.try_is_permitted_jurisdiction`: `none` when the call fails. -/
  tryIsPermittedJurisdiction :
    (contract address : Address) → (allowedCodes : List Bytes) → Tx Error σ (Option Bool)
  /-- `allowlist-token.is_allowed`. -/
  isAllowed : (contract address : Address) → Tx Error σ Bool
  /-- `circuit-breaker.is_frozen`. -/
  isFrozen : (contract : Address) → Tx Error σ Bool

variable {σ : Type} (callees : Callees Address σ)

/-- `run_check`. -/
def runCheck (check : CheckKind Address) (address : Address) : Tx Error σ Bool :=
  match check with
  | .denylist contract => callees.check contract address
  | .jurisdiction contract allowedCodes => do
    let answer ← callees.tryIsPermittedJurisdiction contract address allowedCodes
    pure (decide (answer = some true))
  | .allowlist contract => callees.isAllowed contract address
  | .circuitBreaker contract => do
    let frozen ← callees.isFrozen contract
    pure (!frozen)

/-- `check_kind_symbol`. -/
def checkKindSymbol : CheckKind Address → Symbol
  | .denylist _ => "Denylist"
  | .jurisdiction _ _ => "Jurisdiction"
  | .allowlist _ => "Allowlist"
  | .circuitBreaker _ => "CircuitBreaker"

/-- One check against both parties; the second is asked only if the first passes. -/
def runBoth (check : CheckKind Address) (source target : Address) : Tx Error σ Bool := do
  let sourcePassed ← runCheck callees check source
  if sourcePassed then runCheck callees check target else pure false

/-- The loop of `CombineOp::All`, from index `i` on. -/
def evaluateAll (source target : Address) :
    ℕ → List (CheckKind Address) → Tx Error σ (Bool × Option CheckFailure)
  | _, [] => pure (true, none)
  | i, check :: checks => do
    let passed ← runBoth callees check source target
    if passed then evaluateAll source target (i + 1) checks
    else pure (false, some { checkIndex := i, kind := checkKindSymbol check })

/-- The loop of `CombineOp::Any`. -/
def evaluateAny (source target : Address) : List (CheckKind Address) → Tx Error σ Bool
  | [] => pure false
  | check :: checks => do
    let passed ← runBoth callees check source target
    if passed then pure true else evaluateAny source target checks

/-- The combination of the checks. -/
def combine (checks : List (CheckKind Address)) (op : CombineOp) (source target : Address) :
    Tx Error σ (Bool × Option CheckFailure) :=
  match op with
  | .all => evaluateAll callees source target 0 checks
  | .any =>
    if checks.isEmpty then pure (false, none)
    else do
      let anyPass ← evaluateAny callees source target checks
      if anyPass then pure (true, none)
      else pure (false, some { checkIndex := u32Max, kind := "AllFailed" })

/-- Whether the configured breaker, if there is one, is frozen. -/
def breakerFrozen (breaker : Option Address) : Tx Error σ Bool :=
  match breaker with
  | none => pure false
  | some addr => callees.isFrozen addr

/-- `evaluate_inner`. -/
def evaluateInner (checks : List (CheckKind Address)) (op : CombineOp)
    (source target : Address) : Tx Error (State Address × σ) (Bool × Option CheckFailure) := do
  let s ← Tx.onFst Tx.get
  let frozen ← Tx.onSnd (breakerFrozen callees s.circuitBreaker)
  if frozen then do
    -- the freeze is system-wide, so there is no failing check to name
    Tx.onFst (publish (.policyResult false source target))
    pure (false, none)
  else do
    let result ← Tx.onSnd (combine callees checks op source target)
    Tx.onFst (publish (.policyResult result.1 source target))
    pure result

/-- Read what an evaluation needs of the policy. -/
def loadPolicy : Op Address (List (CheckKind Address) × CombineOp) := do
  let checks ← loadChecks
  let s ← Tx.get
  let op ← Tx.okOr s.combineOp .notInitialized
  pure (checks, op)

/-- `evaluate`. -/
def evaluate (source target : Address) : Tx Error (State Address × σ) Bool := do
  let (checks, op) ← Tx.onFst loadPolicy
  let result ← evaluateInner callees checks op source target
  pure result.1

/-- `evaluate_verbose`. -/
def evaluateVerbose (source target : Address) :
    Tx Error (State Address × σ) (Bool × Option CheckFailure) := do
  let (checks, op) ← Tx.onFst loadPolicy
  evaluateInner callees checks op source target

/-- `batch_evaluate`: no bound on the batch. -/
def batchEvaluate (pairs : List (Address × Address)) :
    Tx Error (State Address × σ) (List Bool) := do
  let (checks, op) ← Tx.onFst loadPolicy
  pairs.foldlM (fun results pair ↦ do
    let result ← evaluateInner callees checks op pair.1 pair.2
    pure (results ++ [result.1])) []

/-! ### Read-only accessors -/

/-- `get_check`. -/
def getCheck (s : State Address) (index : ℕ) : Except Error (CheckKind Address) :=
  match s.checks with
  | none => .error .notInitialized
  | some checks =>
    match checks[index]? with
    | none => .error .checkIndexOutOfRange
    | some check => .ok check

/-- `get_checks`. -/
def getChecks (s : State Address) : List (CheckKind Address) := s.checks.getD []

/-! ### The contract as a system -/

/-- A call of an entry point that changes the policy or its administration. -/
inductive Call (Address : Type) where
  | initialise (admin : Address) (op : CombineOp) (circuitBreaker : Option Address)
  | setCircuitBreaker (admin breaker : Address)
  | proposeUpgrade (admin : Address) (newWasm : Bytes32) (delayLedgers : ℕ)
  | commitUpgrade (admin : Address)
  | cancelUpgrade (admin : Address)
  | addCheck (admin : Address) (check : CheckKind Address)
  | removeCheck (admin : Address) (index : ℕ)
  | swapChecks (admin : Address) (i j : ℕ)
  | clearChecks (admin : Address)
  deriving DecidableEq

/-- An invocation: a call, and the host's view it runs under. -/
structure Input (Address : Type) where
  env : Env Address
  call : Call Address

/-- Dispatch of a call to its entry point. -/
def invoke (env : Env Address) : Call Address → Op Address Unit
  | .initialise admin op circuitBreaker => initialise env admin op circuitBreaker
  | .setCircuitBreaker admin breaker => setCircuitBreaker env admin breaker
  | .proposeUpgrade admin newWasm delayLedgers => proposeUpgrade env admin newWasm delayLedgers
  | .commitUpgrade admin => commitUpgrade env admin
  | .cancelUpgrade admin => cancelUpgrade env admin
  | .addCheck admin check => addCheck env admin check
  | .removeCheck admin index => removeCheck env admin index
  | .swapChecks admin i j => swapChecks env admin i j
  | .clearChecks admin => clearChecks env admin

/-- The policy from its deployment on: a call that does not complete leaves no trace. -/
def system (liveUntil : ℕ) :
    System (State Address) (Input Address) (Except (Failure Error) Unit) where
  start := deploy liveUntil
  exec i s := (invoke i.env i.call).commit s

end Operations

end PolicyEngine
