import CompliancePrimitives.Composition.Network
import CompliancePrimitives.Contracts.AuditLog.Trail
import CompliancePrimitives.Host.Invoker

/-!
# Policy evaluations on record

Two ways of keeping a record of what a policy engine answers, from the `examples` directory.
`policy-engine-audit` is a contract that evaluates and then records under its **own** name;
`compliance-integration-flow` is a function that does so under a name it is given, with a circuit
breaker in front. Both run on a `Site`: the deployed engines and logs beside the contracts that
engines ask.

The first has no `__check_auth`, so what reaches the site from elsewhere never carries its
authorization (`Soroban.Env.outside`). That is all that keeps others from recording under its name,
and it is enough: what follows from it for whole runs is in `DecisionTrail`.

The second is no contract. What it returns is a value, also where the breaker has halted it, so that
the halt stays on record; and since it records under whatever name it is given, a record of it says
who called it and no more. `executeTransfer_eq_ok_iff` says what it returns and what it has recorded
by then.

A call of an engine, a log or a primitive by anyone is an operation of the site. The calls among
them that matter here are made as the source makes them: an error of the callee stops the caller.
-/

namespace Composition

open Soroban

/-- The deployed policy engines and audit logs, and the contracts engines ask. -/
structure Site (Address : Type) where
  /-- The policy engines, by their addresses. -/
  engines : Address → Option (PolicyEngine.State Address)
  /-- The audit logs. -/
  logs : Address → Option (AuditLog.State Address)
  /-- The contracts behind the checks. -/
  world : World Address

namespace Site

variable {Address : Type} [DecidableEq Address]

/-- `evaluate` of the engine at an address. -/
def evaluate (env : Env Address) (engine source target : Address) :
    Tx PolicyEngine.Error (Site Address) Bool :=
  Tx.within (fun s ↦ (s.engines engine).map fun p ↦ (p, s.world))
    (fun q s ↦
      { s with engines := Function.update s.engines engine (some q.1), world := q.2 })
    (PolicyEngine.evaluate (callees env) source target)

/-- `is_frozen` of the breaker at an address. -/
def isFrozen (env : Env Address) (breaker : Address) :
    Tx PolicyEngine.Error (Site Address) Bool :=
  Tx.within (fun s ↦ some s.world) (fun w s ↦ { s with world := w })
    ((callees env).isFrozen breaker)

/-- Work on the log at an address. -/
def onLog {α : Type} (log : Address) (x : Tx AuditLog.Error (AuditLog.State Address) α) :
    Tx AuditLog.Error (Site Address) α :=
  Tx.within (fun s ↦ s.logs log)
    (fun t s ↦ { s with logs := Function.update s.logs log (some t) }) x

/-- `record` of the log at an address. -/
def record (env : Env Address) (log source : Address) (kind : Symbol) (subject : Address)
    (detail : Bytes) : Tx AuditLog.Error (Site Address) Unit :=
  onLog log (AuditLog.record env source kind subject detail)

/-- An invocation of the engine at an address. -/
def onEngine (engine : Address) (i : PolicyEngine.Input Address) :
    Tx PolicyEngine.Error (Site Address) Unit :=
  Tx.within (fun s ↦ s.engines engine)
    (fun p s ↦ { s with engines := Function.update s.engines engine (some p) })
    (PolicyEngine.invoke i.env i.call)

end Site

end Composition

open Soroban Composition

/-! ### `policy-engine-audit` -/

namespace PolicyEngineAudit

/-- `Error`. -/
inductive Error where
  | notInitialized
  | alreadyInitialized
  | policyViolation
  deriving DecidableEq, Repr

/-- Storage. -/
structure State (Address : Type) where
  policyEngine : Option Address
  auditLog : Option Address

/-- The storage of a fresh deployment. -/
def deploy {Address : Type} : State Address where
  policyEngine := none
  auditLog := none

/-- How an answer is recorded. -/
def kind (passed : Bool) : Symbol := if passed then "policy_pass" else "policy_fail"

/-- The text that goes with it. -/
def detail (passed : Bool) : Bytes :=
  AllowlistToken.bytesOf (if passed then "Transfer approved" else "Transfer denied by policy")

variable {Address : Type}

/-- `initialize`, a reserved word here: asks for no authorization. -/
def initialise (policyEngine auditLog : Address) : Tx Error (State Address) Unit := do
  let s ← Tx.get
  Tx.ensure (s.policyEngine.isNone = true) .alreadyInitialized
  Tx.modify fun s ↦ { s with policyEngine := some policyEngine, auditLog := some auditLog }

variable [DecidableEq Address]

/-- `evaluate_and_log`. A log that does not take the record stops it, so nothing is answered that is
not on record. -/
def evaluateAndLog (self : Address) (env : Env Address) (source target : Address) :
    Tx Error (State Address × Site Address) Bool := do
  let s ← Tx.onFst Tx.get
  let policyEngine ← Tx.okOr s.policyEngine .notInitialized
  let auditLog ← Tx.okOr s.auditLog .notInitialized
  let passed ← Tx.onSnd (Tx.call (Site.evaluate env policyEngine source target))
  Tx.onSnd (Tx.call
    (Site.record (env.invokedBy self) auditLog self (kind passed) source (detail passed)))
  pure passed

end PolicyEngineAudit

/-! ### `compliance-integration-flow` -/

namespace ComplianceIntegrationFlow

/-- `FlowError`. -/
inductive FlowError where
  | circuitBreakerFrozen
  deriving DecidableEq, Repr

variable {Address ε : Type} [DecidableEq Address]

/-- `execute_transfer`. It is no entry point: what it returns is a value, and an error among them
takes nothing back. A halt is recorded about the sender, an answer of the engine about the
recipient. -/
def executeTransfer (env : Env Address)
    (policyEngine circuitBreaker auditLog auditSource source target : Address) :
    Tx ε (Site Address) (Except FlowError Bool) := do
  let frozen ← Tx.call (Site.isFrozen env circuitBreaker)
  if frozen then do
    Tx.call (Site.record env auditLog auditSource "halted" source
      (AllowlistToken.bytesOf "circuit breaker frozen"))
    pure (.error .circuitBreakerFrozen)
  else do
    let passed ← Tx.call (Site.evaluate env policyEngine source target)
    Tx.call (Site.record env auditLog auditSource (if passed then "allowed" else "blocked") target
      (AllowlistToken.bytesOf "policy evaluation"))
    pure (.ok passed)

/-- **What the flow returns is what it recorded**: a halt by the breaker, or the engine's answer. -/
theorem executeTransfer_eq_ok_iff {env : Env Address}
    {policyEngine circuitBreaker auditLog auditSource source target : Address}
    {s s' : Site Address} {v : Except FlowError Bool} :
    (executeTransfer env policyEngine circuitBreaker auditLog auditSource source target :
        Tx ε _ _) s = .ok (v, s') ↔
      (∃ s₁, Site.isFrozen env circuitBreaker s = .ok (true, s₁) ∧
        Site.record env auditLog auditSource "halted" source
          (AllowlistToken.bytesOf "circuit breaker frozen") s₁ = .ok ((), s') ∧
        v = .error .circuitBreakerFrozen) ∨
      ∃ s₁ passed s₂, Site.isFrozen env circuitBreaker s = .ok (false, s₁) ∧
        Site.evaluate env policyEngine source target s₁ = .ok (passed, s₂) ∧
        Site.record env auditLog auditSource (if passed then "allowed" else "blocked") target
          (AllowlistToken.bytesOf "policy evaluation") s₂ = .ok ((), s') ∧ v = .ok passed := by
  simp only [executeTransfer, Tx.bind_eq_ok_iff, Tx.call_eq_ok_iff]
  constructor
  -- the breaker is asked first, and the engine only if it is open
  · rintro ⟨frozen, s₁, hfrozen, hrest⟩
    cases frozen with
    | true =>
      simp only [↓reduceIte, Tx.bind_eq_ok_iff, Tx.call_eq_ok_iff, Tx.pure_eq_ok_iff] at hrest
      obtain ⟨_, _, hrecord, hv, rfl⟩ := hrest
      exact .inl ⟨s₁, hfrozen, hrecord, hv⟩
    | false =>
      simp only [Bool.false_eq_true, ↓reduceIte, Tx.bind_eq_ok_iff, Tx.call_eq_ok_iff,
        Tx.pure_eq_ok_iff] at hrest
      obtain ⟨passed, s₂, hevaluate, _, _, hrecord, hv, rfl⟩ := hrest
      exact .inr ⟨s₁, passed, s₂, hfrozen, hevaluate, hrecord, hv⟩
  · rintro (⟨s₁, hfrozen, hrecord, rfl⟩ | ⟨s₁, passed, s₂, hfrozen, hevaluate, hrecord, rfl⟩)
    · refine ⟨true, s₁, hfrozen, ?_⟩
      simp only [↓reduceIte, Tx.bind_eq_ok_iff, Tx.call_eq_ok_iff, Tx.pure_eq_ok_iff]
      exact ⟨(), s', hrecord, trivial, rfl⟩
    · refine ⟨false, s₁, hfrozen, ?_⟩
      simp only [Bool.false_eq_true, ↓reduceIte, Tx.bind_eq_ok_iff, Tx.call_eq_ok_iff,
        Tx.pure_eq_ok_iff]
      exact ⟨passed, s₂, hevaluate, (), s', hrecord, rfl, rfl⟩

end ComplianceIntegrationFlow

/-! ### The site at work -/

namespace Composition

variable {Address : Type} [DecidableEq Address]

/-- An invocation of a contract of the site, by anyone. -/
inductive SiteOperation (Address : Type) where
  | world (op : Operation Address)
  | engine (contract : Address) (i : PolicyEngine.Input Address)
  | evaluate (env : Env Address) (contract source target : Address)
  | log (contract : Address) (i : AuditLog.Input Address)
  | executeTransfer (env : Env Address)
      (policyEngine circuitBreaker auditLog auditSource source target : Address)

/-- Run an operation that does not come from `self`. What does not complete leaves no trace. -/
def Site.operate (self : Address) (ext : AllowlistToken.Externals Address) (s : Site Address) :
    SiteOperation Address → Site Address
  | .world op => { s with world := s.world.operate ext op }
  | .engine contract i => ((onEngine contract i).commit s).2
  | .evaluate env contract source target => ((evaluate env contract source target).commit s).2
  | .log contract i =>
    ((onLog contract (AuditLog.invoke (i.env.outside self) i.call)).commit s).2
  | .executeTransfer env policyEngine circuitBreaker auditLog auditSource source target =>
    ((ComplianceIntegrationFlow.executeTransfer (env.outside self) policyEngine circuitBreaker
      auditLog auditSource source target : Tx AuditLog.Error _ _).commit s).2

end Composition

namespace PolicyEngineAudit

variable {Address : Type} [DecidableEq Address]

/-- What can happen next: a call of the contract, or of another contract of the site. -/
inductive Input (Address : Type) where
  | initialise (policyEngine auditLog : Address)
  | evaluateAndLog (env : Env Address) (source target : Address)
  | elsewhere (op : SiteOperation Address)

/-- The contract deployed at `self`, among the contracts of a site. A step answers what a completed
`evaluate_and_log` returns. -/
def system (self : Address) (ext : AllowlistToken.Externals Address) (start : Site Address) :
    System (State Address × Site Address) (Input Address) (Option Bool) where
  start := (deploy, start)
  exec
    | .initialise policyEngine auditLog, p =>
      (none, (((initialise policyEngine auditLog).commit p.1).2, p.2))
    | .evaluateAndLog env source target, p =>
      let r := (evaluateAndLog self env source target).commit p
      (r.1.toOption, r.2)
    | .elsewhere op, p => (none, (p.1, p.2.operate self ext op))

end PolicyEngineAudit
