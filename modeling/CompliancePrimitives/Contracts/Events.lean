import CompliancePrimitives.Contracts.AllowlistToken.Model
import CompliancePrimitives.Contracts.CircuitBreaker
import CompliancePrimitives.Contracts.ComplianceAggregator.Model
import CompliancePrimitives.Contracts.DenylistGate.Model
import CompliancePrimitives.Contracts.JurisdictionFlag
import CompliancePrimitives.Contracts.MultisigAdmin.Model
import CompliancePrimitives.Contracts.PolicyEngine
import CompliancePrimitives.Host.ContractEvent

/-!
# The events of the contracts, as they are published

`Event.published` is what the host is given for each event of a contract, field by field as the
`#[contractevent]` structures have them. A few entry points publish topics and data directly, and
are given as such.

Of the audit log only the event is here: its `record` is a call the other contracts make.

An event of a `#[contractevent]` structure has the snake-case name of the structure as its first
topic, then the fields marked as topics, in order; the other fields are its data, a map from their
names (`contractEvent`). The indexer sees these values and nothing else of a contract, so this
module is where the two halves of the repository meet.
-/

open Soroban

/-! ### The gates -/

namespace AllowlistToken

/-- The events of `allowlist-token`. -/
def Event.published : Event ScAddress → Published
  | .allowAdd address => contractEvent "allow_add" [.address address] []
  | .allowRemove address => contractEvent "allow_remove" [.address address] []
  | .blocked source target amount =>
    contractEvent "blocked" [.address source, .address target] [("amount", .i128 amount)]
  | .adminTransferred oldAdmin newAdmin =>
    contractEvent "admin_transferred" [.address oldAdmin, .address newAdmin] []
  | .adminProposed current proposed =>
    contractEvent "admin_proposed" [.address current, .address proposed] []
  | .upgradeProposed admin newWasm activatedAt =>
    contractEvent "upgrade_proposed" [.address admin]
      [("activated_at", .u64 activatedAt), ("new_wasm", .bytes newWasm.toList)]
  | .upgradeCancelled admin => contractEvent "upgrade_cancelled" [.address admin] []
  | .upgradeCommitted admin newWasm =>
    contractEvent "upgrade_committed" [.address admin] [("new_wasm", .bytes newWasm.toList)]
  | .paused admin => contractEvent "paused" [.address admin] []
  | .unpaused admin => contractEvent "unpaused" [.address admin] []

end AllowlistToken

namespace DenylistGate

/-- The events of `denylist-gate`. -/
def Event.published : Event ScAddress → Published
  | .denyAdd address => contractEvent "deny_add" [.address address] []
  | .denyRemove address => contractEvent "deny_remove" [.address address] []
  | .auditLogFailed kind subject =>
    contractEvent "audit_log_failed" [.address subject] [("kind", .symbol kind)]
  | .multisigInitialized threshold signerCount =>
    contractEvent "multisig_initialized" []
      [("signer_count", .u32 signerCount), ("threshold", .u32 threshold)]
  | .signerApproved signer => contractEvent "signer_approved" [.address signer] []
  | .signerAdded signer => contractEvent "signer_added" [.address signer] []
  | .signerRemoved signer => contractEvent "signer_removed" [.address signer] []
  | .thresholdChanged oldThreshold newThreshold =>
    contractEvent "threshold_changed" []
      [("new_threshold", .u32 newThreshold), ("old_threshold", .u32 oldThreshold)]
  | .adminTransferred oldAdmin newAdmin =>
    contractEvent "admin_transferred" [.address oldAdmin, .address newAdmin] []
  | .adminProposed current proposed =>
    contractEvent "admin_proposed" [.address current, .address proposed] []
  | .adminProposalCancelled current =>
    contractEvent "admin_proposal_cancelled" [.address current] []
  | .upgradeProposed admin newWasm activatedAt =>
    contractEvent "upgrade_proposed" [.address admin]
      [("activated_at", .u64 activatedAt), ("new_wasm", .bytes newWasm.toList)]
  | .upgradeCancelled admin => contractEvent "upgrade_cancelled" [.address admin] []
  | .upgradeCommitted admin newWasm =>
    contractEvent "upgrade_committed" [.address admin] [("new_wasm", .bytes newWasm.toList)]
  | .paused admin => contractEvent "paused" [.address admin] []
  | .unpaused admin => contractEvent "unpaused" [.address admin] []
  | .complianceOfficerSet officer =>
    contractEvent "compliance_officer_set" [.address officer] []
  | .complianceOfficerRevoked officer =>
    contractEvent "compliance_officer_revoked" [.address officer] []
  | .auditLogSet auditLog => contractEvent "audit_log_set" [.address auditLog] []

end DenylistGate

namespace JurisdictionFlag

/-- The events of `jurisdiction-flag`. -/
def Event.published : Event ScAddress → Published
  | .jurisdictionSet address code =>
    contractEvent "jurisdiction_set" [.address address] [("code", .string code)]
  | .jurisdictionExpired address => contractEvent "jurisdiction_expired" [.address address] []
  | .jurisdictionRemoved address => contractEvent "jurisdiction_removed" [.address address] []
  | .issuerTransferred oldIssuer newIssuer =>
    contractEvent "issuer_transferred" [.address oldIssuer, .address newIssuer] []
  | .issuerProposed currentIssuer proposedIssuer =>
    contractEvent "issuer_proposed" [.address currentIssuer, .address proposedIssuer] []
  | .issuerProposalCancelled issuer =>
    contractEvent "issuer_proposal_cancelled" [.address issuer] []
  | .paused issuer => contractEvent "paused" [.address issuer] []
  | .unpaused issuer => contractEvent "unpaused" [.address issuer] []

end JurisdictionFlag

namespace CircuitBreaker

/-- The events of `circuit-breaker`. -/
def Event.published : Event ScAddress → Published
  | .frozen caller => contractEvent "frozen" [.address caller] []
  | .unfrozen admin => contractEvent "unfrozen" [.address admin] []
  | .adminProposed current proposed =>
    contractEvent "admin_proposed" [.address current, .address proposed] []
  | .adminProposalCancelled current =>
    contractEvent "admin_proposal_cancelled" [.address current] []
  | .adminTransferred newAdmin oldAdmin =>
    contractEvent "admin_transferred" [.address newAdmin] [("old_admin", .address oldAdmin)]
  | .upgradePerformed admin newWasmHash =>
    contractEvent "upgrade_performed" [.address admin]
      [("new_wasm_hash", .bytes newWasmHash.toList)]

end CircuitBreaker

/-! ### Contracts that call the gates, or are called by them -/

namespace ComplianceAggregator

/-- The events of `compliance-aggregator`. Pausing publishes a symbol without topics. -/
def Event.published : Event ScAddress → Published
  | .adminSet admin => contractEvent "admin_set" [.address admin] []
  | .denylistGateSet gate => contractEvent "denylist_gate_set" [.address gate] []
  | .jurisdictionFlagSet flag => contractEvent "jurisdiction_flag_set" [.address flag] []
  | .circuitBreakerSet breaker => contractEvent "circuit_breaker_set" [.address breaker] []
  | .upgradePerformed admin newWasmHash =>
    contractEvent "upgrade_performed" [.address admin]
      [("new_wasm_hash", .bytes newWasmHash.toList)]
  | .paused => ⟨[], .symbol "Paused"⟩
  | .unpaused => ⟨[], .symbol "Unpaused"⟩

end ComplianceAggregator

namespace PolicyEngine

/-- The events of `policy-engine`. A proposed upgrade publishes a pair. -/
def Event.published : Event ScAddress → Published
  | .policyResult passed source target =>
    contractEvent "policy_result" [.bool passed]
      [("from", .address source), ("to", .address target)]
  | .upgradePerformed admin => contractEvent "upgrade_performed" [.address admin] []
  | .upgradeProposed admin delayLedgers =>
    ⟨[.symbol "upgprop"], .vec [.address admin, .u32 delayLedgers]⟩

end PolicyEngine

namespace MultisigAdmin

/-- The events of `multisig-admin`. An executed proposal publishes its number. -/
def Event.published : Event ScAddress → Published
  | .signerAdded signer => contractEvent "signer_added" [.address signer] []
  | .signerRemoved signer => contractEvent "signer_removed" [.address signer] []
  | .thresholdSet threshold => contractEvent "threshold_set" [] [("threshold", .u32 threshold)]
  | .authOk validCount threshold =>
    contractEvent "auth_ok" [] [("threshold", .u32 threshold), ("valid_count", .u32 validCount)]
  | .contractPausedEvent => contractEvent "contract_paused_event" [] []
  | .contractUnpausedEvent => contractEvent "contract_unpaused_event" [] []
  | .upgraded newWasmHash =>
    contractEvent "upgraded" [] [("new_wasm_hash", .bytes newWasmHash.toList)]
  | .propExec proposalId => ⟨[.symbol "PropExec"], .u64 proposalId⟩

end MultisigAdmin

namespace AuditLog

/-- `ComplianceEvent`. -/
structure ComplianceEvent where
  kind : Symbol
  subject : ScAddress
  source : ScAddress
  detail : Bytes

/-- The event of a record. -/
def ComplianceEvent.published (e : ComplianceEvent) : Published :=
  contractEvent "compliance_event" [.symbol e.kind, .address e.subject]
    [("detail", .string e.detail), ("source", .address e.source)]

end AuditLog
