import CompliancePrimitives.Foundation.Run
import CompliancePrimitives.Foundation.Quorum
import CompliancePrimitives.Contracts.Pausable
import CompliancePrimitives.Contracts.MultisigAdmin.Model
import CompliancePrimitives.Composition.AllowlistTable
import CompliancePrimitives.Composition.DenylistTable
import CompliancePrimitives.Composition.FailsClosed
import CompliancePrimitives.Composition.Handover
import CompliancePrimitives.Composition.JurisdictionTable
import CompliancePrimitives.Contracts.AllowlistToken.Delegation
import CompliancePrimitives.Contracts.AuditLog.Trail
import CompliancePrimitives.Contracts.CircuitBreaker.Announcements
import CompliancePrimitives.Contracts.CircuitBreaker.Freeze
import CompliancePrimitives.Contracts.ComplianceAggregator.Batch
import CompliancePrimitives.Contracts.DenylistGate.AuditTrail
import CompliancePrimitives.Contracts.DenylistGate.Readmission
import CompliancePrimitives.Contracts.DenylistGate.Timelock
import CompliancePrimitives.Contracts.JurisdictionFlag.Roles
import CompliancePrimitives.Contracts.MultisigAdmin.Readmission
import CompliancePrimitives.Contracts.AllowlistToken.Containment
import CompliancePrimitives.Contracts.AllowlistToken.Pausing
import CompliancePrimitives.Contracts.AllowlistToken.Transfers
import CompliancePrimitives.Foundation.Encoding
import CompliancePrimitives.Foundation.PagedLog
import CompliancePrimitives.Indexer.Checkpoint
import CompliancePrimitives.Indexer.Rows
import CompliancePrimitives.Contracts.AllowlistToken.LastWrite
import CompliancePrimitives.Contracts.AuditLog.Paging
import CompliancePrimitives.Contracts.ComplianceAggregator.Configuration
import CompliancePrimitives.Contracts.DenylistGate.LastWrite
import CompliancePrimitives.Contracts.MultisigAdmin.Pausing
import CompliancePrimitives.Contracts.PolicyEngine.FanOut
import CompliancePrimitives.Indexer.CheckpointBounds
import CompliancePrimitives.Indexer.Convergence
import CompliancePrimitives.Contracts.ComplianceAggregator.CheckAll
import CompliancePrimitives.Contracts.DenylistGate.ApprovalOrder
import CompliancePrimitives.Contracts.JurisdictionFlag.Batch
import CompliancePrimitives.Contracts.MultisigAdmin.CheckAuth
import CompliancePrimitives.Contracts.PolicyEngine.Reordering
import CompliancePrimitives.Indexer.NestedValues
import CompliancePrimitives.Indexer.Rpc
import CompliancePrimitives.Host.StrKey
import CompliancePrimitives.Indexer.StrKeys
import CompliancePrimitives.Indexer.Query
import CompliancePrimitives.Foundation.Lease
import CompliancePrimitives.Contracts.ComplianceAggregator.TimeToLive
import CompliancePrimitives.Contracts.PolicyEngine.TimeToLive
import CompliancePrimitives.Foundation.BitGroups
import CompliancePrimitives.Foundation.Tally
import CompliancePrimitives.Contracts.Pausable.Bookkeeping
import CompliancePrimitives.Contracts.AllowlistToken.SignedMessage
import CompliancePrimitives.Indexer.AddressRendering
import CompliancePrimitives.Indexer.DecodeWork
import CompliancePrimitives.Consumers.Sep41Denial
import CompliancePrimitives.Consumers.DecisionTrail
import CompliancePrimitives.Composition.AuditTable
import CompliancePrimitives.Composition.GovernedAllowlist
import CompliancePrimitives.Indexer.Health
import CompliancePrimitives.Indexer.QueryCommand
import CompliancePrimitives.Composition.CheckpointTables
import CompliancePrimitives.Composition.LiveEvaluation
