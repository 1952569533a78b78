import CompliancePrimitives.Contracts.DenylistGate.Model
import CompliancePrimitives.Foundation.Replay

/-!
# `denylist-gate`: when a call completes, and with which state

One equivalence per entry point: the call completes exactly when its guards hold, and then the
state is the one given, events included. The proofs are all the same — unfold and simplify with the
inversion lemmas of transactions — because the shared guards and the audit call have their own
equivalences first.

The three signer actions share `approve`, and are treated together in the next module.
-/

namespace DenylistGate

open Soroban

variable {Address : Type} [DecidableEq Address]
variable {env : Env Address} {s s' : State Address} {u : Unit}

/-! ### The shared guards -/

omit [DecidableEq Address] in
@[simp]
theorem publish_eq_ok_iff {e : Event Address} :
    publish e s = .ok (u, s') ↔ s' = { s with events := s.events ++ [e] } :=
  Tx.modify_eq_ok_iff

@[simp]
theorem requireAdmin_eq_ok_iff {admin : Address} :
    requireAdmin env admin s = .ok (u, s') ↔
      env.auths admin = true ∧ s.admin = some admin ∧ s' = s :=
  requireStored_eq_ok_iff

omit [DecidableEq Address] in
@[simp]
theorem rejectIfPaused_eq_ok_iff :
    rejectIfPaused s = .ok (u, s') ↔ s.paused.getD false = false ∧ s' = s := by
  simp [rejectIfPaused, and_comm]

/-- Who may edit the denylist. -/
def HasAuthority (s : State Address) (caller : Address) : Prop :=
  s.admin = some caller ∨ (s.admin.isSome = true ∧ s.complianceOfficer = some caller)

@[simp]
theorem requireComplianceAuthority_eq_ok_iff {caller : Address} :
    requireComplianceAuthority env caller s = .ok (u, s') ↔
      env.auths caller = true ∧ HasAuthority s caller ∧ s' = s := by
  simp only [requireComplianceAuthority, Tx.bind_eq_ok_iff, requireAuth_eq_ok_iff,
    Tx.get_eq_ok_iff, Tx.okOr_eq_ok_iff, Tx.ensure_eq_ok_iff, HasAuthority, and_assoc,
    exists_and_left, exists_eq_left, exists_const]
  constructor
  · rintro ⟨hauth, admin, hadmin, hrole, rfl⟩
    refine ⟨hauth, ?_, rfl⟩
    rcases hrole with rfl | hofficer
    · exact .inl hadmin
    · exact .inr ⟨by simp [hadmin], hofficer⟩
  · rintro ⟨hauth, hrole, rfl⟩
    rcases hrole with hadmin | ⟨hsome, hofficer⟩
    · exact ⟨hauth, caller, hadmin, .inl rfl, rfl⟩
    · obtain ⟨admin, hadmin⟩ := Option.isSome_iff_exists.1 hsome
      exact ⟨hauth, admin, hadmin, .inr hofficer, rfl⟩

/-- What the audit call leaves behind: nothing without a log, the `record` call with one, and the
`AuditLogFailed` event after it when the log does not accept. -/
def audited (env : Env Address) (kind : Symbol) (subject : Address) (detail : String)
    (s : State Address) : State Address :=
  match s.auditLog with
  | none => s
  | some auditLog =>
    let call : RecordCall Address := { auditLog, kind, subject, detail }
    { s with
      records := s.records ++ [call]
      events := if env.auditAnswer call then s.events
        else s.events ++ [.auditLogFailed kind subject] }

omit [DecidableEq Address] in
/-- **The audit call never stops an invocation.** -/
@[simp]
theorem recordAudit_eq_ok_iff {kind : Symbol} {subject : Address} {detail : String} :
    recordAudit env kind subject detail s = .ok (u, s') ↔
      s' = audited env kind subject detail s := by
  simp only [recordAudit, Tx.bind_eq_ok_iff, Tx.get_eq_ok_iff, audited]
  cases hlog : s.auditLog with
  | none => simp [hlog]
  | some auditLog =>
    by_cases hanswer : env.auditAnswer { auditLog, kind, subject, detail } = true <;>
      simp [hlog, hanswer]

/-! ### Administration -/

omit [DecidableEq Address] in
theorem initialise_eq_ok_iff {admin : Address} :
    initialise env admin s = .ok (u, s') ↔
      s.admin = none ∧ env.auths admin = true ∧
        s' = { s with admin := some admin, paused := some false } := by
  simp [initialise]

theorem setComplianceOfficer_eq_ok_iff {admin officer : Address} :
    setComplianceOfficer env admin officer s = .ok (u, s') ↔
      env.auths admin = true ∧ s.admin = some admin ∧
        s' = { s with complianceOfficer := some officer,
                      events := s.events ++ [.complianceOfficerSet officer] } := by
  simp [setComplianceOfficer, and_assoc]

theorem setAuditLog_eq_ok_iff {admin auditLog : Address} :
    setAuditLog env admin auditLog s = .ok (u, s') ↔
      env.auths admin = true ∧ s.admin = some admin ∧
        s' = { s with auditLog := some auditLog,
                      events := s.events ++ [.auditLogSet auditLog] } := by
  simp [setAuditLog, and_assoc]

theorem clearAuditLog_eq_ok_iff {admin : Address} :
    clearAuditLog env admin s = .ok (u, s') ↔
      env.auths admin = true ∧ s.admin = some admin ∧ s' = { s with auditLog := none } := by
  simp [clearAuditLog, and_assoc]

/-- The state after a revocation: unchanged when there was no officer. -/
def revoked (s : State Address) : State Address :=
  match s.complianceOfficer with
  | none => s
  | some officer =>
    { s with complianceOfficer := none,
             events := s.events ++ [.complianceOfficerRevoked officer] }

theorem revokeComplianceOfficer_eq_ok_iff {admin : Address} :
    revokeComplianceOfficer env admin s = .ok (u, s') ↔
      env.auths admin = true ∧ s.admin = some admin ∧ s' = revoked s := by
  cases hofficer : s.complianceOfficer <;>
    simp [revokeComplianceOfficer, revoked, hofficer, and_assoc]

theorem proposeAdmin_eq_ok_iff {currentAdmin newAdmin : Address} :
    proposeAdmin env currentAdmin newAdmin s = .ok (u, s') ↔
      env.auths currentAdmin = true ∧ s.admin = some currentAdmin ∧
        s' = { s with pendingAdmin := some newAdmin,
                      events := s.events ++ [.adminProposed currentAdmin newAdmin] } := by
  simp [proposeAdmin, and_assoc]

theorem acceptAdmin_eq_ok_iff {newAdmin : Address} :
    acceptAdmin env newAdmin s = .ok (u, s') ↔
      env.auths newAdmin = true ∧ s.pendingAdmin = some newAdmin ∧
        ∃ oldAdmin, s.admin = some oldAdmin ∧
          s' = { s with admin := some newAdmin, pendingAdmin := none,
                        events := s.events ++ [.adminTransferred oldAdmin newAdmin] } := by
  simp [acceptAdmin, and_assoc]

theorem cancelAdminProposal_eq_ok_iff {currentAdmin : Address} :
    cancelAdminProposal env currentAdmin s = .ok (u, s') ↔
      env.auths currentAdmin = true ∧ s.admin = some currentAdmin ∧
        s.pendingAdmin.isSome = true ∧
        s' = { s with pendingAdmin := none,
                      events := s.events ++ [.adminProposalCancelled currentAdmin] } := by
  simp [cancelAdminProposal, and_assoc]

theorem transferAdmin_eq_ok_iff {currentAdmin newAdmin : Address} :
    transferAdmin env currentAdmin newAdmin s = .ok (u, s') ↔
      env.auths currentAdmin = true ∧ s.admin = some currentAdmin ∧
        s' = { s with admin := some newAdmin, pendingAdmin := none,
                      events := s.events ++ [.adminTransferred currentAdmin newAdmin] } := by
  simp [transferAdmin, and_assoc]

theorem pause_eq_ok_iff {admin : Address} :
    pause env admin s = .ok (u, s') ↔
      env.auths admin = true ∧ s.admin = some admin ∧
        s' = { s with paused := some true, events := s.events ++ [.paused admin] } := by
  simp [pause, and_assoc]

theorem unpause_eq_ok_iff {admin : Address} :
    unpause env admin s = .ok (u, s') ↔
      env.auths admin = true ∧ s.admin = some admin ∧
        s' = { s with paused := some false, events := s.events ++ [.unpaused admin] } := by
  simp [unpause, and_assoc]

/-! ### Upgrades -/

theorem proposeUpgrade_eq_ok_iff {admin : Address} {newWasm : Bytes32} {delayLedgers : ℕ} :
    proposeUpgrade env admin newWasm delayLedgers s = .ok (u, s') ↔
      env.auths admin = true ∧ s.admin = some admin ∧ minUpgradeDelayLedgers ≤ delayLedgers ∧
        s' = { s with
          pendingUpgrade :=
            some { newWasm, activatedAt := saturatingAdd env.sequence delayLedgers }
          events := s.events ++
            [.upgradeProposed admin newWasm (saturatingAdd env.sequence delayLedgers)] } := by
  simp [proposeUpgrade, and_assoc]

theorem commitUpgrade_eq_ok_iff {admin : Address} :
    commitUpgrade env admin s = .ok (u, s') ↔
      env.auths admin = true ∧ s.admin = some admin ∧
        ∃ state, s.pendingUpgrade = some state ∧ state.activatedAt ≤ env.sequence ∧
          s' = { s with
            installed := s.installed ++ [state.newWasm]
            pendingUpgrade := none
            events := s.events ++ [.upgradeCommitted admin state.newWasm] } := by
  simp [commitUpgrade, and_assoc]

theorem cancelUpgrade_eq_ok_iff {admin : Address} :
    cancelUpgrade env admin s = .ok (u, s') ↔
      env.auths admin = true ∧ s.admin = some admin ∧
        s' = { s with pendingUpgrade := none,
                      events := s.events ++ [.upgradeCancelled admin] } := by
  simp [cancelUpgrade, and_assoc]

/-! ### The denylist -/

theorem addToDenylist_eq_ok_iff {admin address : Address} :
    addToDenylist env admin address s = .ok (u, s') ↔
      s.paused.getD false = false ∧ env.auths admin = true ∧ HasAuthority s admin ∧
        s' = audited env "deny_add" address "address added to denylist"
          { s with denied := Function.update s.denied address (some true),
                   events := s.events ++ [.denyAdd address] } := by
  simp [addToDenylist, and_assoc]

theorem removeFromDenylist_eq_ok_iff {admin address : Address} :
    removeFromDenylist env admin address s = .ok (u, s') ↔
      s.paused.getD false = false ∧ env.auths admin = true ∧ HasAuthority s admin ∧
        s' = audited env "deny_remove" address "address removed from denylist"
          { s with denied := Function.update s.denied address none,
                   events := s.events ++ [.denyRemove address] } := by
  simp [removeFromDenylist, and_assoc]

theorem removeDenied_eq_ok_iff {address : Address} :
    removeDenied address s = .ok (u, s') ↔
      s' = { s with denied := Function.update s.denied address none,
                    events := s.events ++ [.denyRemove address] } := by
  simp [removeDenied]

/-- The batch loop completes, with the listed addresses gone and one event for each of them. -/
theorem foldlM_removeDenied_eq_ok_iff {addresses : List Address} :
    addresses.foldlM (fun _ address ↦ removeDenied address) () s = .ok (u, s') ↔
      s' = { s with
        denied := fun a ↦ if a ∈ addresses then none else s.denied a
        events := s.events ++ addresses.map .denyRemove } := by
  refine Tx.foldlM_eq_ok_iff (k := removeDenied) (F := fun addresses s ↦ { s with
    denied := fun a ↦ if a ∈ addresses then none else s.denied a
    events := s.events ++ addresses.map .denyRemove })
    (fun _ _ _ ↦ removeDenied_eq_ok_iff) (fun s ↦ by simp) fun address addresses s ↦ ?_
  simp only [ite_mem_update, List.append_assoc, List.singleton_append, List.map_cons]

theorem removeMultipleFromDenylist_eq_ok_iff {admin : Address} {addresses : List Address} :
    removeMultipleFromDenylist env admin addresses s = .ok (u, s') ↔
      s.paused.getD false = false ∧ env.auths admin = true ∧ HasAuthority s admin ∧
        addresses.length ≤ maxBatchSize ∧
        s' = { s with
          denied := fun a ↦ if a ∈ addresses then none else s.denied a
          events := s.events ++ addresses.map .denyRemove } := by
  simp [removeMultipleFromDenylist, foldlM_removeDenied_eq_ok_iff, and_assoc]

/-! ### The signer set -/

theorem initializeMultisig_eq_ok_iff {admin : Address} {signers : List Address} {threshold : ℕ} :
    initializeMultisig env admin signers threshold s = .ok (u, s') ↔
      env.auths admin = true ∧ s.admin = some admin ∧ s.signerSet = none ∧
        IsRoster signers threshold ∧
        s' = { s with signerSet := some { signers, threshold },
                      events := s.events ++ [.multisigInitialized threshold signers.length] } := by
  have hroster : IsRoster signers threshold ↔ signers ≠ [] ∧
      ¬(threshold = 0 ∨ signers.length < threshold) ∧ signers.Nodup := by
    constructor
    · intro h
      exact ⟨h.ne_nil, by have := h.one_le; have := h.le_length; omega, h.nodup⟩
    · rintro ⟨-, hrange, hnodup⟩
      exact ⟨hnodup, by omega, by omega⟩
  simp [initializeMultisig, hroster, hasDuplicate_eq_false_iff, and_assoc]

@[simp]
theorem requireSigner_eq_ok_iff {caller : Address} {set : SignerSet Address} :
    requireSigner env caller s = .ok (set, s') ↔
      env.auths caller = true ∧ s.signerSet = some set ∧ caller ∈ set.signers ∧ s' = s := by
  simp only [requireSigner, Tx.bind_eq_ok_iff, requireAuth_eq_ok_iff, Tx.get_eq_ok_iff,
    Tx.okOr_eq_ok_iff, Tx.ensure_eq_ok_iff, Tx.pure_eq_ok_iff, and_assoc, exists_and_left,
    exists_eq_left, exists_const]
  constructor
  · rintro ⟨hauth, signerSet, hset, hmem, rfl, rfl⟩
    exact ⟨hauth, hset, hmem, rfl⟩
  · rintro ⟨hauth, hset, hmem, rfl⟩
    exact ⟨hauth, set, hset, hmem, rfl, rfl⟩

end DenylistGate
