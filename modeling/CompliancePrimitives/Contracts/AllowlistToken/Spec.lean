import CompliancePrimitives.Contracts.AllowlistToken.Model
import CompliancePrimitives.Foundation.Replay

/-!
# `allowlist-token`: when a call completes, and with which state

One equivalence per entry point, events included: the guards a completed call has passed, and the
state it leaves. The equivalences are all that the other modules know of the code; an entry point is
unfolded here and nowhere else.

The guards stand in the order of the source, with the state a call starts in on the right. Where a
guard is shared (`requireAdmin`, `rejectIfPaused`, the guard of the removals), it has an equivalence
of its own, and those of the entry points are put together from these. A delegated addition is
`Submission.Presentable` and comes with a nonce above the stored one.

How a call fails is not said. A call that does not complete leaves the state it was made in, by
`Tx.commit`, whether it trapped or returned an error.
-/

namespace AllowlistToken

open Soroban

variable {Address : Type} [DecidableEq Address]
variable {ext : Externals Address} {env : Env Address} {s s' : State Address} {u : Unit}

/-! ### The shared guards and writes -/

omit [DecidableEq Address] in
@[simp]
theorem publish_eq_ok_iff {e : Event Address} :
    publish e s = .ok (u, s') ↔ s' = { s with events := s.events ++ [e] } :=
  Tx.modify_eq_ok_iff

@[simp]
theorem requireConfiguredAdmin_eq_ok_iff {admin : Address} :
    requireConfiguredAdmin admin s = .ok (u, s') ↔ s.admin = some admin ∧ s' = s := by
  simp only [requireConfiguredAdmin, Tx.bind_eq_ok_iff, Tx.get_eq_ok_iff, Tx.okOr_eq_ok_iff,
    Tx.ensure_eq_ok_iff, and_assoc, exists_and_left, exists_eq_left]
  constructor
  · rintro ⟨storedAdmin, hadmin, rfl, rfl⟩
    exact ⟨hadmin, rfl⟩
  · rintro ⟨hadmin, rfl⟩
    exact ⟨admin, hadmin, rfl, rfl⟩

@[simp]
theorem requireAdmin_eq_ok_iff {admin : Address} :
    requireAdmin env admin s = .ok (u, s') ↔
      env.auths admin = true ∧ s.admin = some admin ∧ s' = s := by
  simp [requireAdmin, and_assoc]

omit [DecidableEq Address] in
@[simp]
theorem requireComplianceAuthority_eq_ok_iff {caller : Address} :
    requireComplianceAuthority ext env caller s = .ok (u, s') ↔
      ext.complianceAuthority s env.auths caller = true ∧ s' = s := by
  simp [requireComplianceAuthority, and_comm]

omit [DecidableEq Address] in
@[simp]
theorem rejectIfPaused_eq_ok_iff :
    rejectIfPaused s = .ok (u, s') ↔ s.paused.getD false = false ∧ s' = s := by
  simp [rejectIfPaused, and_comm]

@[simp]
theorem allow_eq_ok_iff {entry : AllowlistEntry} {address : Address} :
    allow entry address s = .ok (u, s') ↔
      s' = { s with allowed := Function.update s.allowed address (some entry),
                    events := s.events ++ [.allowAdd address] } := by
  simp [allow]

@[simp]
theorem disallow_eq_ok_iff {address : Address} :
    disallow address s = .ok (u, s') ↔
      s' = { s with allowed := Function.update s.allowed address none,
                    events := s.events ++ [.allowRemove address] } := by
  simp [disallow]

/-- A batch of additions writes every listed entry, with one event for each. -/
theorem foldlM_allow_eq_ok_iff {entry : AllowlistEntry} {addresses : List Address} :
    addresses.foldlM (fun _ address ↦ allow entry address) () s = .ok (u, s') ↔
      s' = { s with
        allowed := fun a ↦ if a ∈ addresses then some entry else s.allowed a
        events := s.events ++ addresses.map .allowAdd } := by
  refine Tx.foldlM_eq_ok_iff (k := allow entry) (F := fun addresses s ↦ { s with
    allowed := fun a ↦ if a ∈ addresses then some entry else s.allowed a
    events := s.events ++ addresses.map .allowAdd })
    (fun _ _ _ ↦ allow_eq_ok_iff) (fun s ↦ by simp) fun address addresses s ↦ ?_
  simp only [ite_mem_update, List.append_assoc, List.singleton_append, List.map_cons]

/-- A batch of removals removes every listed entry, with one event for each. -/
theorem foldlM_disallow_eq_ok_iff {addresses : List Address} :
    addresses.foldlM (fun _ address ↦ disallow address) () s = .ok (u, s') ↔
      s' = { s with
        allowed := fun a ↦ if a ∈ addresses then none else s.allowed a
        events := s.events ++ addresses.map .allowRemove } := by
  refine Tx.foldlM_eq_ok_iff (k := disallow) (F := fun addresses s ↦ { s with
    allowed := fun a ↦ if a ∈ addresses then none else s.allowed a
    events := s.events ++ addresses.map .allowRemove })
    (fun _ _ _ ↦ disallow_eq_ok_iff) (fun s ↦ by simp) fun address addresses s ↦ ?_
  simp only [ite_mem_update, List.append_assoc, List.singleton_append, List.map_cons]

/-! ### Setup and the allowlist -/

omit [DecidableEq Address] in
theorem initialise_eq_ok_iff {admin token : Address} :
    initialise env admin token s = .ok (u, s') ↔
      s.admin = none ∧ env.auths admin = true ∧
        s' = { s with admin := some admin, token := some token } := by
  simp [initialise]

theorem setDelegatedAdminKey_eq_ok_iff {admin : Address} {pubkey : Bytes32} :
    setDelegatedAdminKey env admin pubkey s = .ok (u, s') ↔
      env.auths admin = true ∧ s.admin = some admin ∧
        s' = { s with delegatedAdminPubKey := some pubkey } := by
  simp [setDelegatedAdminKey, and_assoc]

theorem addToAllowlist_eq_ok_iff {admin address : Address} {expirationLedger : Option ℕ} :
    addToAllowlist env admin address expirationLedger s = .ok (u, s') ↔
      env.auths admin = true ∧ s.admin = some admin ∧ isPast env expirationLedger = false ∧
        s' = { s with
          allowed := Function.update s.allowed address (some { expirationLedger })
          events := s.events ++ [.allowAdd address] } := by
  simp [addToAllowlist, and_assoc]

theorem addMultipleToAllowlist_eq_ok_iff {admin : Address} {addresses : List Address}
    {expirationLedger : Option ℕ} :
    addMultipleToAllowlist env admin addresses expirationLedger s = .ok (u, s') ↔
      env.auths admin = true ∧ s.admin = some admin ∧ addresses.length ≤ maxBatchSize ∧
        isPast env expirationLedger = false ∧
        s' = { s with
          allowed := fun a ↦ if a ∈ addresses then some { expirationLedger } else s.allowed a
          events := s.events ++ addresses.map .allowAdd } := by
  simp [addMultipleToAllowlist, foldlM_allow_eq_ok_iff, and_assoc]

theorem removeFromAllowlist_eq_ok_iff {admin address : Address} :
    removeFromAllowlist ext env admin address s = .ok (u, s') ↔
      s.paused.getD false = false ∧ ext.complianceAuthority s env.auths admin = true ∧
        s' = { s with allowed := Function.update s.allowed address none,
                      events := s.events ++ [.allowRemove address] } := by
  simp [removeFromAllowlist, and_assoc]

theorem removeMultipleFromAllowlist_eq_ok_iff {admin : Address} {addresses : List Address} :
    removeMultipleFromAllowlist ext env admin addresses s = .ok (u, s') ↔
      ext.complianceAuthority s env.auths admin = true ∧ addresses.length ≤ maxBatchSize ∧
        s' = { s with
          allowed := fun a ↦ if a ∈ addresses then none else s.allowed a
          events := s.events ++ addresses.map .allowRemove } := by
  simp [removeMultipleFromAllowlist, foldlM_disallow_eq_ok_iff, and_assoc]

/-- One delegated addition, as it is submitted. -/
structure Submission (Address : Type) where
  admin : Address
  address : Address
  nonce : ℕ
  expiry : ℕ
  signature : Bytes64

/-- What a delegated addition is checked for, apart from its nonce. -/
structure Submission.Presentable (ext : Externals Address) (env : Env Address)
    (s : State Address) (sub : Submission Address) : Prop where
  /-- The contract is not paused. -/
  not_paused : s.paused.getD false = false
  /-- It names the admin of the moment. -/
  admin_eq : s.admin = some sub.admin
  /-- It has not expired. -/
  unexpired : env.timestamp < sub.expiry
  /-- The signature verifies under the delegated key, for the message made of the fields. -/
  signed : ∃ pubkey, s.delegatedAdminPubKey = some pubkey ∧
    ext.verifySig pubkey
      (delegatedActionMessage ext sub.address "add_to_allowlist" sub.nonce sub.expiry)
      sub.signature = true

/-- The call that submits it. -/
def Submission.call (sub : Submission Address) : Call Address :=
  .addToAllowlistDelegated sub.admin sub.address sub.nonce sub.expiry sub.signature

theorem addToAllowlistDelegated_eq_ok_iff {sub : Submission Address} :
    addToAllowlistDelegated ext env sub.admin sub.address sub.nonce sub.expiry sub.signature s =
        .ok (u, s') ↔
      sub.Presentable ext env s ∧ getDelegatedNonce s sub.admin < sub.nonce ∧
        s' = { s with
          allowed := Function.update s.allowed sub.address (some { expirationLedger := none })
          events := s.events ++ [.allowAdd sub.address] } := by
  simp only [addToAllowlistDelegated, Tx.bind_eq_ok_iff, rejectIfPaused_eq_ok_iff,
    requireConfiguredAdmin_eq_ok_iff, Tx.ensure_eq_ok_iff, Tx.get_eq_ok_iff, Tx.okOr_eq_ok_iff,
    Tx.orTrap_eq_ok_iff, allow_eq_ok_iff, getDelegatedNonce, and_assoc, exists_and_left,
    exists_eq_left, exists_const]
  constructor
  · rintro ⟨hpaused, hadmin, hexp, hnonce, pubkey, hkey, hsig, rfl⟩
    exact ⟨⟨hpaused, hadmin, by omega, pubkey, hkey, hsig⟩, by omega, rfl⟩
  · rintro ⟨⟨hpaused, hadmin, hexp, pubkey, hkey, hsig⟩, hnonce, rfl⟩
    exact ⟨hpaused, hadmin, by omega, by omega, pubkey, hkey, hsig, rfl⟩

/-! ### Administration and upgrades -/

theorem setComplianceOfficer_eq_ok_iff {admin officer : Address} :
    setComplianceOfficer env admin officer s = .ok (u, s') ↔
      env.auths admin = true ∧ s.admin = some admin ∧
        s' = { s with complianceOfficer := some officer } := by
  simp [setComplianceOfficer, and_assoc]

theorem revokeComplianceOfficer_eq_ok_iff {admin : Address} :
    revokeComplianceOfficer env admin s = .ok (u, s') ↔
      env.auths admin = true ∧ s.admin = some admin ∧
        s' = { s with complianceOfficer := none } := by
  simp [revokeComplianceOfficer, and_assoc]

theorem proposeAdmin_eq_ok_iff {currentAdmin newAdmin : Address} :
    proposeAdmin env currentAdmin newAdmin s = .ok (u, s') ↔
      env.auths currentAdmin = true ∧ s.admin = some currentAdmin ∧
        s' = { s with pendingAdmin := some newAdmin,
                      events := s.events ++ [.adminProposed currentAdmin newAdmin] } := by
  simp [proposeAdmin, and_assoc]

theorem acceptAdmin_eq_ok_iff {newAdmin : Address} :
    acceptAdmin env newAdmin s = .ok (u, s') ↔
      env.auths newAdmin = true ∧ s.pendingAdmin = some newAdmin ∧
        ∃ oldAdmin, s.admin = some oldAdmin ∧
          s' = { s with admin := some newAdmin, pendingAdmin := none,
                        events := s.events ++ [.adminTransferred oldAdmin newAdmin] } := by
  simp [acceptAdmin, and_assoc]

theorem transferAdmin_eq_ok_iff {currentAdmin newAdmin : Address} :
    transferAdmin env currentAdmin newAdmin s = .ok (u, s') ↔
      env.auths currentAdmin = true ∧ s.admin = some currentAdmin ∧
        s' = { s with admin := some newAdmin, pendingAdmin := none,
                      events := s.events ++ [.adminTransferred currentAdmin newAdmin] } := by
  simp [transferAdmin, and_assoc]

theorem pause_eq_ok_iff {admin : Address} :
    pause env admin s = .ok (u, s') ↔
      env.auths admin = true ∧ s.admin = some admin ∧
        s' = { s with paused := some true, events := s.events ++ [.paused admin] } := by
  simp [pause, and_assoc]

theorem unpause_eq_ok_iff {admin : Address} :
    unpause env admin s = .ok (u, s') ↔
      env.auths admin = true ∧ s.admin = some admin ∧
        s' = { s with paused := some false, events := s.events ++ [.unpaused admin] } := by
  simp [unpause, and_assoc]

theorem proposeUpgrade_eq_ok_iff {admin : Address} {newWasm : Bytes32} {delayLedgers : ℕ} :
    proposeUpgrade env admin newWasm delayLedgers s = .ok (u, s') ↔
      env.auths admin = true ∧ s.admin = some admin ∧ minUpgradeDelayLedgers ≤ delayLedgers ∧
        s' = { s with
          pendingUpgrade :=
            some { newWasm, activatedAt := saturatingAdd env.sequence delayLedgers }
          events := s.events ++
            [.upgradeProposed admin newWasm (saturatingAdd env.sequence delayLedgers)] } := by
  simp [proposeUpgrade, and_assoc]

theorem commitUpgrade_eq_ok_iff {admin : Address} :
    commitUpgrade env admin s = .ok (u, s') ↔
      env.auths admin = true ∧ s.admin = some admin ∧
        ∃ state, s.pendingUpgrade = some state ∧ state.activatedAt ≤ env.sequence ∧
          s' = { s with
            installed := s.installed ++ [state.newWasm]
            pendingUpgrade := none
            events := s.events ++ [.upgradeCommitted admin state.newWasm] } := by
  simp [commitUpgrade, and_assoc]

theorem cancelUpgrade_eq_ok_iff {admin : Address} :
    cancelUpgrade env admin s = .ok (u, s') ↔
      env.auths admin = true ∧ s.admin = some admin ∧
        s' = { s with pendingUpgrade := none,
                      events := s.events ++ [.upgradeCancelled admin] } := by
  simp [cancelUpgrade, and_assoc]

/-! ### Transfers -/

omit [DecidableEq Address] in
/-- The lookup completes only for an address without an entry. -/
@[simp]
theorem isAllowedAndExtendTtl_eq_ok_iff {address : Address} {b : Bool} :
    isAllowedAndExtendTtl ext address s = .ok (b, s') ↔
      s.allowed address = none ∧ b = ext.lookupEnding false ∧ s' = s := by
  simp [isAllowedAndExtendTtl, and_assoc]

omit [DecidableEq Address] in
theorem transfer_eq_ok_iff {source target : Address} {amount : ℤ} {b : Bool} :
    transfer ext env source target amount s = .ok (b, s') ↔
      0 ≤ amount ∧ isPaused s = false ∧ env.auths source = true ∧
        s.allowed source = none ∧ s.allowed target = none ∧
        ((ext.lookupEnding false = false ∧ b = false ∧
            s' = { s with events := s.events ++ [.blocked source target amount] }) ∨
          (ext.lookupEnding false = true ∧ b = true ∧
            ∃ token, s.token = some token ∧
              env.tokenAnswer { token, source, target, amount } = true ∧
              s' = { s with
                transfers := s.transfers ++ [{ token, source, target, amount }] })) := by
  cases h : ext.lookupEnding false
  · simp [transfer, h, and_assoc]
  · simp [transfer, h, and_assoc, and_left_comm]

end AllowlistToken
