import CompliancePrimitives.Contracts.DenylistGate.SignerSet
import CompliancePrimitives.Foundation.Handover

/-!
# `denylist-gate`: who can change what

Three roles share the contract: the admin, who governs it, the compliance officer, who edits the
denylist, and the members of the signer set, who govern that set. `RoleStep` sorts what a completed
call can do by the role that has to agree to it.

**Containment** is what the sorting comes to when the admin does not authorize (`roles_contained`).
Then the only thing that can happen to the admin role is that the proposed admin accepts it; the
denylist changes only with the officer, and not during a pause; the signer set and its pending
approvals change only with a member; and the officer, the audit log, the pause flag and the code do
not change at all.
-/

namespace DenylistGate

open Soroban

variable {Address : Type}

/-- The admin, and the proposed one. -/
def State.roles (s : State Address) : Handover.Roles Address := ⟨s.admin, s.pendingAdmin⟩

/-- What a call asks of the admin role. -/
def Call.move : Call Address → Handover.Move Address
  | .initialise admin => .found admin
  | .proposeAdmin currentAdmin newAdmin => .propose currentAdmin newAdmin
  | .acceptAdmin newAdmin => .accept newAdmin
  | .cancelAdminProposal currentAdmin => .cancel currentAdmin
  | .transferAdmin currentAdmin newAdmin => .transfer currentAdmin newAdmin
  | _ => .other

/-- The calls that are about the pending upgrade. -/
def Call.isUpgradeCall : Call Address → Bool
  | .proposeUpgrade .. | .commitUpgrade .. | .cancelUpgrade .. => true
  | _ => false

/-- **What a completed call can do, by who has to agree to it.** -/
inductive RoleStep (env : Env Address) (call : Call Address) (s s' : State Address) : Prop
  /-- The admin role moves: `initialize`, a proposal, an acceptance. -/
  | handedOver (hmoves : Handover.Moves env.auths call.move s.roles s'.roles)
      (hne : call.move ≠ .other)
      (hs' : s' = { s with admin := s'.admin, pendingAdmin := s'.pendingAdmin, paused := s'.paused,
                           events := s'.events })
  /-- What the admin alone may do: officer, log, pause flag and the first signer set. -/
  | governed (admin : Address) (hadmin : s.admin = some admin) (hauth : env.auths admin = true)
      (hmove : call.move = .other)
      (hs' : s' = { s with complianceOfficer := s'.complianceOfficer, auditLog := s'.auditLog,
                           paused := s'.paused, signerSet := s'.signerSet, events := s'.events })
  /-- An upgrade is proposed, withdrawn or installed, by the admin. -/
  | upgraded (admin : Address) (hadmin : s.admin = some admin) (hauth : env.auths admin = true)
      (hcall : call.isUpgradeCall = true) (hmove : call.move = .other)
      (hs' : s' = { s with pendingUpgrade := s'.pendingUpgrade, installed := s'.installed,
                           events := s'.events })
  /-- The denylist changes, by the admin or the officer, while not paused. -/
  | edited (caller : Address) (hpaused : s.paused.getD false = false)
      (hauth : env.auths caller = true) (hauthority : HasAuthority s caller)
      (hmove : call.move = .other)
      (hs' : s' = { s with denied := s'.denied, events := s'.events, records := s'.records })
  /-- The signer set or what is pending for it changes, by a signer. -/
  | signed (signer : Address) (set : SignerSet Address) (hset : s.signerSet = some set)
      (hmem : signer ∈ set.signers) (hauth : env.auths signer = true) (hmove : call.move = .other)
      (hs' : s' = { s with signerSet := s'.signerSet, pendingSignerAction := s'.pendingSignerAction,
                           events := s'.events })

section

variable [DecidableEq Address] {env : Env Address} {s s' : State Address} {call : Call Address}
  {u : Unit}

omit [DecidableEq Address] in
/-- What the audit call leaves behind is in the records and the events. -/
theorem audited_eq (env : Env Address) (kind : Symbol) (subject : Address) (detail : String)
    (s : State Address) :
    audited env kind subject detail s =
      { s with records := (audited env kind subject detail s).records
               events := (audited env kind subject detail s).events } := by
  unfold audited
  split <;> rfl

omit [DecidableEq Address] in
theorem revoked_eq (s : State Address) :
    revoked s = { s with complianceOfficer := (revoked s).complianceOfficer
                         events := (revoked s).events } := by
  unfold revoked
  split <;> rfl

/-- The calls of the three signer entry points. -/
theorem roleStep_of_callBy {a : SignerAction Address} {caller : Address}
    (h : invoke env (a.callBy caller) s = .ok (u, s')) :
    RoleStep env (a.callBy caller) s s' := by
  have hmove : (a.callBy caller).move = .other := by cases a <;> rfl
  obtain ⟨hauth, set, hset, hmem, -, happrove⟩ := signerCall_eq_ok_iff.1 h
  rcases approve_eq_ok_iff.1 happrove with ⟨-, rfl⟩ | ⟨-, -, rfl⟩
  · exact .signed caller set hset hmem hauth hmove rfl
  · exact .signed caller set hset hmem hauth hmove rfl

/-- **Every completed call is one of these.** -/
theorem invoke_roleStep (h : invoke env call s = .ok (u, s')) : RoleStep env call s s' := by
  cases call with
  | initialise admin =>
    obtain ⟨hnone, hauth, rfl⟩ := initialise_eq_ok_iff.1 h
    exact .handedOver (.found hnone hauth) (by simp [Call.move]) rfl
  -- what the admin governs, the four moves of its own role among them
  | setComplianceOfficer admin officer =>
    obtain ⟨hauth, hadmin, rfl⟩ := setComplianceOfficer_eq_ok_iff.1 h
    exact .governed admin hadmin hauth rfl rfl
  | revokeComplianceOfficer admin =>
    obtain ⟨hauth, hadmin, rfl⟩ := revokeComplianceOfficer_eq_ok_iff.1 h
    exact .governed admin hadmin hauth rfl (by rw [revoked_eq])
  | setAuditLog admin auditLog =>
    obtain ⟨hauth, hadmin, rfl⟩ := setAuditLog_eq_ok_iff.1 h
    exact .governed admin hadmin hauth rfl rfl
  | clearAuditLog admin =>
    obtain ⟨hauth, hadmin, rfl⟩ := clearAuditLog_eq_ok_iff.1 h
    exact .governed admin hadmin hauth rfl rfl
  | proposeAdmin currentAdmin newAdmin =>
    obtain ⟨hauth, hadmin, rfl⟩ := proposeAdmin_eq_ok_iff.1 h
    exact .handedOver (.propose hadmin hauth) (by simp [Call.move]) rfl
  | acceptAdmin newAdmin =>
    obtain ⟨hauth, hpending, _, hadmin, rfl⟩ := acceptAdmin_eq_ok_iff.1 h
    exact .handedOver (.accept hadmin hpending hauth) (by simp [Call.move]) rfl
  | cancelAdminProposal currentAdmin =>
    obtain ⟨hauth, hadmin, -, rfl⟩ := cancelAdminProposal_eq_ok_iff.1 h
    exact .handedOver (.cancel hadmin hauth) (by simp [Call.move]) rfl
  | transferAdmin currentAdmin newAdmin =>
    obtain ⟨hauth, hadmin, rfl⟩ := transferAdmin_eq_ok_iff.1 h
    exact .handedOver (.transfer hadmin hauth) (by simp [Call.move]) rfl
  | proposeUpgrade admin newWasm delayLedgers =>
    obtain ⟨hauth, hadmin, -, rfl⟩ := proposeUpgrade_eq_ok_iff.1 h
    exact .upgraded admin hadmin hauth rfl rfl rfl
  | commitUpgrade admin =>
    obtain ⟨hauth, hadmin, _, -, -, rfl⟩ := commitUpgrade_eq_ok_iff.1 h
    exact .upgraded admin hadmin hauth rfl rfl rfl
  | cancelUpgrade admin =>
    obtain ⟨hauth, hadmin, rfl⟩ := cancelUpgrade_eq_ok_iff.1 h
    exact .upgraded admin hadmin hauth rfl rfl rfl
  | pause admin =>
    obtain ⟨hauth, hadmin, rfl⟩ := pause_eq_ok_iff.1 h
    exact .governed admin hadmin hauth rfl rfl
  | unpause admin =>
    obtain ⟨hauth, hadmin, rfl⟩ := unpause_eq_ok_iff.1 h
    exact .governed admin hadmin hauth rfl rfl
  -- the denylist, by either authority and not during a pause
  | addToDenylist admin address =>
    obtain ⟨hpaused, hauth, hauthority, rfl⟩ := addToDenylist_eq_ok_iff.1 h
    exact .edited admin hpaused hauth hauthority rfl (by rw [audited_eq])
  | removeFromDenylist admin address =>
    obtain ⟨hpaused, hauth, hauthority, rfl⟩ := removeFromDenylist_eq_ok_iff.1 h
    exact .edited admin hpaused hauth hauthority rfl (by rw [audited_eq])
  | removeMultipleFromDenylist admin addresses =>
    obtain ⟨hpaused, hauth, hauthority, -, rfl⟩ := removeMultipleFromDenylist_eq_ok_iff.1 h
    exact .edited admin hpaused hauth hauthority rfl rfl
  | initializeMultisig admin signers threshold =>
    obtain ⟨hauth, hadmin, -, -, rfl⟩ := initializeMultisig_eq_ok_iff.1 h
    exact .governed admin hadmin hauth rfl rfl
  | addSigner caller newSigner => exact roleStep_of_callBy (a := .add newSigner) h
  | removeSigner caller removed => exact roleStep_of_callBy (a := .remove removed) h
  | setThreshold caller newThreshold =>
    exact roleStep_of_callBy (a := .setThreshold newThreshold) h

omit [DecidableEq Address] in
/-- What a completed call does to the admin role is a move. -/
theorem RoleStep.moves (h : RoleStep env call s s') :
    Handover.Moves env.auths call.move s.roles s'.roles := by
  cases h with
  | handedOver hmoves => exact hmoves
  | governed _ _ _ hmove hs' => exact .of_kept hmove (by rw [hs']; rfl)
  | upgraded _ _ _ _ hmove hs' => exact .of_kept hmove (by rw [hs']; rfl)
  | edited _ _ _ _ hmove hs' => exact .of_kept hmove (by rw [hs']; rfl)
  | signed _ _ _ _ _ hmove hs' => exact .of_kept hmove (by rw [hs']; rfl)

/-! ### Containment -/

/-- **Each role keeps to its own** from `s` to `s'`: what happened to the admin role, and with whose
agreement the denylist and the signer set may have changed. Nothing else has. -/
structure RolesContained (env : Env Address) (call : Call Address) (s s' : State Address) :
    Prop where
  /-- The admin role stays, or the proposed admin takes it over. -/
  admin : (s'.admin = s.admin ∧ s'.pendingAdmin = s.pendingAdmin) ∨
    ∃ newAdmin, call = .acceptAdmin newAdmin ∧ env.auths newAdmin = true ∧
      s.pendingAdmin = some newAdmin ∧
      s' = { s with admin := some newAdmin, pendingAdmin := none, events := s'.events }
  /-- The officer stays, -/
  complianceOfficer : s'.complianceOfficer = s.complianceOfficer
  /-- the log stays, -/
  auditLog : s'.auditLog = s.auditLog
  /-- the pause flag stays, -/
  paused : s'.paused = s.paused
  /-- no upgrade is proposed or withdrawn, -/
  pendingUpgrade : s'.pendingUpgrade = s.pendingUpgrade
  /-- and none is installed. -/
  installed : s'.installed = s.installed
  /-- The denylist has changed only with the authority of the officer, and not while paused. -/
  denied : s'.denied ≠ s.denied → s.paused.getD false = false ∧
    ∃ officer, s.complianceOfficer = some officer ∧ env.auths officer = true
  /-- The signer set and what is pending for it have changed only with a signer's authority. -/
  signers : s'.signerSet ≠ s.signerSet ∨ s'.pendingSignerAction ≠ s.pendingSignerAction →
    ∃ set signer, s.signerSet = some set ∧ signer ∈ set.signers ∧ env.auths signer = true

omit [DecidableEq Address] in
theorem RolesContained.refl : RolesContained env call s s :=
  ⟨.inl ⟨rfl, rfl⟩, rfl, rfl, rfl, rfl, rfl, fun hne ↦ absurd rfl hne,
    fun hne ↦ hne.elim (absurd rfl) (absurd rfl)⟩

/-- **A completed call without the admin** is contained. -/
theorem rolesContained_of_ok {admin : Address} (h : invoke env call s = .ok (u, s'))
    (hadmin : s.admin = some admin) (hauth : env.auths admin = false) :
    RolesContained env call s s' := by
  have habsurd := Handover.not_authorized hadmin hauth
  cases invoke_roleStep h with
  -- the only move without the admin is the acceptance by whoever is proposed
  | handedOver hmoves hne =>
    rcases hmoves.of_unauthorized hadmin hauth with ⟨hother, -⟩ | ⟨x, hmove, -⟩
    · exact absurd hother hne
    · obtain rfl : call = .acceptAdmin x := by
        cases call <;> cases hmove
        rfl
      obtain ⟨hx, hpending, _, -, rfl⟩ := acceptAdmin_eq_ok_iff.1 h
      exact ⟨.inr ⟨x, rfl, hx, hpending, rfl⟩, rfl, rfl, rfl, rfl, rfl, fun hne ↦ absurd rfl hne,
        fun hne ↦ hne.elim (absurd rfl) (absurd rfl)⟩
  | governed a ha hyes => exact (habsurd a ha hyes).elim
  | upgraded a ha hyes => exact (habsurd a ha hyes).elim
  | edited caller hpaused hyes hauthority _ hs' =>
    rw [hs']
    -- of the two authorities the officer remains
    have hofficer : s.complianceOfficer = some caller := by
      rcases hauthority with ha | ⟨-, hofficer⟩
      · exact (habsurd caller ha hyes).elim
      · exact hofficer
    exact ⟨.inl ⟨rfl, rfl⟩, rfl, rfl, rfl, rfl, rfl, fun _ ↦ ⟨hpaused, caller, hofficer, hyes⟩,
      fun hne ↦ hne.elim (absurd rfl) (absurd rfl)⟩
  | signed signer set hset hmem hyes _ hs' =>
    rw [hs']
    exact ⟨.inl ⟨rfl, rfl⟩, rfl, rfl, rfl, rfl, rfl, fun hne ↦ absurd rfl hne,
      fun _ ↦ ⟨set, signer, hset, hmem, hyes⟩⟩

/-- **Containment of the roles.** In every reachable initialized state, and whatever is called with
whatever arguments, a step that the current admin does not authorize is contained. -/
theorem roles_contained (inputs : List (Input Address)) (i : Input Address) (admin : Address)
    (hadmin : (system.final inputs).admin = some admin) (hauth : i.env.auths admin = false) :
    RolesContained i.env i.call (system.final inputs) (system.final (i :: inputs)) := by
  rcases Tx.commit_answer (invoke i.env i.call) (system.final inputs) with
    ⟨_, -, hok⟩ | ⟨-, hpost⟩
  · exact rolesContained_of_ok hok hadmin hauth
  · have hsame : system.final (i :: inputs) = system.final inputs := hpost
    rw [hsame]
    exact .refl

/-- A host on which everybody but account 0 authorizes. -/
def Env.withoutAdmin : Env ℕ where
  sequence := 2
  timestamp := 0
  auths := fun a ↦ decide (a ≠ 0)
  auditAnswer := fun _ ↦ true

/-- Account 0 is the admin, and account 4 the compliance officer. -/
def officerSetup : List (Input ℕ) :=
  [⟨.granting, .setComplianceOfficer 0 4⟩, ⟨.granting, .initialise 0⟩]

/-- The officer denies account 9. -/
theorem roles_contained_officer :
    RolesContained Env.withoutAdmin (.addToDenylist 4 9) (system.final officerSetup)
      (system.final (⟨.withoutAdmin, .addToDenylist 4 9⟩ :: officerSetup)) :=
  roles_contained officerSetup ⟨.withoutAdmin, .addToDenylist 4 9⟩ 0 (by decide) (by decide)

end

end DenylistGate
