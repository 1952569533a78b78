import CompliancePrimitives.Contracts.DenylistGate.Roles

/-!
# `denylist-gate`: the review window of an upgrade

New code is installed in two calls. `propose_upgrade` names the code and the number of ledgers it is
to be reviewed for, `commit_upgrade` installs what is pending once that ledger is reached; a second
proposal replaces the first, and `cancel_upgrade` withdraws it.

The pending slot is all a commit looks at. `upgrade_timelocked` says what is known of the run that
led to it: the code was proposed by the admin of that time, with a delay of no less than the
minimum, that many ledgers have passed since, and no upgrade call completed in between. So a
proposal is not committed twice, and never in the window of another.
-/

namespace DenylistGate

open Soroban

variable {Address : Type}

/-- The step completed a call that is about the pending upgrade. -/
def MovesUpgrade (e : Moment Address) : Prop :=
  e.input.call.isUpgradeCall = true ∧ e.result = .ok ()

/-- The step was the proposal of the admin that `state` was stored by. -/
def ProposesUpgrade (state : UpgradeState) (e : Moment Address) : Prop :=
  ∃ admin delayLedgers, e.input.call = .proposeUpgrade admin state.newWasm delayLedgers ∧
    e.pre.admin = some admin ∧ e.input.env.auths admin = true ∧
    minUpgradeDelayLedgers ≤ delayLedgers ∧
    state.activatedAt = saturatingAdd e.input.env.sequence delayLedgers

variable [DecidableEq Address] {env : Env Address} {s s' : State Address} {call : Call Address}
  {u : Unit}

omit [DecidableEq Address] in
/-- Only an upgrade call does anything to the pending upgrade or the code. -/
theorem RoleStep.upgrade_kept (h : RoleStep env call s s') (hcall : call.isUpgradeCall = false) :
    s'.pendingUpgrade = s.pendingUpgrade ∧ s'.installed = s.installed := by
  cases h with
  | handedOver _ _ hs' => exact ⟨by rw [hs'], by rw [hs']⟩
  | governed _ _ _ _ hs' => exact ⟨by rw [hs'], by rw [hs']⟩
  | upgraded _ _ _ hyes =>
    rw [hcall] at hyes
    cases hyes
  | edited _ _ _ _ _ hs' => exact ⟨by rw [hs'], by rw [hs']⟩
  | signed _ _ _ _ _ _ hs' => exact ⟨by rw [hs'], by rw [hs']⟩

/-- What an upgrade call leaves pending was proposed by it. -/
theorem proposesUpgrade_of_pending {i : Input Address} {state : UpgradeState}
    (hmoves : MovesUpgrade (system.stepFrom s i))
    (hpending : (system.exec i s).2.pendingUpgrade = some state) :
    ProposesUpgrade state (system.stepFrom s i) := by
  obtain ⟨hcall, hok⟩ := hmoves
  have hrun := Tx.ok_of_commit_fst hok
  obtain ⟨env, call⟩ := i
  cases call with
  | proposeUpgrade admin newWasm delayLedgers =>
    obtain ⟨hauth, hadmin, hdelay, hs'⟩ := proposeUpgrade_eq_ok_iff.1 hrun
    obtain rfl : _ = state :=
      Option.some.inj ((congrArg State.pendingUpgrade hs').symm.trans hpending)
    exact ⟨admin, delayLedgers, rfl, hadmin, hauth, hdelay, rfl⟩
  | commitUpgrade admin =>
    obtain ⟨-, -, _, -, -, hs'⟩ := commitUpgrade_eq_ok_iff.1 hrun
    cases (congrArg State.pendingUpgrade hs').symm.trans hpending
  | cancelUpgrade admin =>
    obtain ⟨-, -, hs'⟩ := cancelUpgrade_eq_ok_iff.1 hrun
    cases (congrArg State.pendingUpgrade hs').symm.trans hpending
  | _ => cases hcall

/-- **What is pending was proposed**, and no upgrade call completed since. -/
theorem latest_proposeUpgrade {inputs : List (Input Address)} {state : UpgradeState}
    (hpending : (system.final inputs).pendingUpgrade = some state) :
    system.Latest MovesUpgrade (ProposesUpgrade state) inputs := by
  refine system.latest_of_slot State.pendingUpgrade rfl (fun before i hmoves ↦ ?_)
    (fun _ _ _ ↦ proposesUpgrade_of_pending) hpending
  rcases Tx.commit_answer (invoke i.env i.call) (system.final before) with
    ⟨_, hresult, hok⟩ | ⟨-, hpost⟩
  · have hcall : i.call.isUpgradeCall = false := by
      by_contra hyes
      exact hmoves ⟨by simpa using hyes, hresult⟩
    exact ((invoke_roleStep hok).upgrade_kept hcall).1
  · exact congrArg State.pendingUpgrade hpost

/-- A step that installs code is a commit of what is pending. -/
theorem exec_commitUpgrade_of_installed_ne {i : Input Address}
    (hinstalls : (system.exec i s).2.installed ≠ s.installed) :
    ∃ admin state, i.call = .commitUpgrade admin ∧ s.admin = some admin ∧
      i.env.auths admin = true ∧ s.pendingUpgrade = some state ∧
      state.activatedAt ≤ i.env.sequence ∧
      (system.exec i s).2.installed = s.installed ++ [state.newWasm] := by
  rcases Tx.commit_cases (invoke i.env i.call) s with ⟨_, s', hok, hcommit⟩ | ⟨_, -, hcommit⟩
  · have hpost : (system.exec i s).2 = s' := congrArg Prod.snd hcommit
    rw [hpost] at hinstalls ⊢
    have hcall : i.call.isUpgradeCall = true := by
      by_contra hno
      exact hinstalls ((invoke_roleStep hok).upgrade_kept (by simpa using hno)).2
    obtain ⟨env, call⟩ := i
    cases call with
    | proposeUpgrade admin newWasm delayLedgers =>
      obtain ⟨-, -, -, rfl⟩ := proposeUpgrade_eq_ok_iff.1 hok
      exact absurd rfl hinstalls
    | commitUpgrade admin =>
      obtain ⟨hauth, hadmin, state, hpending, hready, rfl⟩ := commitUpgrade_eq_ok_iff.1 hok
      exact ⟨admin, state, rfl, hadmin, hauth, hpending, hready, rfl⟩
    | cancelUpgrade admin =>
      obtain ⟨-, -, rfl⟩ := cancelUpgrade_eq_ok_iff.1 hok
      exact absurd rfl hinstalls
    | _ => cases hcall
  · exact absurd (congrArg State.installed (congrArg Prod.snd hcommit)) hinstalls

/-- An activation ledger that a 32-bit ledger sequence has reached is the exact sum. -/
theorem saturatingAdd_eq_of_le {a b t : ℕ} (ht : t < 2 ^ 32) (hle : saturatingAdd a b ≤ t) :
    saturatingAdd a b = a + b ∧ a + b ≤ t := by
  have hmax : u64Max = 2 ^ 64 - 1 := rfl
  rw [saturatingAdd] at hle ⊢
  omega

/-- **The call `i`, after the run `inputs`, installs code that was reviewed**: by a commit that the
admin of that moment authorizes. The latest upgrade call to complete before it was the proposal of
this code by the admin of its own moment; the delay is at least the minimum, its addition is exact,
and it has passed. What was committed earlier in the run was committed before that proposal was
made, so no proposal is committed twice. -/
def InstallsReviewed (inputs : List (Input Address)) (i : Input Address) : Prop :=
  ∃ admin newWasm, i.call = .commitUpgrade admin ∧ (system.final inputs).admin = some admin ∧
    i.env.auths admin = true ∧
    (system.final (i :: inputs)).installed = (system.final inputs).installed ++ [newWasm] ∧
    ∃ since proposal before proposer delayLedgers, inputs = since ++ proposal :: before ∧
      proposal.call = .proposeUpgrade proposer newWasm delayLedgers ∧
      (system.exec proposal (system.final before)).1 = .ok () ∧
      (system.final before).admin = some proposer ∧ proposal.env.auths proposer = true ∧
      minUpgradeDelayLedgers ≤ delayLedgers ∧
      saturatingAdd proposal.env.sequence delayLedgers = proposal.env.sequence + delayLedgers ∧
      proposal.env.sequence + delayLedgers ≤ i.env.sequence ∧
      (∀ e ∈ (system.startingAt (system.final (proposal :: before))).history since,
        ¬MovesUpgrade e) ∧
      ∀ late commit early, inputs = late ++ commit :: early →
        (∃ caller, commit.call = .commitUpgrade caller) →
        (system.exec commit (system.final early)).1 = .ok () →
        ∃ mid, before = mid ++ commit :: early

/-- **The timelock of an upgrade.** Whatever code is installed in a run was reviewed. A ledger
sequence is a `u32`. -/
theorem upgrade_timelocked (inputs : List (Input Address)) (i : Input Address)
    (hsequence : i.env.sequence < 2 ^ 32)
    (hinstalls : (system.final (i :: inputs)).installed ≠ (system.final inputs).installed) :
    InstallsReviewed inputs i := by
  obtain ⟨admin, state, hcall, hadmin, hauth, hpending, hready, hinstalled⟩ :=
    exec_commitUpgrade_of_installed_ne hinstalls
  obtain ⟨since, proposal, before, hsplit, hmoves, hproposes, hquiet⟩ :=
    latest_proposeUpgrade hpending
  obtain ⟨proposer, delayLedgers, hproposal, hproposer, hsigned, hdelay, hactivated⟩ := hproposes
  rw [hactivated] at hready
  obtain ⟨hexact, hpassed⟩ := saturatingAdd_eq_of_le hsequence hready
  refine ⟨admin, state.newWasm, hcall, hadmin, hauth, hinstalled, since, proposal, before, proposer,
    delayLedgers, hsplit, hproposal, hmoves.2, hproposer, hsigned, hdelay, hexact, hpassed, hquiet,
    fun late commit early hlate hcommits hok ↦ ?_⟩
  obtain ⟨caller, hcommit⟩ := hcommits
  have hacts : MovesUpgrade (system.stepFrom (system.final early) commit) :=
    ⟨by rw [System.stepFrom_input, hcommit]; rfl, hok⟩
  rcases system.eq_or_before_of_acts (hsplit.symm.trans hlate) hquiet hacts with rfl | hbefore
  · cases hproposal.symm.trans hcommit
  · exact hbefore

/-- A host that grants everything, in the first ledger an upgrade proposed in ledger 1 can be
committed in. -/
def Env.afterReview : Env ℕ where
  sequence := 17281
  timestamp := 0
  auths := fun _ ↦ true
  auditAnswer := fun _ ↦ true

/-- An upgrade is proposed in ledger 1, with the least delay. -/
def reviewedProposal : List (Input ℕ) :=
  [⟨.granting, .proposeUpgrade 0 (Vector.replicate 32 7) 17280⟩, ⟨.granting, .initialise 0⟩]

/-- And committed in the ledger it becomes due. -/
theorem upgrade_timelocked_reviewedProposal :
    InstallsReviewed reviewedProposal ⟨.afterReview, .commitUpgrade 0⟩ :=
  upgrade_timelocked reviewedProposal ⟨.afterReview, .commitUpgrade 0⟩ (by decide) (by decide)

end DenylistGate
