import CompliancePrimitives.Contracts.CircuitBreaker
import CompliancePrimitives.Foundation.Handover

/-!
# `circuit-breaker`: when a call completes, and what it does

The equivalences of this module say when each entry point completes and with which state, and
`BreakerStep` what a completed call does to the admin role, the guardians and the flag. All of it is
stated for states without an audit log, since no entry point configures one (`auditLog_final`).

`BreakerStep` has a clause for each of the three. The roles make a move of the handover protocol
(`Handover.Moves`), which is what the results about the admin are read off; the stored guardians are
those of before with the change the call asks for; and the flag is written by `freeze` and
`unfreeze` only, each with the event it announces. The guard of `freeze` is `MayFreeze`: the admin,
or one of the guardians stored at that moment.
-/

namespace CircuitBreaker

open Soroban

variable {Address : Type}

/-- The admin, and the proposed one. -/
def State.roles (s : State Address) : Handover.Roles Address := ⟨s.admin, s.pendingAdmin⟩

/-- What a call asks of the admin role. -/
def Call.move : Call Address → Handover.Move Address
  | .initialise admin => .found admin
  | .proposeAdmin admin newAdmin => .propose admin newAdmin
  | .acceptAdmin newAdmin => .accept newAdmin
  | .cancelAdminProposal admin => .cancel admin
  | _ => .other

/-- What an event says about the breaker: that it was frozen, or that it was unfrozen. -/
def Event.freezes : Event Address → Option Bool
  | .frozen _ => some true
  | .unfrozen _ => some false
  | _ => none

/-- The events about the breaker, in the order they were published. -/
def State.freezeLog (s : State Address) : List Bool := s.events.filterMap Event.freezes

/-- Who may freeze. -/
def MayFreeze (s : State Address) (caller : Address) : Prop :=
  s.admin = some caller ∨ (s.admin.isSome = true ∧ caller ∈ guardians s)

/-- One step of a run. -/
abbrev Moment (Address : Type) := Step (State Address) (Input Address) (Except (Failure Error) Unit)

section

variable [DecidableEq Address] {env : Env Address} {s s' : State Address} {u : Unit}

/-! ### When a call completes -/

omit [DecidableEq Address] in
@[simp]
theorem publish_eq_ok_iff {e : Event Address} :
    publish e s = .ok (u, s') ↔ s' = { s with events := s.events ++ [e] } :=
  Tx.modify_eq_ok_iff

/-- The ledger the instance is live until, once it is extended. -/
def extended (env : Env Address) (s : State Address) : ℕ :=
  extendTtl instanceTtlThreshold instanceTtlExtendTo env.sequence s.liveUntil

omit [DecidableEq Address] in
@[simp]
theorem extendInstanceTtl_eq_ok_iff :
    extendInstanceTtl env s = .ok (u, s') ↔ s' = { s with liveUntil := extended env s } :=
  Tx.modify_eq_ok_iff

@[simp]
theorem requireAdmin_eq_ok_iff {admin : Address} :
    requireAdmin env admin s = .ok (u, s') ↔
      env.auths admin = true ∧ s.admin = some admin ∧ s' = s :=
  requireStored_eq_ok_iff

@[simp]
theorem requireAdminOrGuardian_eq_ok_iff {caller : Address} :
    requireAdminOrGuardian env caller s = .ok (u, s') ↔
      env.auths caller = true ∧ MayFreeze s caller ∧ s' = s := by
  simp only [requireAdminOrGuardian, Tx.bind_eq_ok_iff, requireAuth_eq_ok_iff, Tx.get_eq_ok_iff,
    Tx.okOr_eq_ok_iff, Tx.ensure_eq_ok_iff, MayFreeze, and_assoc, exists_and_left,
    exists_eq_left, exists_const]
  constructor
  · rintro ⟨hauth, storedAdmin, hadmin, hrole, rfl⟩
    refine ⟨hauth, ?_, rfl⟩
    rcases hrole with rfl | hguardian
    · exact .inl hadmin
    · exact .inr ⟨by simp [hadmin], hguardian⟩
  · rintro ⟨hauth, hrole, rfl⟩
    rcases hrole with hadmin | ⟨hsome, hguardian⟩
    · exact ⟨hauth, caller, hadmin, .inl rfl, rfl⟩
    · obtain ⟨admin, hadmin⟩ := Option.isSome_iff_exists.1 hsome
      exact ⟨hauth, admin, hadmin, .inr hguardian, rfl⟩

omit [DecidableEq Address] in
/-- Without an audit log, nothing is recorded. -/
theorem recordAudit_eq_ok_iff {kind : Symbol} {subject : Address} {detail : String}
    (hlog : s.auditLog = none) : recordAudit env kind subject detail s = .ok (u, s') ↔ s' = s := by
  simp [recordAudit, hlog]

omit [DecidableEq Address] in
theorem initialise_eq_ok_iff {admin : Address} :
    initialise env admin s = .ok (u, s') ↔
      s.admin = none ∧ env.auths admin = true ∧
        s' = { s with admin := some admin, frozen := some false, liveUntil := extended env s } := by
  simp [initialise, extended]

/-- Also a breaker that is frozen is frozen, and announced to be. -/
theorem freeze_eq_ok_iff {caller : Address} (hlog : s.auditLog = none) :
    freeze env caller s = .ok (u, s') ↔
      env.auths caller = true ∧ MayFreeze s caller ∧
        s' = { s with frozen := some true, liveUntil := extended env s,
                      events := s.events ++ [.frozen caller] } := by
  simp [freeze, extended, recordAudit_eq_ok_iff, hlog, and_assoc]

/-- The state once a breaker is unfrozen; one that is not frozen stays as it is. -/
def unfrozen (env : Env Address) (admin : Address) (s : State Address) : State Address :=
  if s.frozen.getD false = false then s
  else { s with frozen := some false, liveUntil := extended env s,
                events := s.events ++ [.unfrozen admin] }

theorem unfreeze_eq_ok_iff {admin : Address} (hlog : s.auditLog = none) :
    unfreeze env admin s = .ok (u, s') ↔
      env.auths admin = true ∧ s.admin = some admin ∧ s' = unfrozen env admin s := by
  by_cases hfrozen : s.frozen.getD false = false
  · simp [unfreeze, unfrozen, hfrozen, and_assoc]
  · simp [unfreeze, unfrozen, extended, recordAudit_eq_ok_iff, hfrozen, hlog, and_assoc]

theorem addGuardian_eq_ok_iff {admin guardian : Address} :
    addGuardian env admin guardian s = .ok (u, s') ↔
      env.auths admin = true ∧ s.admin = some admin ∧
        s' = if guardian ∈ guardians s then s
          else { s with guardians := some (guardians s ++ [guardian]) } := by
  by_cases hmem : guardian ∈ guardians s <;> simp [addGuardian, hmem, and_assoc]

theorem removeGuardian_eq_ok_iff {admin guardian : Address} :
    removeGuardian env admin guardian s = .ok (u, s') ↔
      env.auths admin = true ∧ s.admin = some admin ∧
        s' = if guardian ∈ guardians s then
            { s with guardians := some ((guardians s).filter fun g ↦ decide (g ≠ guardian)) }
          else s := by
  by_cases hmem : guardian ∈ guardians s <;> simp [removeGuardian, hmem, and_assoc]

theorem proposeAdmin_eq_ok_iff {admin newAdmin : Address} :
    proposeAdmin env admin newAdmin s = .ok (u, s') ↔
      env.auths admin = true ∧ s.admin = some admin ∧
        s' = { s with pendingAdmin := some newAdmin, liveUntil := extended env s,
                      events := s.events ++ [.adminProposed admin newAdmin] } := by
  simp [proposeAdmin, extended, and_assoc]

theorem acceptAdmin_eq_ok_iff {newAdmin : Address} :
    acceptAdmin env newAdmin s = .ok (u, s') ↔
      env.auths newAdmin = true ∧ s.pendingAdmin = some newAdmin ∧
        ∃ oldAdmin, s.admin = some oldAdmin ∧
          s' = { s with admin := some newAdmin, pendingAdmin := none, liveUntil := extended env s,
                        events := s.events ++ [.adminTransferred newAdmin oldAdmin] } := by
  simp [acceptAdmin, extended, and_assoc]

theorem upgrade_eq_ok_iff {admin : Address} {newWasmHash : Bytes32} :
    upgrade env admin newWasmHash s = .ok (u, s') ↔
      env.auths admin = true ∧ s.admin = some admin ∧
        s' = { s with events := s.events ++ [.upgradePerformed admin newWasmHash],
                      installed := s.installed ++ [newWasmHash] } := by
  simp [upgrade, and_assoc]

theorem cancelAdminProposal_eq_ok_iff {admin : Address} :
    cancelAdminProposal env admin s = .ok (u, s') ↔
      env.auths admin = true ∧ s.admin = some admin ∧ s.pendingAdmin.isSome = true ∧
        s' = { s with pendingAdmin := none,
                      events := s.events ++ [.adminProposalCancelled admin] } := by
  simp [cancelAdminProposal, and_assoc]

/-! ### What a completed call does -/

/-- The guardians once a call has completed. -/
def Call.guardiansAfter (call : Call Address) (gs : List Address) : List Address :=
  match call with
  | .addGuardian _ guardian => if guardian ∈ gs then gs else gs ++ [guardian]
  | .removeGuardian _ guardian => gs.filter fun g ↦ decide (g ≠ guardian)
  | _ => gs

/-- The admin a call about the guardians names. -/
def Call.setsGuardians : Call Address → Option Address
  | .addGuardian admin _ => some admin
  | .removeGuardian admin _ => some admin
  | _ => none

/-- **What a completed call does to the flag**, and what it announces. -/
inductive FlagStep (env : Env Address) (call : Call Address) (s s' : State Address) : Prop
  /-- `initialize`, once: not frozen, and no event. -/
  | founded (admin : Address) (hcall : call = .initialise admin) (hnone : s.admin = none)
      (hfrozen : s'.frozen = some false) (hlog : s'.freezeLog = s.freezeLog)
  /-- `freeze`: set and announced, also if it was set before. -/
  | froze (caller : Address) (hcall : call = .freeze caller) (hauth : env.auths caller = true)
      (hmay : MayFreeze s caller) (hfrozen : s'.frozen = some true)
      (hlog : s'.freezeLog = s.freezeLog ++ [true])
  /-- `unfreeze`: cleared and announced, if it was set. -/
  | unfroze (admin : Address) (hcall : call = .unfreeze admin) (hauth : env.auths admin = true)
      (hadmin : s.admin = some admin) (hwas : s.frozen.getD false = true)
      (hfrozen : s'.frozen = some false) (hlog : s'.freezeLog = s.freezeLog ++ [false])
  /-- Every other call leaves the flag alone. -/
  | kept (hcall : ∀ caller, call ≠ .freeze caller) (hfrozen : s'.frozen = s.frozen)
      (hlog : s'.freezeLog = s.freezeLog)

/-- **What a completed call does.** -/
structure BreakerStep (env : Env Address) (call : Call Address) (s s' : State Address) : Prop where
  /-- The admin role moves as the call asks, if it asks for a move. -/
  moves : Handover.Moves env.auths call.move s.roles s'.roles
  /-- The guardians are those the call leaves. -/
  guardians : guardians s' = call.guardiansAfter (guardians s)
  /-- They are changed with the authority of the admin only. -/
  governed : ∀ admin, call.setsGuardians = some admin →
    env.auths admin = true ∧ s.admin = some admin
  /-- The flag is set or cleared by those who may, or stays. -/
  flag : FlagStep env call s s'
  /-- The log the breaker reports to stays. -/
  auditLog : s'.auditLog = s.auditLog

omit [DecidableEq Address] in
/-- Publishing adds to the announcements what the event says about the breaker. -/
theorem freezeLog_of_events (e : Event Address) (hevents : s'.events = s.events ++ [e]) :
    s'.freezeLog = s.freezeLog ++ e.freezes.toList := by
  unfold State.freezeLog
  rw [hevents, List.filterMap_append]
  cases e <;> rfl

/-- A call that is not about the guardians leaves them as they are. -/
theorem guardiansAfter_of_not_sets {call : Call Address} {gs : List Address}
    (hsets : call.setsGuardians = none) : call.guardiansAfter gs = gs := by
  cases call with
  | addGuardian | removeGuardian => cases hsets
  | _ => rfl

/-- What touches neither the flag nor the guardians. -/
theorem BreakerStep.of_kept {call : Call Address} {e : Event Address}
    (hmoves : Handover.Moves env.auths call.move s.roles s'.roles)
    (hsets : call.setsGuardians = none) (hcall : ∀ caller, call ≠ .freeze caller)
    (hs' : s' = { s with admin := s'.admin, pendingAdmin := s'.pendingAdmin,
                         liveUntil := s'.liveUntil, events := s.events ++ [e],
                         installed := s'.installed })
    (he : e.freezes = none) : BreakerStep env call s s' where
  moves := hmoves
  guardians := by rw [guardiansAfter_of_not_sets hsets, hs']; rfl
  governed admin hadmin := by rw [hsets] at hadmin; cases hadmin
  flag := by
    have hlog := freezeLog_of_events e (congrArg State.events hs' :)
    rw [he, Option.toList_none, List.append_nil] at hlog
    exact .kept hcall (by rw [hs']) hlog
  auditLog := by rw [hs']

/-- What touches nothing but the guardians. -/
theorem BreakerStep.of_guarded {call : Call Address} {admin : Address}
    (hauth : env.auths admin = true) (hadmin : s.admin = some admin) (hmove : call.move = .other)
    (hsets : call.setsGuardians = some admin) (hcall : ∀ caller, call ≠ .freeze caller)
    (hguardians : CircuitBreaker.guardians s' = call.guardiansAfter (CircuitBreaker.guardians s))
    (hs' : s' = { s with guardians := s'.guardians }) : BreakerStep env call s s' where
  moves := .of_kept hmove (by rw [hs']; rfl)
  guardians := hguardians
  governed a ha := by
    obtain rfl : admin = a := Option.some.inj (hsets.symm.trans ha)
    exact ⟨hauth, hadmin⟩
  flag := .kept hcall (by rw [hs']) (by rw [hs']; rfl)
  auditLog := by rw [hs']

/-- **Every completed call is such a step.** -/
theorem invoke_breakerStep {call : Call Address} (hlog : s.auditLog = none)
    (h : invoke env call s = .ok (u, s')) : BreakerStep env call s s' := by
  cases call with
  | initialise admin =>
    obtain ⟨hnone, hauth, rfl⟩ := initialise_eq_ok_iff.1 h
    exact ⟨.found hnone hauth, rfl, by simp [Call.setsGuardians],
      .founded admin rfl hnone rfl rfl, rfl⟩
  -- the two that write the flag; an open breaker is not unfrozen a second time
  | freeze caller =>
    obtain ⟨hauth, hmay, rfl⟩ := (freeze_eq_ok_iff hlog).1 h
    exact ⟨.other, rfl, by simp [Call.setsGuardians],
      .froze caller rfl hauth hmay rfl (freezeLog_of_events (.frozen caller) rfl), rfl⟩
  | unfreeze admin =>
    obtain ⟨hauth, hadmin, rfl⟩ := (unfreeze_eq_ok_iff hlog).1 h
    unfold unfrozen
    split
    · exact ⟨.other, rfl, by simp [Call.setsGuardians], .kept (by simp) rfl rfl, rfl⟩
    · rename_i hwas
      exact ⟨.other, rfl, by simp [Call.setsGuardians],
        .unfroze admin rfl hauth hadmin (Bool.eq_true_of_not_eq_false hwas) rfl
          (freezeLog_of_events (.unfrozen admin) rfl), rfl⟩
  -- adding twice and removing nobody change nothing
  | addGuardian admin guardian =>
    obtain ⟨hauth, hadmin, rfl⟩ := addGuardian_eq_ok_iff.1 h
    refine .of_guarded hauth hadmin rfl rfl (by simp) ?_ ?_
    · by_cases hmem : guardian ∈ guardians s
      · simp [Call.guardiansAfter, hmem]
      · simp only [Call.guardiansAfter, if_neg hmem]
        rfl
    · split <;> rfl
  | removeGuardian admin guardian =>
    obtain ⟨hauth, hadmin, rfl⟩ := removeGuardian_eq_ok_iff.1 h
    refine .of_guarded hauth hadmin rfl rfl (by simp) ?_ ?_
    · by_cases hmem : guardian ∈ guardians s
      · simp only [Call.guardiansAfter, if_pos hmem]
        rfl
      · rw [if_neg hmem]
        refine (List.filter_eq_self.2 fun g hg ↦ decide_eq_true ?_).symm
        exact fun hguardian ↦ hmem (hguardian ▸ hg)
    · split <;> rfl
  -- the handover and `upgrade` leave guardians and flag alone
  | proposeAdmin admin newAdmin =>
    obtain ⟨hauth, hadmin, rfl⟩ := proposeAdmin_eq_ok_iff.1 h
    exact .of_kept (.propose hadmin hauth) rfl (by simp) rfl rfl
  | acceptAdmin newAdmin =>
    obtain ⟨hauth, hpending, _, hadmin, rfl⟩ := acceptAdmin_eq_ok_iff.1 h
    exact .of_kept (.accept hadmin hpending hauth) rfl (by simp) rfl rfl
  | upgrade admin newWasmHash =>
    obtain ⟨-, -, rfl⟩ := upgrade_eq_ok_iff.1 h
    exact .of_kept .other rfl (by simp) rfl rfl
  | cancelAdminProposal admin =>
    obtain ⟨hauth, hadmin, -, rfl⟩ := cancelAdminProposal_eq_ok_iff.1 h
    exact .of_kept (.cancel hadmin hauth) rfl (by simp) rfl rfl

/-- A committed invocation either completed as such a step, or changed nothing. -/
theorem exec_breakerStep (liveUntil : ℕ) (i : Input Address) (hlog : s.auditLog = none) :
    (((system liveUntil).exec i s).1 = .ok () ∧
        BreakerStep i.env i.call s ((system liveUntil).exec i s).2) ∨
      (∃ f, ((system liveUntil).exec i s).1 = .error f) ∧ ((system liveUntil).exec i s).2 = s := by
  rcases Tx.commit_answer (invoke i.env i.call) s with ⟨_, hresult, hok⟩ | hkept
  · exact .inl ⟨hresult, invoke_breakerStep hlog hok⟩
  · exact .inr hkept

/-- **No audit log is ever configured.** -/
theorem auditLog_final (liveUntil : ℕ) (inputs : List (Input Address)) :
    ((system liveUntil).final inputs).auditLog = none := by
  refine (system liveUntil).final_induction (P := fun s ↦ s.auditLog = none) rfl
    (fun s i hs ↦ ?_) inputs
  rcases exec_breakerStep liveUntil i hs with ⟨-, hstep⟩ | ⟨-, hpost⟩
  · exact hstep.auditLog.trans hs
  · rwa [hpost]

/-- A completed call of a run is such a step. -/
theorem breakerStep_of_completed {liveUntil : ℕ} {inputs : List (Input Address)} {i : Input Address}
    (h : ((system liveUntil).exec i ((system liveUntil).final inputs)).1 = .ok ()) :
    BreakerStep i.env i.call ((system liveUntil).final inputs)
      ((system liveUntil).final (i :: inputs)) := by
  rcases exec_breakerStep liveUntil i (auditLog_final liveUntil inputs) with
    ⟨-, hstep⟩ | ⟨⟨f, hfail⟩, -⟩
  · exact hstep
  · rw [hfail] at h
    cases h

end

end CircuitBreaker
