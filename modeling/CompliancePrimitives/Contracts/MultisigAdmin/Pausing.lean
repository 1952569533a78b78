import CompliancePrimitives.Contracts.MultisigAdmin.Execution
import CompliancePrimitives.Contracts.MultisigAdmin.Proposals
import CompliancePrimitives.Contracts.MultisigAdmin.Readmission

/-!
# `multisig-admin`: what a pause freezes

Five of the six entry points that change signers, threshold or proposals refuse while the contract
is paused. `execute` does not look at the flag: a proposal that had its approvals when the pause
began can be executed during it. Nothing else can happen (`invoke_paused`), so a pause freezes the
governance exactly when nobody executes what was executable at its beginning
(`pause_freezes_iff`).

The frozen part is `SameGovernance`: the signers, the threshold, the proposals and their counter. A
stretch begins at any reachable paused state and holds no completed `unpause` and no completed
`upgrade`, after which other code would answer; everything else, failing calls included, may happen
in it. What could be executed is asked of the state at its beginning, since as long as the
governance is frozen nothing becomes executable that was not.
-/

namespace MultisigAdmin

open Soroban

variable {Address : Type}

/-- The two states agree in signers, threshold, proposal counter and proposals. -/
structure SameGovernance (s s' : State Address) : Prop where
  /-- The signers are the same, -/
  signers : s'.signers = s.signers
  /-- so is the threshold, -/
  threshold : s'.threshold = s.threshold
  /-- no identifier has been given out, -/
  nextProposalId : s'.nextProposalId = s.nextProposalId
  /-- and each proposal is as it was. -/
  proposals : s'.proposals = s.proposals

theorem SameGovernance.refl (s : State Address) : SameGovernance s s := ⟨rfl, rfl, rfl, rfl⟩

theorem SameGovernance.trans {s₁ s₂ s₃ : State Address} (h : SameGovernance s₁ s₂)
    (h' : SameGovernance s₂ s₃) : SameGovernance s₁ s₃ where
  signers := h'.signers.trans h.signers
  threshold := h'.threshold.trans h.threshold
  nextProposalId := h'.nextProposalId.trans h.nextProposalId
  proposals := h'.proposals.trans h.proposals

/-- The step is a completed `unpause`. -/
def Resumes (e : Moment Address) : Prop := e.input.call = .unpause ∧ ∃ v, e.result = .ok v

/-- The step is a completed `upgrade`. -/
def Upgrades (e : Moment Address) : Prop :=
  ∃ newWasmHash, e.input.call = .upgrade newWasmHash ∧ ∃ v, e.result = .ok v

/-- The step creates, approves or executes a proposal. -/
def ActsOnProposals (e : Moment Address) : Prop :=
  ∃ id, Issues id e ∨ (∃ x, ApprovedBy id x e) ∨ Executes id e

section

variable [DecidableEq Address] {env : Env Address} {s s' : State Address}

/-- The same proposals are executable. -/
theorem SameGovernance.executable_iff (h : SameGovernance s s') {sequence id : ℕ} :
    Executable sequence s' id ↔ Executable sequence s id := by
  rw [Executable, Executable, h.proposals, h.signers, h.threshold]

/-- **What completes while paused**: nothing that touches the governance, or the execution of a
proposal that has its approvals. -/
theorem invoke_paused {call : Call Address} {v : Value} (h : invoke env call s = .ok (v, s'))
    (hpaused : isPaused s = true) (hset : s.threshold.isSome = true) :
    (SameGovernance s s' ∧ ¬call.IsProposalCall ∧ (isPaused s' = true ∨ call = .unpause)) ∨
      ∃ id, call = .execute id ∧ Executable env.sequence s id := by
  have hno : isPaused s ≠ false := by simp [hpaused]
  cases call with
  -- there is a threshold already, so this has happened before
  | initialise signers threshold =>
    obtain ⟨_, hop, rfl⟩ := Tx.bind_pure_eq_ok_iff.1 h
    obtain ⟨hnone, -⟩ := initialise_ok hop
    rw [hnone] at hset
    cases hset
  -- three administrative calls do not look at the flag, and leave the governance alone
  | pause =>
    obtain ⟨_, hop, rfl⟩ := Tx.bind_pure_eq_ok_iff.1 h
    obtain ⟨-, heq⟩ := pause_ok hop
    rw [heq]
    exact .inl ⟨⟨rfl, rfl, rfl, rfl⟩, id, .inl (Pausable.isPaused_pause _ _)⟩
  | unpause =>
    obtain ⟨_, hop, rfl⟩ := Tx.bind_pure_eq_ok_iff.1 h
    obtain ⟨-, heq⟩ := unpause_ok hop
    rw [heq]
    exact .inl ⟨⟨rfl, rfl, rfl, rfl⟩, id, .inr rfl⟩
  | upgrade newWasmHash =>
    obtain ⟨_, hop, rfl⟩ := Tx.bind_pure_eq_ok_iff.1 h
    rw [upgrade_ok hop]
    exact .inl ⟨⟨rfl, rfl, rfl, rfl⟩, id, .inl hpaused⟩
  -- these five begin with the pause check
  | addSigner x =>
    obtain ⟨_, hop, rfl⟩ := Tx.bind_pure_eq_ok_iff.1 h
    exact absurd (addSigner_ok hop).1 hno
  | removeSigner x =>
    obtain ⟨_, hop, rfl⟩ := Tx.bind_pure_eq_ok_iff.1 h
    exact absurd (removeSigner_ok hop).1 hno
  | updateThreshold n =>
    obtain ⟨_, hop, rfl⟩ := Tx.bind_pure_eq_ok_iff.1 h
    exact absurd (updateThreshold_ok hop).1 hno
  | propose payload expiryLedger =>
    obtain ⟨_, hop, rfl⟩ := Tx.bind_pure_eq_ok_iff.1 h
    exact absurd (propose_ok hop).1 hno
  | approve proposalId approver =>
    obtain ⟨_, hop, rfl⟩ := Tx.bind_pure_eq_ok_iff.1 h
    exact absurd (approve_ok hop).1 hno
  -- `execute` does not, and asks for what it needs of the proposal instead
  | execute proposalId =>
    obtain ⟨_, hop, rfl⟩ := Tx.bind_pure_eq_ok_iff.1 h
    obtain ⟨proposal, signers, threshold, hp, hexp, hs, ht, hcount, -⟩ := execute_ok hop
    exact .inr ⟨proposalId, rfl, proposal, signers, threshold, hp, hexp, hs, ht, hcount⟩
  | checkAuth signatures =>
    obtain ⟨_, hop, rfl⟩ := Tx.bind_pure_eq_ok_iff.1 h
    obtain ⟨_, _, -, rfl⟩ := checkAuth_eq_ok_iff.1 hop
    exact .inl ⟨⟨rfl, rfl, rfl, rfl⟩, id, .inl hpaused⟩

/-- Only an initialized contract is ever paused. -/
theorem threshold_isSome_of_paused (liveUntil : ℕ) (inputs : List (Input Address)) :
    isPaused ((system liveUntil).final inputs) = true →
      ((system liveUntil).final inputs).threshold.isSome = true := by
  refine (system liveUntil).final_induction
    (P := fun s ↦ isPaused s = true → s.threshold.isSome = true) (fun h ↦ by cases h)
    (fun s i hs hpaused ↦ ?_) inputs
  cases exec_governance liveUntil i s with
  | kept _ hthreshold hpausable =>
    rw [hthreshold]
    rw [isPaused, hpausable] at hpaused
    exact hs hpaused
  | founded _ _ _ _ _ hthreshold => rw [hthreshold]; rfl
  | retuned _ _ _ _ _ _ _ hthreshold => rw [hthreshold]; rfl
  | enrolled _ _ hauth _ _ _ hthreshold | expelled _ _ _ hauth _ _ _ _ hthreshold
  | switched hauth _ hthreshold =>
    obtain ⟨_, threshold, -, ht, -⟩ := hauth
    rw [hthreshold, ht]
    rfl

/-! ### A stretch on a paused contract -/

variable (liveUntil : ℕ)

/-- A step on a paused contract that neither resumes it nor executes what can be executed keeps the
governance as it is. -/
theorem exec_paused {i : Input Address} (hpaused : isPaused s = true)
    (hset : s.threshold.isSome = true) (hstays : ¬Resumes ((system liveUntil).stepFrom s i))
    (hidle : ∀ id, i.call = .execute id → ¬Executable i.env.sequence s id) :
    SameGovernance s ((system liveUntil).exec i s).2 ∧
      isPaused ((system liveUntil).exec i s).2 = true ∧
      ¬ActsOnProposals ((system liveUntil).stepFrom s i) := by
  rcases Tx.commit_cases (invoke i.env i.call) s with ⟨v, s', hok, hcommit⟩ | ⟨f, -, hcommit⟩
  · have hresult : ((system liveUntil).stepFrom s i).result = .ok v := congrArg Prod.fst hcommit
    have hpost : ((system liveUntil).exec i s).2 = s' := congrArg Prod.snd hcommit
    rw [hpost]
    rcases invoke_paused hok hpaused hset with ⟨hsame, hcall, hflag⟩ | ⟨id, hcall, hexec⟩
    · refine ⟨hsame, hflag.resolve_right fun hunpause ↦ hstays ⟨hunpause, v, hresult⟩, ?_⟩
      rintro ⟨id, ⟨_, _, hissues, -⟩ | ⟨x, happroves, -⟩ | ⟨hexecutes, -⟩⟩
      · exact hcall (by rw [show i.call = _ from hissues]; trivial)
      · exact hcall (by rw [show i.call = _ from happroves]; trivial)
      · exact hcall (by rw [show i.call = _ from hexecutes]; trivial)
    · exact absurd hexec (hidle id hcall)
  · have hresult : ((system liveUntil).stepFrom s i).result = .error f := congrArg Prod.fst hcommit
    have hpost : ((system liveUntil).exec i s).2 = s := congrArg Prod.snd hcommit
    rw [hpost]
    refine ⟨.refl s, hpaused, ?_⟩
    rintro ⟨id, ⟨_, _, -, hok⟩ | ⟨x, -, -, _, hok⟩ | ⟨-, _, hok⟩⟩ <;>
      cases hresult.symm.trans hok

/-- **The pause freezes the governance** over a stretch: in every state reached it is what it was,
and no step creates, approves or executes a proposal. -/
structure FrozenDuring (s : State Address) (during : List (Input Address)) : Prop where
  /-- Every state of the stretch has the governance of its beginning. -/
  same : ∀ js, js <:+ during → SameGovernance s (((system liveUntil).startingAt s).final js)
  /-- No step of it completes a call about a proposal. -/
  idle : ∀ e ∈ ((system liveUntil).startingAt s).history during, ¬ActsOnProposals e

/-- While nobody executes what was executable at the beginning, all is kept. -/
theorem frozen_of_idle {during : List (Input Address)} (hpaused : isPaused s = true)
    (hset : s.threshold.isSome = true)
    (hstays : ∀ e ∈ ((system liveUntil).startingAt s).history during, ¬Resumes e)
    (hidle : ∀ i ∈ during, ∀ id, i.call = .execute id → ¬Executable i.env.sequence s id) :
    FrozenDuring liveUntil s during := by
  have hidle' : ∀ e ∈ ((system liveUntil).startingAt s).history during,
      ∀ id, e.input.call = .execute id → ¬Executable e.input.env.sequence s id := by
    intro e he
    have hmem : e.input ∈ (((system liveUntil).startingAt s).history during).map Step.input :=
      List.mem_map_of_mem he
    rw [System.map_input_history] at hmem
    exact hidle e.input hmem
  -- the governance stays what it was, so executable now is executable at the beginning
  have hrun : ∀ js, js <:+ during →
      (SameGovernance s (((system liveUntil).startingAt s).final js) ∧
        isPaused (((system liveUntil).startingAt s).final js) = true ∧
        (((system liveUntil).startingAt s).final js).threshold.isSome = true) ∧
      ∀ e ∈ ((system liveUntil).startingAt s).history js,
        SameGovernance s e.pre ∧ isPaused e.pre = true ∧ e.pre.threshold.isSome = true := by
    intro js hjs
    refine (system liveUntil).stretch_induction
      (P := fun t ↦ SameGovernance s t ∧ isPaused t = true ∧ t.threshold.isSome = true)
      (C := fun e ↦ ¬Resumes e ∧
        ∀ id, e.input.call = .execute id → ¬Executable e.input.env.sequence s id)
      ⟨.refl s, hpaused, hset⟩ (fun t i ht hi ↦ ?_) fun e he ↦ ?_
    · obtain ⟨hsame, hpaused', hset'⟩ := ht
      obtain ⟨hkept, hflag, -⟩ := exec_paused liveUntil hpaused' hset' hi.1
        fun id hcall hexec ↦ hi.2 id hcall (hsame.executable_iff.1 hexec)
      exact ⟨hsame.trans hkept, hflag, by rw [hkept.threshold]; exact hset'⟩
    · have he' := (System.history_suffix _ hjs).subset he
      exact ⟨hstays e he', hidle' e he'⟩
  refine ⟨fun js hjs ↦ (hrun js hjs).1.1, fun e he ↦ ?_⟩
  obtain ⟨hsame, hpaused', hset'⟩ := (hrun during (List.suffix_refl _)).2 e he
  have hstep := System.eq_stepFrom_of_mem_history _ he
  have hstays' := hstays e he
  rw [hstep] at hstays' ⊢
  exact (exec_paused liveUntil hpaused' hset' hstays'
    fun id hcall hexec ↦ hidle' e he id hcall (hsame.executable_iff.1 hexec)).2.2

/-- What is executable is executed by whoever asks for it. -/
theorem executes_of_executable {i : Input Address} {id : ℕ} (hcall : i.call = .execute id)
    (h : Executable i.env.sequence s id) : Executes id ((system liveUntil).stepFrom s i) := by
  refine ⟨hcall, .unit, ?_⟩
  have hop := Tx.ok_of_commit_fst (execute_commit_eq_ok_iff.2 h)
  have hok : invoke i.env i.call s = .ok (.unit, ((execute i.env id).commit s).2) := by
    rw [hcall]
    exact Tx.bind_pure_eq_ok_iff.2 ⟨(), hop, rfl⟩
  exact congrArg Prod.fst (Tx.commit_of_ok hok)

/-- **When a pause freezes the governance.** From every reachable paused state on, over every
sequence of calls in which the contract is not resumed (and not upgraded), the governance is frozen
if and only if no call executes a proposal that could be executed when the sequence began. -/
theorem pause_freezes_iff (before during : List (Input Address))
    (hpaused : isPaused ((system liveUntil).final before) = true)
    (hstays : ∀ e ∈ ((system liveUntil).startingAt ((system liveUntil).final before)).history
      during, ¬Resumes e ∧ ¬Upgrades e) :
    FrozenDuring liveUntil ((system liveUntil).final before) during ↔
      ∀ i ∈ during, ∀ id, i.call = .execute id →
        ¬Executable i.env.sequence ((system liveUntil).final before) id := by
  constructor
  · intro hfrozen i hi id hcall hexec
    obtain ⟨late, early, rfl⟩ := List.append_of_mem hi
    have hsame := hfrozen.same early ⟨late ++ [i], by simp⟩
    have hexecutes := executes_of_executable liveUntil hcall (hsame.executable_iff.2 hexec)
    refine hfrozen.idle _ ?_ ⟨id, .inr (.inr hexecutes)⟩
    rw [System.history_append, System.history_cons]
    exact List.mem_append_right _ List.mem_cons_self
  · exact frozen_of_idle liveUntil hpaused (threshold_isSome_of_paused liveUntil before hpaused)
      fun e he ↦ (hstays e he).1

/-- A proposal with both approvals it needs, and then a pause. -/
def pausedWithApprovals : List (Input ℕ) :=
  [⟨.granting [1, 2], .pause⟩, ⟨.granting [], .approve 0 2⟩, ⟨.granting [], .approve 0 1⟩,
    ⟨.granting [], .propose [] 100⟩, ⟨.granting [], .initialise [1, 2] 2⟩]

/-- What is tried in vain during the pause. -/
def refusedCalls : List (Input ℕ) :=
  [⟨.granting [1, 2], .addSigner 3⟩, ⟨.granting [], .propose [] 100⟩]

theorem pause_freezes_refusedCalls :
    FrozenDuring 0 ((system 0).final pausedWithApprovals) refusedCalls := by
  refine (pause_freezes_iff 0 pausedWithApprovals refusedCalls (by decide) fun e he ↦ ?_).2
    (by simp [refusedCalls])
  simp only [refusedCalls, System.history_cons, System.history_nil, List.mem_cons,
    List.not_mem_nil, or_false] at he
  constructor
  · rintro ⟨hcall, -⟩
    rcases he with rfl | rfl <;> cases hcall
  · rintro ⟨_, hcall, -⟩
    rcases he with rfl | rfl <;> cases hcall

/-- **The proposal is executed during the pause**, and is gone. -/
theorem not_frozen_execution_while_paused :
    isPaused ((system 0).final pausedWithApprovals) = true ∧
      ((system 0).exec ⟨.granting [], .execute 0⟩ ((system 0).final pausedWithApprovals)).1 =
        .ok .unit ∧
      ¬FrozenDuring 0 ((system 0).final pausedWithApprovals)
        [⟨.granting [], .execute 0⟩] := by
  refine ⟨by decide, by decide, fun hfrozen ↦ ?_⟩
  have hsame := congrFun (hfrozen.same _ (List.suffix_refl _)).proposals 0
  have hbefore : (((system 0).final pausedWithApprovals).proposals 0).isSome = true := by decide
  have hafter : (((system 0).startingAt ((system 0).final pausedWithApprovals)).final
      [⟨.granting [], .execute 0⟩]).proposals 0 = none := by decide
  rw [← hsame, hafter] at hbefore
  cases hbefore

end

end MultisigAdmin
