import CompliancePrimitives.Contracts.MultisigAdmin.Spec

/-!
# `multisig-admin`: the life of a proposal

A proposal is issued once, collects approvals each of which somebody authorized, is executed at
most once, and is gone for ever after that. None of this can be read off a single state: the stored
approval list is only a quorum because of the calls that filled it, and an identifier is only fresh
because of the identifiers issued before.

So the invariant `ProposalInv` relates the **whole history** to the stored proposals and to the
counter. It is preserved by every step, whatever happens to the signers, the threshold and the
pause flag in between, because none of its clauses mentions them. They enter only at the moment of
an execution.
-/

namespace MultisigAdmin

open Soroban

variable {Address : Type}

/-- One step of a run of the contract. -/
abbrev Moment (Address : Type) :=
  Step (State Address) (Input Address) (Except (Failure Error) Value)

/-! ### What a step did to a proposal -/

/-- The step is a completed `propose` of this payload and expiry, which returned `id`. -/
def IssuesAs (id : ℕ) (payload : Bytes) (expiry : ℕ) (e : Moment Address) : Prop :=
  e.input.call = .propose payload expiry ∧ e.result = .ok (.proposalId id)

/-- The step issued the identifier `id`. -/
def Issues (id : ℕ) (e : Moment Address) : Prop :=
  ∃ payload expiry, IssuesAs id payload expiry e

/-- The step is a completed `approve` of `id` by `x`, which `x` authorized. -/
def ApprovedBy (id : ℕ) (x : Address) (e : Moment Address) : Prop :=
  e.input.call = .approve id x ∧ e.input.env.auths x = true ∧ ∃ v, e.result = .ok v

/-- The step is a completed `execute` of `id`. -/
def Executes (id : ℕ) (e : Moment Address) : Prop :=
  e.input.call = .execute id ∧ ∃ v, e.result = .ok v

/-- The identifier the next `propose` issues. -/
def nextId (s : State Address) : ℕ := s.nextProposalId.getD 0

/-- What a completed call can do to the stored proposals and the counter. -/
inductive ProposalStep (env : Env Address) (s s' : State Address) : Call Address → Value → Prop
  /-- A call about something else leaves the proposals and the counter alone. -/
  | kept {call : Call Address} {v : Value} (hcall : ¬call.IsProposalCall)
      (hproposals : s'.proposals = s.proposals) (hnext : nextId s' = nextId s) :
      ProposalStep env s s' call v
  /-- `propose`: the identifier of the counter is given out, and the counter goes on. -/
  | proposed (payload : Bytes) (expiry : ℕ)
      (hproposals : s'.proposals = Function.update s.proposals (nextId s)
        (some { payload, expiry, approvals := [] }))
      (hnext : nextId s' = nextId s + 1) :
      ProposalStep env s s' (.propose payload expiry) (.proposalId (nextId s))
  /-- `approve`: someone new among the approvals of a stored proposal. -/
  | approved (id : ℕ) (x : Address) (b : Bool) (p : Proposal Address) (hauth : env.auths x = true)
      (hp : s.proposals id = some p) (hnew : x ∉ p.approvals)
      (hproposals : s'.proposals = Function.update s.proposals id
        (some { p with approvals := p.approvals ++ [x] }))
      (hnext : nextId s' = nextId s) :
      ProposalStep env s s' (.approve id x) (.flag b)
  /-- `execute`: a stored proposal is gone. -/
  | executed (id : ℕ) (p : Proposal Address) (hp : s.proposals id = some p)
      (hproposals : s'.proposals = Function.update s.proposals id none)
      (hnext : nextId s' = nextId s) :
      ProposalStep env s s' (.execute id) .unit

section

variable [DecidableEq Address] {env : Env Address} {s s' : State Address}

/-- **Every completed call is one of these.** -/
theorem invoke_proposalStep {call : Call Address} {v : Value}
    (h : invoke env call s = .ok (v, s')) : ProposalStep env s s' call v := by
  cases call with
  | initialise signers threshold =>
    obtain ⟨_, hop, rfl⟩ := Tx.bind_pure_eq_ok_iff.1 h
    obtain ⟨-, -, heq⟩ := initialise_ok hop
    exact .kept id (by rw [heq]) (by rw [nextId, heq]; rfl)
  | pause =>
    obtain ⟨_, hop, rfl⟩ := Tx.bind_pure_eq_ok_iff.1 h
    obtain ⟨-, heq⟩ := pause_ok hop
    exact .kept id (by rw [heq]) (by rw [nextId, heq]; rfl)
  | unpause =>
    obtain ⟨_, hop, rfl⟩ := Tx.bind_pure_eq_ok_iff.1 h
    obtain ⟨-, heq⟩ := unpause_ok hop
    exact .kept id (by rw [heq]) (by rw [nextId, heq]; rfl)
  | upgrade newWasmHash =>
    obtain ⟨_, hop, rfl⟩ := Tx.bind_pure_eq_ok_iff.1 h
    have heq := upgrade_ok hop
    exact .kept id (by rw [heq]) (by rw [nextId, heq]; rfl)
  | addSigner x =>
    obtain ⟨_, hop, rfl⟩ := Tx.bind_pure_eq_ok_iff.1 h
    obtain ⟨-, -, _, -, -, heq⟩ := addSigner_ok hop
    exact .kept id (by rw [heq]) (by rw [nextId, heq]; rfl)
  | removeSigner x =>
    obtain ⟨_, hop, rfl⟩ := Tx.bind_pure_eq_ok_iff.1 h
    obtain ⟨-, -, _, _, -, -, -, -, heq⟩ := removeSigner_ok hop
    exact .kept id (by rw [heq]) (by rw [nextId, heq]; rfl)
  | updateThreshold n =>
    obtain ⟨_, hop, rfl⟩ := Tx.bind_pure_eq_ok_iff.1 h
    obtain ⟨-, -, _, -, -, -, heq⟩ := updateThreshold_ok hop
    exact .kept id (by rw [heq]) (by rw [nextId, heq]; rfl)
  | propose payload expiryLedger =>
    obtain ⟨_, hop, rfl⟩ := Tx.bind_pure_eq_ok_iff.1 h
    obtain ⟨-, -, rfl, heq⟩ := propose_ok hop
    exact .proposed payload expiryLedger (by rw [heq]; rfl) (by rw [nextId, heq]; rfl)
  | approve proposalId approver =>
    obtain ⟨_, hop, rfl⟩ := Tx.bind_pure_eq_ok_iff.1 h
    obtain ⟨-, hauth, p, _, _, hp, -, -, -, -, hnew, -, heq⟩ := approve_ok hop
    exact .approved proposalId approver _ p hauth hp hnew (by rw [heq])
      (by rw [nextId, heq]; rfl)
  | execute proposalId =>
    obtain ⟨_, hop, rfl⟩ := Tx.bind_pure_eq_ok_iff.1 h
    obtain ⟨p, _, _, hp, -, -, -, -, heq⟩ := execute_ok hop
    exact .executed proposalId p hp (by rw [heq]) (by rw [nextId, heq]; rfl)
  | checkAuth signatures =>
    obtain ⟨_, hop, rfl⟩ := Tx.bind_pure_eq_ok_iff.1 h
    obtain ⟨_, _, -, rfl⟩ := checkAuth_eq_ok_iff.1 hop
    exact .kept id rfl rfl

end

/-! ### The invariant -/

/-- How the past of a run and its stored proposals fit together. -/
structure ProposalInv (h : List (Moment Address)) (s : State Address) : Prop where
  /-- Identifiers that were given out are below the counter. -/
  issued_lt : ∀ e ∈ h, ∀ id, Issues id e → id < nextId s
  /-- None is given out twice. -/
  issued_once : ∀ id, AtMostOnce (Issues id) h
  /-- What is stored is stored below the counter. -/
  stored_lt : ∀ id p, s.proposals id = some p → id < nextId s
  /-- A stored proposal is what was proposed under its identifier. -/
  stored_issued : ∀ id p, s.proposals id = some p → ∃ e ∈ h, IssuesAs id p.payload p.expiry e
  /-- No one is listed twice among the approvals of a proposal. -/
  approvals_nodup : ∀ id p, s.proposals id = some p → p.approvals.Nodup
  /-- Each stored approval was once given, by the approver. -/
  approvals_given : ∀ id p, s.proposals id = some p →
    ∀ x ∈ p.approvals, ∃ e ∈ h, ApprovedBy id x e
  /-- An executed identifier is below the counter, so no later proposal takes its place. -/
  executed_gone : ∀ e ∈ h, ∀ id, Executes id e → id < nextId s ∧ s.proposals id = none
  /-- No identifier is executed twice. -/
  executed_once : ∀ id, AtMostOnce (Executes id) h

namespace ProposalInv

variable {h : List (Moment Address)} {s s' : State Address} {e : Moment Address}

theorem init (liveUntil : ℕ) : ProposalInv ([] : List (Moment Address)) (deploy liveUntil) where
  issued_lt := by simp
  issued_once := by simp
  stored_lt := by simp [deploy]
  stored_issued := by simp [deploy]
  approvals_nodup := by simp [deploy]
  approvals_given := by simp [deploy]
  executed_gone := by simp
  executed_once := by simp

/-- A step that neither issues nor executes, and leaves proposals and counter as they were. -/
theorem frame (hinv : ProposalInv h s) (hproposals : s'.proposals = s.proposals)
    (hnext : nextId s' = nextId s) (hissue : ∀ id, ¬Issues id e)
    (hexec : ∀ id, ¬Executes id e) : ProposalInv (e :: h) s' where
  issued_lt := by
    rw [hnext]
    exact List.forall_mem_cons.2 ⟨fun id hid ↦ absurd hid (hissue id), hinv.issued_lt⟩
  issued_once id := ⟨fun hid ↦ absurd hid (hissue id), hinv.issued_once id⟩
  stored_lt := by
    rw [hnext, hproposals]
    exact hinv.stored_lt
  stored_issued id p hp := by
    rw [hproposals] at hp
    obtain ⟨e', he', hiss⟩ := hinv.stored_issued id p hp
    exact ⟨e', List.mem_cons_of_mem _ he', hiss⟩
  approvals_nodup := by
    rw [hproposals]
    exact hinv.approvals_nodup
  approvals_given id p hp x hx := by
    rw [hproposals] at hp
    obtain ⟨e', he', happ⟩ := hinv.approvals_given id p hp x hx
    exact ⟨e', List.mem_cons_of_mem _ he', happ⟩
  executed_gone := by
    rw [hnext, hproposals]
    exact List.forall_mem_cons.2 ⟨fun id hid ↦ absurd hid (hexec id), hinv.executed_gone⟩
  executed_once id := ⟨fun hid ↦ absurd hid (hexec id), hinv.executed_once id⟩

/-- A `propose` takes the next identifier, which is above every identifier of the past. -/
theorem proposed (hinv : ProposalInv h s) {payload : Bytes} {expiry : ℕ}
    (hcall : e.input.call = .propose payload expiry)
    (hresult : e.result = .ok (.proposalId (nextId s)))
    (hproposals : s'.proposals = Function.update s.proposals (nextId s)
      (some { payload, expiry, approvals := [] }))
    (hnext : nextId s' = nextId s + 1) : ProposalInv (e :: h) s' := by
  have hissue : ∀ id, Issues id e → id = nextId s := by
    rintro id ⟨_, _, -, hres⟩
    simpa [hresult, eq_comm] using hres
  have hexec : ∀ id, ¬Executes id e := by
    rintro id ⟨hc, -⟩
    simp [hcall] at hc
  -- the stored proposal at an identifier is the new one, or an old one at another identifier
  have hstored : ∀ id p, s'.proposals id = some p →
      (id = nextId s ∧ p = { payload, expiry, approvals := [] }) ∨ s.proposals id = some p := by
    intro id p hp
    rw [hproposals] at hp
    by_cases hid : id = nextId s
    · subst hid
      exact .inl ⟨rfl, by simpa [eq_comm] using hp⟩
    · exact .inr (by simpa [hid] using hp)
  refine ⟨?_, ?_, ?_, ?_, ?_, ?_, ?_, ?_⟩
  · rw [hnext]
    refine List.forall_mem_cons.2 ⟨fun id hid ↦ ?_, fun e' he' id hid ↦ ?_⟩
    · rw [hissue id hid]
      exact Nat.lt_succ_self _
    · exact (hinv.issued_lt e' he' id hid).trans (Nat.lt_succ_self _)
  -- an identifier issued before is below the counter, and this one is the counter
  · refine fun id ↦ ⟨fun hid e' he' hid' ↦ ?_, hinv.issued_once id⟩
    have hlt := hinv.issued_lt e' he' id hid'
    rw [hissue id hid] at hlt
    exact hlt.false
  · intro id p hp
    rw [hnext]
    rcases hstored id p hp with ⟨rfl, -⟩ | hold
    · exact Nat.lt_succ_self _
    · exact (hinv.stored_lt id p hold).trans (Nat.lt_succ_self _)
  · intro id p hp
    rcases hstored id p hp with ⟨rfl, rfl⟩ | hold
    · exact ⟨e, List.mem_cons_self, hcall, hresult⟩
    · obtain ⟨e', he', hiss⟩ := hinv.stored_issued id p hold
      exact ⟨e', List.mem_cons_of_mem _ he', hiss⟩
  · intro id p hp
    rcases hstored id p hp with ⟨-, rfl⟩ | hold
    · exact List.nodup_nil
    · exact hinv.approvals_nodup id p hold
  · intro id p hp x hx
    rcases hstored id p hp with ⟨-, rfl⟩ | hold
    · simp at hx
    · obtain ⟨e', he', happ⟩ := hinv.approvals_given id p hold x hx
      exact ⟨e', List.mem_cons_of_mem _ he', happ⟩
  · refine List.forall_mem_cons.2 ⟨fun id hid ↦ absurd hid (hexec id), fun e' he' id hid ↦ ?_⟩
    obtain ⟨hlt, hgone⟩ := hinv.executed_gone e' he' id hid
    rw [hnext, hproposals]
    exact ⟨hlt.trans (Nat.lt_succ_self _), by simpa [hlt.ne] using hgone⟩
  · exact fun id ↦ ⟨fun hid ↦ absurd hid (hexec id), hinv.executed_once id⟩

/-- An `approve` appends one approver, who authorized this very step. -/
theorem approved (hinv : ProposalInv h s) {id : ℕ} {x : Address} {v : Value} {p : Proposal Address}
    (hcall : e.input.call = .approve id x) (hresult : e.result = .ok v)
    (hauth : e.input.env.auths x = true) (hp : s.proposals id = some p) (hnew : x ∉ p.approvals)
    (hproposals : s'.proposals = Function.update s.proposals id
      (some { p with approvals := p.approvals ++ [x] }))
    (hnext : nextId s' = nextId s) : ProposalInv (e :: h) s' := by
  have hissue : ∀ id, ¬Issues id e := by
    rintro id ⟨_, _, hc, -⟩
    simp [hcall] at hc
  have hexec : ∀ id, ¬Executes id e := by
    rintro id ⟨hc, -⟩
    simp [hcall] at hc
  -- a stored proposal is an old one, with at most `x` appended to its approvals
  have hstored : ∀ id' q, s'.proposals id' = some q → ∃ q₀, s.proposals id' = some q₀ ∧
      q.payload = q₀.payload ∧ q.expiry = q₀.expiry ∧ q.approvals.Nodup ∧
      ∀ y ∈ q.approvals, y ∈ q₀.approvals ∨ (id' = id ∧ y = x) := by
    intro id' q hq
    rw [hproposals] at hq
    by_cases hid : id' = id
    · subst hid
      obtain rfl : { p with approvals := p.approvals ++ [x] } = q := by simpa using hq
      refine ⟨p, hp, rfl, rfl, ?_, fun y hy ↦ ?_⟩
      · exact (hinv.approvals_nodup id' p hp).append (List.nodup_singleton x) (by simpa using hnew)
      · rcases List.mem_append.1 hy with hy | hy
        · exact .inl hy
        · exact .inr ⟨rfl, List.mem_singleton.1 hy⟩
    · rw [Function.update_of_ne hid] at hq
      exact ⟨q, hq, rfl, rfl, hinv.approvals_nodup id' q hq, fun y hy ↦ .inl hy⟩
  refine ⟨?_, fun id ↦ ⟨fun hid ↦ absurd hid (hissue id), hinv.issued_once id⟩, ?_, ?_, ?_, ?_, ?_,
    fun id ↦ ⟨fun hid ↦ absurd hid (hexec id), hinv.executed_once id⟩⟩
  · rw [hnext]
    exact List.forall_mem_cons.2 ⟨fun id hid ↦ absurd hid (hissue id), hinv.issued_lt⟩
  · intro id' q hq
    obtain ⟨q₀, hq₀, -⟩ := hstored id' q hq
    rw [hnext]
    exact hinv.stored_lt id' q₀ hq₀
  · intro id' q hq
    obtain ⟨q₀, hq₀, hpay, hexp, -⟩ := hstored id' q hq
    obtain ⟨e', he', hiss⟩ := hinv.stored_issued id' q₀ hq₀
    rw [hpay, hexp]
    exact ⟨e', List.mem_cons_of_mem _ he', hiss⟩
  · intro id' q hq
    obtain ⟨_, -, -, -, hnodup, -⟩ := hstored id' q hq
    exact hnodup
  · intro id' q hq y hy
    obtain ⟨q₀, hq₀, -, -, -, hmem⟩ := hstored id' q hq
    rcases hmem y hy with hy | ⟨rfl, rfl⟩
    · obtain ⟨e', he', happ⟩ := hinv.approvals_given id' q₀ hq₀ y hy
      exact ⟨e', List.mem_cons_of_mem _ he', happ⟩
    · exact ⟨e, List.mem_cons_self, hcall, hauth, v, hresult⟩
  · refine List.forall_mem_cons.2 ⟨fun id hid ↦ absurd hid (hexec id), fun e' he' id' hid ↦ ?_⟩
    obtain ⟨hlt, hgone⟩ := hinv.executed_gone e' he' id' hid
    have hne : id' ≠ id := by
      rintro rfl
      simp [hgone] at hp
    rw [hnext, hproposals]
    exact ⟨hlt, by simpa [hne] using hgone⟩

/-- An `execute` removes a stored proposal, and so an identifier that was not executed before. -/
theorem executed (hinv : ProposalInv h s) {id : ℕ} {p : Proposal Address}
    (hcall : e.input.call = .execute id) (hp : s.proposals id = some p)
    (hproposals : s'.proposals = Function.update s.proposals id none)
    (hnext : nextId s' = nextId s) : ProposalInv (e :: h) s' := by
  have hissue : ∀ id, ¬Issues id e := by
    rintro id ⟨_, _, hc, -⟩
    simp [hcall] at hc
  have hexec : ∀ id', Executes id' e → id' = id := by
    rintro id' ⟨hc, -⟩
    simpa [hcall, eq_comm] using hc
  have hstored : ∀ id' q, s'.proposals id' = some q → s.proposals id' = some q := by
    intro id' q hq
    rw [hproposals] at hq
    by_cases hid : id' = id
    · simp [hid] at hq
    · rwa [Function.update_of_ne hid] at hq
  refine ⟨?_, fun id ↦ ⟨fun hid ↦ absurd hid (hissue id), hinv.issued_once id⟩, ?_, ?_, ?_, ?_, ?_,
    ?_⟩
  · rw [hnext]
    exact List.forall_mem_cons.2 ⟨fun id hid ↦ absurd hid (hissue id), hinv.issued_lt⟩
  · rw [hnext]
    exact fun id' q hq ↦ hinv.stored_lt id' q (hstored id' q hq)
  · intro id' q hq
    obtain ⟨e', he', hiss⟩ := hinv.stored_issued id' q (hstored id' q hq)
    exact ⟨e', List.mem_cons_of_mem _ he', hiss⟩
  · exact fun id' q hq ↦ hinv.approvals_nodup id' q (hstored id' q hq)
  · intro id' q hq y hy
    obtain ⟨e', he', happ⟩ := hinv.approvals_given id' q (hstored id' q hq) y hy
    exact ⟨e', List.mem_cons_of_mem _ he', happ⟩
  · rw [hnext, hproposals]
    refine List.forall_mem_cons.2 ⟨fun id' hid ↦ ?_, fun e' he' id' hid ↦ ?_⟩
    · obtain rfl := hexec id' hid
      exact ⟨hinv.stored_lt id' p hp, Function.update_self _ _ _⟩
    · obtain ⟨hlt, hgone⟩ := hinv.executed_gone e' he' id' hid
      refine ⟨hlt, ?_⟩
      by_cases hid : id' = id
      · simp [hid]
      · rwa [Function.update_of_ne hid]
  -- an identifier executed before has no stored proposal, and this one has
  · refine fun id' ↦ ⟨fun hid e' he' hid' ↦ ?_, hinv.executed_once id'⟩
    obtain rfl := hexec id' hid
    simp [(hinv.executed_gone e' he' id' hid').2] at hp

end ProposalInv

section

variable [DecidableEq Address]

/-- **Every step keeps the invariant**, completed or not. -/
theorem ProposalInv.step (liveUntil : ℕ) {h : List (Moment Address)} {s : State Address}
    (hinv : ProposalInv h s) (i : Input Address) :
    ProposalInv ((system liveUntil).stepFrom s i :: h) ((system liveUntil).exec i s).2 := by
  rcases Tx.commit_cases (invoke i.env i.call) s with ⟨v, s', hok, hcommit⟩ | ⟨f, -, hcommit⟩
  · have hresult : ((system liveUntil).stepFrom s i).result = .ok v := congrArg Prod.fst hcommit
    have hpost : ((system liveUntil).exec i s).2 = s' := congrArg Prod.snd hcommit
    rw [hpost]
    generalize hcall : i.call = call at hok
    have hinput : ((system liveUntil).stepFrom s i).input.call = call := hcall
    cases invoke_proposalStep hok with
    | kept hkept hproposals hnext =>
      refine hinv.frame hproposals hnext (fun id ↦ ?_) (fun id ↦ ?_)
      · rintro ⟨_, _, hc, -⟩
        rw [hinput] at hc
        exact hkept (hc ▸ trivial)
      · rintro ⟨hc, -⟩
        rw [hinput] at hc
        exact hkept (hc ▸ trivial)
    | proposed payload expiry hproposals hnext =>
      exact hinv.proposed hinput hresult hproposals hnext
    | approved id x b p hauth hp hnew hproposals hnext =>
      exact hinv.approved hinput hresult hauth hp hnew hproposals hnext
    | executed id p hp hproposals hnext =>
      exact hinv.executed hinput hp hproposals hnext
  -- a failed one adds a moment to the history that neither approves nor executes
  · have hresult : ((system liveUntil).stepFrom s i).result = .error f := congrArg Prod.fst hcommit
    have hpost : ((system liveUntil).exec i s).2 = s := congrArg Prod.snd hcommit
    rw [hpost]
    refine hinv.frame rfl rfl (fun id ↦ ?_) (fun id ↦ ?_)
    · rintro ⟨_, _, -, hres⟩
      rw [hresult] at hres
      cases hres
    · rintro ⟨-, _, hres⟩
      rw [hresult] at hres
      cases hres

theorem proposalInv_run (liveUntil : ℕ) (inputs : List (Input Address)) :
    ProposalInv ((system liveUntil).history inputs) ((system liveUntil).final inputs) :=
  System.history_induction _ (ProposalInv.init liveUntil)
    (fun _ _ i hinv ↦ hinv.step liveUntil i) inputs

/-! ### The life cycle -/

/-- A completed `execute` had, at its moment, an unexpired proposal with a quorum of current
signers among its approvals. -/
theorem execute_quorum {liveUntil id : ℕ} {s : State Address} {i : Input Address}
    (h : Executes id ((system liveUntil).stepFrom s i)) :
    ∃ p signers threshold, s.proposals id = some p ∧ i.env.sequence < p.expiry ∧
      s.signers = some signers ∧ s.threshold = some threshold ∧
      (p.approvals.Nodup → Quorum threshold signers fun x ↦ x ∈ p.approvals) := by
  obtain ⟨hcall, v, hresult⟩ := h
  have hok := Tx.ok_of_commit_fst hresult
  have hcall' : i.call = .execute id := hcall
  rw [hcall'] at hok
  obtain ⟨_, hop, -⟩ := Tx.bind_pure_eq_ok_iff.1 hok
  obtain ⟨p, signers, threshold, hp, hexp, hs, ht, hcount, -⟩ := execute_ok hop
  exact ⟨p, signers, threshold, hp, hexp, hs, ht,
    fun hnodup ↦ quorum_of_countP hnodup (fun _ hx ↦ hx) hcount⟩

/-- Nothing can be approved or executed where nothing is stored. -/
theorem not_ok_of_proposals_eq_none {liveUntil id : ℕ} {s : State Address} {i : Input Address}
    (hgone : s.proposals id = none) (hcall : i.call = .execute id ∨ ∃ x, i.call = .approve id x) :
    ∃ f, ((system liveUntil).exec i s).1 = .error f := by
  rcases Tx.commit_cases (invoke i.env i.call) s with ⟨v, s', hok, -⟩ | ⟨f, -, hcommit⟩
  · rcases hcall with hcall | ⟨x, hcall⟩ <;> rw [hcall] at hok
    · obtain ⟨_, hop, -⟩ := Tx.bind_pure_eq_ok_iff.1 hok
      obtain ⟨p, _, _, hp, -⟩ := execute_ok hop
      simp [hgone] at hp
    · obtain ⟨_, hop, -⟩ := Tx.bind_pure_eq_ok_iff.1 hok
      obtain ⟨-, -, p, _, _, hp, -⟩ := approve_ok hop
      simp [hgone] at hp
  · exact ⟨f, congrArg Prod.fst hcommit⟩

/-- **The life cycle of a proposal.** In every run: an identifier is issued at most once and
executed at most once; an execution happens strictly before the expiry the proposal was issued
with, and only with a quorum of current signers each of whom approved it in person; no stored
approval list repeats; and after its execution an identifier is dead. -/
theorem proposal_lifecycle (liveUntil : ℕ) (inputs : List (Input Address)) :
    (∀ id, AtMostOnce (Issues id) ((system liveUntil).history inputs)) ∧
    (∀ id, AtMostOnce (Executes id) ((system liveUntil).history inputs)) ∧
    (∀ i id, Executes id ((system liveUntil).stepFrom ((system liveUntil).final inputs) i) →
      ∃ payload expiry signers threshold,
        (∃ e ∈ (system liveUntil).history inputs, IssuesAs id payload expiry e) ∧
        i.env.sequence < expiry ∧
        ((system liveUntil).final inputs).signers = some signers ∧
        ((system liveUntil).final inputs).threshold = some threshold ∧
        Quorum threshold signers fun x ↦
          ∃ e ∈ (system liveUntil).history inputs, ApprovedBy id x e) ∧
    (∀ id p, ((system liveUntil).final inputs).proposals id = some p → p.approvals.Nodup) ∧
    (∀ id, (∃ e ∈ (system liveUntil).history inputs, Executes id e) →
      getProposal ((system liveUntil).final inputs) id = .error .proposalNotFound ∧
      ∀ i : Input Address, (i.call = .execute id ∨ ∃ x, i.call = .approve id x) →
        ∃ f, ((system liveUntil).exec i ((system liveUntil).final inputs)).1 = .error f) := by
  have hinv := proposalInv_run liveUntil inputs
  refine ⟨hinv.issued_once, hinv.executed_once, fun i id hexec ↦ ?_, hinv.approvals_nodup, ?_⟩
  · obtain ⟨p, signers, threshold, hp, hexp, hs, ht, hquorum⟩ := execute_quorum hexec
    exact ⟨p.payload, p.expiry, signers, threshold, hinv.stored_issued id p hp, hexp, hs, ht,
      (hquorum (hinv.approvals_nodup id p hp)).imp fun x _ hx ↦ hinv.approvals_given id p hp x hx⟩
  · rintro id ⟨e, he, hexec⟩
    obtain ⟨-, hgone⟩ := hinv.executed_gone e he id hexec
    refine ⟨?_, fun i hcall ↦ not_ok_of_proposals_eq_none hgone hcall⟩
    rw [getProposal, hgone]

end

end MultisigAdmin
