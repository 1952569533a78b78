import CompliancePrimitives.Contracts.MultisigAdmin.Governance
import CompliancePrimitives.Contracts.MultisigAdmin.Proposals

/-!
# `multisig-admin`: approvals across removal and re-admission

`execute` counts the stored approvals whose addresses are signers **now**. Removing a signer
therefore silences its approvals, but does not delete them, and re-admitting the same address
brings them back.

An approval is **fresh** if it was given after the latest admission of its address to the signer
set. This module shows that the one thing that can make a counted approval stale is an admission of
an address that a stored proposal still lists as an approver (`Readmits`): in a run without one,
every approval that counts is fresh, and so every execution has a quorum of fresh approvals; and
the moment one happens, a stale approval counts (`removalRevokes_iff`).
-/

namespace MultisigAdmin

open Soroban

variable {Address : Type}

/-! ### Signers, stored approvals, admissions -/

/-- The address is in the signer set. -/
def IsSigner (s : State Address) (x : Address) : Prop :=
  ∃ signers, s.signers = some signers ∧ x ∈ signers

/-- The proposal is stored, with the address among its approvals. -/
def Lists (s : State Address) (id : ℕ) (x : Address) : Prop :=
  ∃ p, s.proposals id = some p ∧ x ∈ p.approvals

/-- The step admits the address to the signer set. -/
def Admits (x : Address) (e : Moment Address) : Prop := ¬IsSigner e.pre x ∧ IsSigner e.post x

/-- The address approved the proposal after its latest admission to the signer set. -/
def FreshlyApproved (h : List (Moment Address)) (id : ℕ) (x : Address) : Prop :=
  Since (Admits x) (ApprovedBy id x) h

/-- Every approval that `execute` would count is fresh. -/
def CountsFresh (h : List (Moment Address)) (s : State Address) : Prop :=
  ∀ id x, Lists s id x → IsSigner s x → FreshlyApproved h id x

section

variable [DecidableEq Address] {env : Env Address} {s s' : State Address}

/-- All checks of `add_signer` for `x`: the switch, the contract's own authorization, and that `x`
is no signer. -/
def Enrols (env : Env Address) (s : State Address) (x : Address) : Prop :=
  isPaused s = false ∧ ∃ signatures signers threshold, env.selfEntry = some signatures ∧
    Granted env s signatures signers threshold ∧ x ∉ signers

/-- The step admits an address that a stored proposal lists as an approver. -/
def Readmits (e : Moment Address) : Prop :=
  ∃ x, e.input.call = .addSigner x ∧ Enrols e.input.env e.pre x ∧ ∃ id, Lists e.pre id x

theorem addSigner_completes_iff {x : Address} :
    (∃ s', addSigner env x s = .ok ((), s')) ↔ Enrols env s x := by
  constructor
  · rintro ⟨s', h⟩
    simp only [addSigner, requireNotPaused, extendInstanceTtl, publish, Tx.bind_eq_ok_iff,
      Pausable.requireNotPausedOr_eq_ok_iff, requireSelfAuth_eq_ok_iff, Tx.get_eq_ok_iff,
      Tx.okOr_eq_ok_iff, Tx.ensure_eq_ok_iff, Tx.modify_eq_ok_iff, and_assoc, exists_and_left,
      exists_eq_left, exists_const] at h
    obtain ⟨hpaused, _, ⟨signatures, hentry, signers, threshold, hgrant, rfl⟩, l, hl, hx, -⟩ := h
    obtain rfl : l = signers := Option.some.inj (hl.symm.trans hgrant.signers_eq)
    exact ⟨hpaused, signatures, l, threshold, hentry, hgrant, hx⟩
  · rintro ⟨hpaused, signatures, signers, threshold, hentry, hgrant, hx⟩
    simp only [addSigner, requireNotPaused, extendInstanceTtl, publish, Tx.bind_eq_ok_iff,
      Pausable.requireNotPausedOr_eq_ok_iff, requireSelfAuth_eq_ok_iff, Tx.get_eq_ok_iff,
      Tx.okOr_eq_ok_iff, Tx.ensure_eq_ok_iff, Tx.modify_eq_ok_iff, and_assoc, exists_and_left,
      exists_eq_left, exists_const]
    exact ⟨hpaused, _, _, ⟨signatures, hentry, signers, threshold, hgrant, rfl⟩, signers,
      hgrant.signers_eq, hx, rfl⟩

/-- What a completed call can do to who is a signer and to which approvals are stored. -/
inductive RosterStep (env : Env Address) (s s' : State Address) : Call Address → Prop
  /-- A call that admits nobody and stores no approval. It may remove of both. -/
  | kept {call : Call Address} (hsigner : ∀ x, IsSigner s' x → IsSigner s x)
      (hlists : ∀ id x, Lists s' id x → Lists s id x) : RosterStep env s s' call
  /-- `initialize`, once: the first signers, and no approvals yet. -/
  | founded (signers : List Address) (threshold : ℕ) (hnone : s.threshold = none)
      (hproposals : s'.proposals = s.proposals) :
      RosterStep env s s' (.initialise signers threshold)
  /-- `add_signer`: one address is admitted, the approvals stay as they are stored. -/
  | enrolled (x : Address) (hchecks : Enrols env s x)
      (hsigner : ∀ y, IsSigner s' y ↔ IsSigner s y ∨ y = x)
      (hproposals : s'.proposals = s.proposals) : RosterStep env s s' (.addSigner x)
  /-- `approve`: one signer is added to the approvals of one proposal. -/
  | approved (id : ℕ) (x : Address) (hauth : env.auths x = true) (hinit : s.threshold.isSome = true)
      (hx : IsSigner s x) (hsigners : s'.signers = s.signers)
      (hlists : ∀ id' y, Lists s' id' y → Lists s id' y ∨ (id' = id ∧ y = x)) :
      RosterStep env s s' (.approve id x)

omit [DecidableEq Address] in
private theorem lists_of_eq (hproposals : s'.proposals = s.proposals) {id : ℕ} {x : Address}
    (h : Lists s' id x) : Lists s id x := by
  rwa [Lists, hproposals] at h

omit [DecidableEq Address] in
private theorem isSigner_of_eq (hsigners : s'.signers = s.signers) {x : Address}
    (h : IsSigner s' x) : IsSigner s x := by
  rwa [IsSigner, hsigners] at h

/-- A call that leaves the signers and the proposals alone. -/
theorem rosterStep_of_eq {call : Call Address} (hsigners : s'.signers = s.signers)
    (hproposals : s'.proposals = s.proposals) : RosterStep env s s' call :=
  .kept (fun _ ↦ isSigner_of_eq hsigners) fun _ _ ↦ lists_of_eq hproposals

omit [DecidableEq Address] in
/-- Who is approver of what, after one stored proposal is replaced. -/
theorem lists_of_update {id : ℕ} {q : Option (Proposal Address)}
    (hproposals : s'.proposals = Function.update s.proposals id q) {id' : ℕ} {y : Address}
    (h : Lists s' id' y) : Lists s id' y ∨ (id' = id ∧ ∃ p, q = some p ∧ y ∈ p.approvals) := by
  obtain ⟨p, hp, hy⟩ := h
  rw [hproposals] at hp
  by_cases hid : id' = id
  · subst hid
    rw [Function.update_self] at hp
    exact .inr ⟨rfl, p, hp, hy⟩
  · rw [Function.update_of_ne hid] at hp
    exact .inl ⟨p, hp, hy⟩

/-- **Every completed call is one of these.** -/
theorem invoke_rosterStep {call : Call Address} {v : Value}
    (h : invoke env call s = .ok (v, s')) : RosterStep env s s' call := by
  cases call with
  | initialise signers threshold =>
    obtain ⟨_, hop, rfl⟩ := Tx.bind_pure_eq_ok_iff.1 h
    obtain ⟨hnone, -, heq⟩ := initialise_ok hop
    exact .founded signers threshold hnone (by rw [heq])
  | pause =>
    obtain ⟨_, hop, rfl⟩ := Tx.bind_pure_eq_ok_iff.1 h
    obtain ⟨-, heq⟩ := pause_ok hop
    exact rosterStep_of_eq (by rw [heq]) (by rw [heq])
  | unpause =>
    obtain ⟨_, hop, rfl⟩ := Tx.bind_pure_eq_ok_iff.1 h
    obtain ⟨-, heq⟩ := unpause_ok hop
    exact rosterStep_of_eq (by rw [heq]) (by rw [heq])
  | upgrade newWasmHash =>
    obtain ⟨_, hop, rfl⟩ := Tx.bind_pure_eq_ok_iff.1 h
    have heq := upgrade_ok hop
    exact rosterStep_of_eq (by rw [heq]) (by rw [heq])
  | addSigner x =>
    obtain ⟨_, hop, rfl⟩ := Tx.bind_pure_eq_ok_iff.1 h
    obtain ⟨-, -, signers, hs, -, heq⟩ := addSigner_ok hop
    refine .enrolled x (addSigner_completes_iff.1 ⟨s', hop⟩) (fun y ↦ ?_) (by rw [heq])
    have hs' : s'.signers = some (signers ++ [x]) := by rw [heq]
    simp [IsSigner, hs, hs']
  | removeSigner x =>
    obtain ⟨_, hop, rfl⟩ := Tx.bind_pure_eq_ok_iff.1 h
    obtain ⟨-, -, signers, _, hs, -, -, -, heq⟩ := removeSigner_ok hop
    have hs' : s'.signers = some (signers.erase x) := by rw [heq]
    have hproposals : s'.proposals = s.proposals := by rw [heq]
    refine .kept (fun y ↦ ?_) fun _ _ ↦ lists_of_eq hproposals
    rintro ⟨l, hl, hy⟩
    obtain rfl : signers.erase x = l := Option.some.inj (hs'.symm.trans hl)
    exact ⟨signers, hs, List.mem_of_mem_erase hy⟩
  | updateThreshold n =>
    obtain ⟨_, hop, rfl⟩ := Tx.bind_pure_eq_ok_iff.1 h
    obtain ⟨-, -, _, -, -, -, heq⟩ := updateThreshold_ok hop
    exact rosterStep_of_eq (by rw [heq]) (by rw [heq])
  | propose payload expiryLedger =>
    obtain ⟨_, hop, rfl⟩ := Tx.bind_pure_eq_ok_iff.1 h
    obtain ⟨-, -, rfl, heq⟩ := propose_ok hop
    have hsigners : s'.signers = s.signers := by rw [heq]
    have hproposals : s'.proposals = Function.update s.proposals (s.nextProposalId.getD 0)
        (some { payload, expiry := expiryLedger, approvals := [] }) := by rw [heq]
    refine .kept (fun _ ↦ isSigner_of_eq hsigners) fun id y hy ↦ ?_
    -- a new proposal has no approvals yet
    rcases lists_of_update hproposals hy with hold | ⟨-, p, hp, hmem⟩
    · exact hold
    · cases hp
      cases hmem
  | approve proposalId approver =>
    obtain ⟨_, hop, rfl⟩ := Tx.bind_pure_eq_ok_iff.1 h
    obtain ⟨-, hauth, p, signers, threshold, hp, -, hs, ht, hmem, -, -, heq⟩ := approve_ok hop
    have hproposals : s'.proposals = Function.update s.proposals proposalId
        (some { p with approvals := p.approvals ++ [approver] }) := by rw [heq]
    refine .approved proposalId approver hauth (by simp [ht]) ⟨signers, hs, hmem⟩ (by rw [heq])
      fun id y hy ↦ ?_
    rcases lists_of_update hproposals hy with hold | ⟨rfl, q, hq, hyq⟩
    · exact .inl hold
    · cases hq
      rcases List.mem_append.1 hyq with hyp | hyx
      · exact .inl ⟨p, hp, hyp⟩
      · exact .inr ⟨rfl, List.mem_singleton.1 hyx⟩
  | execute proposalId =>
    obtain ⟨_, hop, rfl⟩ := Tx.bind_pure_eq_ok_iff.1 h
    obtain ⟨_, _, _, -, -, -, -, -, heq⟩ := execute_ok hop
    have hsigners : s'.signers = s.signers := by rw [heq]
    have hproposals : s'.proposals = Function.update s.proposals proposalId none := by rw [heq]
    refine .kept (fun _ ↦ isSigner_of_eq hsigners) fun id y hy ↦ ?_
    rcases lists_of_update hproposals hy with hold | ⟨-, p, hp, -⟩
    · exact hold
    · cases hp
  | checkAuth signatures =>
    obtain ⟨_, hop, rfl⟩ := Tx.bind_pure_eq_ok_iff.1 h
    obtain ⟨_, _, -, rfl⟩ := checkAuth_eq_ok_iff.1 hop
    exact rosterStep_of_eq rfl rfl

/-! ### What a run without re-admissions keeps -/

/-- An initialized instance stays initialized. -/
theorem GovernanceStep.threshold_isSome (h : GovernanceStep env s s')
    (hinit : s.threshold.isSome = true) : s'.threshold.isSome = true := by
  cases h with
  | kept _ hthreshold => rwa [hthreshold]
  | founded _ _ _ _ _ hthreshold => rw [hthreshold]; rfl
  | enrolled _ _ _ _ _ _ hthreshold => rwa [hthreshold]
  | expelled _ _ _ _ _ _ _ _ hthreshold => rwa [hthreshold]
  | retuned _ _ _ _ _ _ _ hthreshold => rw [hthreshold]; rfl
  | switched _ _ hthreshold => rwa [hthreshold]

/-- Nothing is approved before the instance is initialized, and what counts is fresh. -/
structure FreshInv (h : List (Moment Address)) (s : State Address) : Prop where
  /-- Where an approval is stored, the instance is initialized. -/
  initialised : ∀ id x, Lists s id x → s.threshold.isSome = true
  /-- The approvals that count are fresh. -/
  counts : CountsFresh h s

omit [DecidableEq Address] in
/-- A step that adds no signer and no approval. -/
theorem CountsFresh.mono {h : List (Moment Address)} {e : Moment Address}
    (hcounts : CountsFresh h e.pre) (hsigner : ∀ x, IsSigner e.post x → IsSigner e.pre x)
    (hlists : ∀ id x, Lists e.post id x → Lists e.pre id x) : CountsFresh (e :: h) e.post :=
  fun id x hx hmem ↦
    ⟨fun hadmits ↦ hadmits.1 (hsigner x hmem),
      .inr (hcounts id x (hlists id x hx) (hsigner x hmem))⟩

/-- **Every step but a re-admission keeps what counts fresh.** -/
theorem FreshInv.step (liveUntil : ℕ) {h : List (Moment Address)} {s : State Address}
    (hinv : FreshInv h s) (i : Input Address)
    (hno : ¬Readmits ((system liveUntil).stepFrom s i)) :
    FreshInv ((system liveUntil).stepFrom s i :: h) ((system liveUntil).exec i s).2 := by
  have hgov := exec_governance liveUntil i s
  rcases Tx.commit_cases (invoke i.env i.call) s with ⟨v, s', hok, hcommit⟩ | ⟨f, -, hcommit⟩
  · have hresult : ((system liveUntil).exec i s).1 = .ok v := congrArg Prod.fst hcommit
    have hpost : ((system liveUntil).exec i s).2 = s' := congrArg Prod.snd hcommit
    have hstep := invoke_rosterStep hok
    rw [← hpost] at hstep
    generalize hcall : i.call = call at hstep
    cases hstep with
    | kept hsigner hlists =>
      exact ⟨fun id x hx ↦ hgov.threshold_isSome (hinv.initialised id x (hlists id x hx)),
        CountsFresh.mono (e := (system liveUntil).stepFrom s i) hinv.counts hsigner hlists⟩
    | founded signers threshold hnone hproposals =>
      -- before the foundation nothing is approved
      have hempty : ∀ id x, ¬Lists ((system liveUntil).exec i s).2 id x := by
        intro id x hx
        have hinit := hinv.initialised id x (lists_of_eq hproposals hx)
        rw [hnone] at hinit
        cases hinit
      exact ⟨fun id x hx ↦ absurd hx (hempty id x), fun id x hx ↦ absurd hx (hempty id x)⟩
    | enrolled x hchecks hsigner hproposals =>
      refine ⟨fun id y hy ↦ hgov.threshold_isSome
        (hinv.initialised id y (lists_of_eq hproposals hy)), fun id y hy hmem ↦ ?_⟩
      have hold : Lists s id y := lists_of_eq hproposals hy
      -- were the newcomer an approver, this would be the re-admission that is excluded
      have hne : y ≠ x := by
        rintro rfl
        exact hno ⟨y, hcall, hchecks, id, hold⟩
      have hsig : IsSigner s y := ((hsigner y).1 hmem).resolve_right hne
      exact ⟨fun hadmits ↦ hadmits.1 hsig, .inr (hinv.counts id y hold hsig)⟩
    | approved id x hauth hinit hx hsigners hlists =>
      refine ⟨fun id' y hy ↦ ?_, fun id' y hy hmem ↦ ?_⟩
      · rcases hlists id' y hy with hold | -
        · exact hgov.threshold_isSome (hinv.initialised id' y hold)
        · exact hgov.threshold_isSome hinit
      · have hsig : IsSigner s y := isSigner_of_eq hsigners hmem
        refine ⟨fun hadmits ↦ hadmits.1 hsig, ?_⟩
        rcases hlists id' y hy with hold | ⟨rfl, rfl⟩
        · exact .inr (hinv.counts id' y hold hsig)
        · exact .inl ⟨hcall, hauth, v, hresult⟩
  · have hpost : ((system liveUntil).exec i s).2 = s := congrArg Prod.snd hcommit
    refine ⟨?_, CountsFresh.mono (e := (system liveUntil).stepFrom s i) hinv.counts ?_ ?_⟩
    · rw [hpost]
      exact hinv.initialised
    · rw [System.stepFrom_post, hpost]
      exact fun _ hx ↦ hx
    · rw [System.stepFrom_post, hpost]
      exact fun _ _ hx ↦ hx

theorem freshInv_run (liveUntil : ℕ) (inputs : List (Input Address))
    (hno : ∀ e ∈ (system liveUntil).history inputs, ¬Readmits e) :
    FreshInv ((system liveUntil).history inputs) ((system liveUntil).final inputs) := by
  induction inputs with
  | nil =>
    have hempty : ∀ id x, ¬Lists (deploy liveUntil : State Address) id x := by
      rintro id x ⟨p, hp, -⟩
      cases hp
    exact ⟨fun id x hx ↦ absurd hx (hempty id x), fun id x hx ↦ absurd hx (hempty id x)⟩
  | cons i inputs ih =>
    have hpast := ih fun e he ↦ hno e (List.mem_cons_of_mem _ he)
    exact hpast.step liveUntil i (hno _ List.mem_cons_self)

/-- **A re-admission makes a stale approval count.** -/
theorem Readmits.not_countsFresh {liveUntil : ℕ} {h : List (Moment Address)} {s : State Address}
    {i : Input Address} (hre : Readmits ((system liveUntil).stepFrom s i)) :
    ¬CountsFresh ((system liveUntil).stepFrom s i :: h) ((system liveUntil).exec i s).2 := by
  obtain ⟨x, hcall, hchecks, id, p, hp, hx⟩ := hre
  have hcall' : i.call = .addSigner x := hcall
  obtain ⟨s', hop⟩ := addSigner_completes_iff.2 hchecks
  obtain ⟨-, -, signers, hs, hnew, heq⟩ := addSigner_ok hop
  have hok : invoke i.env i.call s = .ok (.unit, s') := by
    rw [hcall']
    exact Tx.bind_pure_eq_ok_iff.2 ⟨(), hop, rfl⟩
  have hpost : ((system liveUntil).exec i s).2 = s' := congrArg Prod.snd (Tx.commit_of_ok hok)
  have hlists : Lists s' id x := ⟨p, by rw [heq]; exact hp, hx⟩
  have hmem : IsSigner s' x := ⟨signers ++ [x], by rw [heq], by simp⟩
  -- the step is itself the latest admission, and the approval is older
  have hadmits : Admits x ((system liveUntil).stepFrom s i) := by
    refine ⟨?_, ?_⟩
    · rintro ⟨l, hl, hxl⟩
      obtain rfl : signers = l := Option.some.inj (hs.symm.trans hl)
      exact hnew hxl
    · rw [System.stepFrom_post, hpost]
      exact hmem
  intro hcounts
  rw [hpost] at hcounts
  obtain ⟨hnot, -⟩ := hcounts id x hlists hmem
  exact hnot hadmits

/-! ### The result -/

/-- **Removal revokes approvals for good**, in a run: at every moment the approvals that count are
fresh, and every execution had a quorum of current signers with fresh approvals. -/
structure RemovalRevokes (liveUntil : ℕ) (inputs : List (Input Address)) : Prop where
  /-- No stored approval counts that is older than the latest admission of who gave it. -/
  counted : ∀ js, js <:+ inputs →
    CountsFresh ((system liveUntil).history js) ((system liveUntil).final js)
  /-- Whatever is executed has a quorum of approvals that are not. -/
  executed : ∀ i js id, i :: js <:+ inputs →
    Executes id ((system liveUntil).stepFrom ((system liveUntil).final js) i) →
    ∃ signers threshold, ((system liveUntil).final js).signers = some signers ∧
      ((system liveUntil).final js).threshold = some threshold ∧
      Quorum threshold signers (FreshlyApproved ((system liveUntil).history js) id)

/-- **When removal revokes.** In every run removal revokes approvals for good if and only if no
call of `add_signer` admits an address that a stored proposal lists as an approver. -/
theorem removalRevokes_iff (liveUntil : ℕ) (inputs : List (Input Address)) :
    RemovalRevokes liveUntil inputs ↔
      ∀ e ∈ (system liveUntil).history inputs, ¬Readmits e := by
  constructor
  · intro hrevokes e he hre
    obtain ⟨js, hstep, hsuf⟩ := System.exists_of_mem_history _ he
    have hcounts := hrevokes.counted _ hsuf
    rw [hstep] at hre
    exact hre.not_countsFresh hcounts
  · intro hno
    have hcounted : ∀ js, js <:+ inputs →
        CountsFresh ((system liveUntil).history js) ((system liveUntil).final js) :=
      fun js hjs ↦ (freshInv_run liveUntil js fun e he ↦
        hno e ((System.history_suffix _ hjs).subset he)).counts
    refine ⟨hcounted, fun i js id hsuf hexec ↦ ?_⟩
    have hjs : js <:+ inputs := (List.suffix_cons i js).trans hsuf
    obtain ⟨p, signers, threshold, hp, -, hs, ht, hquorum⟩ := execute_quorum hexec
    have hnodup := (proposalInv_run liveUntil js).approvals_nodup id p hp
    exact ⟨signers, threshold, hs, ht, (hquorum hnodup).imp fun x hmem hx ↦
      hcounted js hjs id x ⟨p, hp, hx⟩ ⟨signers, hs, hmem⟩⟩

/-- Signers 1 and 2 of three approve a proposal; 1 is removed, and admitted again. -/
def readmission : List (Input ℕ) :=
  [⟨.granting [2, 3], .addSigner 1⟩, ⟨.granting [2, 3], .removeSigner 1⟩,
    ⟨.granting [], .approve 0 2⟩, ⟨.granting [], .approve 0 1⟩,
    ⟨.granting [], .propose [] 100⟩, ⟨.granting [], .initialise [1, 2, 3] 2⟩]

/-- The proposal is then executed, and only signer 2 has approved it as a signer it still is. -/
theorem not_removalRevokes_readmission :
    Executes 0 ((system 0).stepFrom ((system 0).final readmission) ⟨.granting [], .execute 0⟩) ∧
      ¬RemovalRevokes 0 (⟨.granting [], .execute 0⟩ :: readmission) := by
  have hexec : Executes 0
      ((system 0).stepFrom ((system 0).final readmission) ⟨.granting [], .execute 0⟩) :=
    ⟨rfl, .unit, by decide⟩
  refine ⟨hexec, fun hrevokes ↦ ?_⟩
  obtain ⟨signers, threshold, hs, ht, L, hL, hcard⟩ :=
    hrevokes.executed _ _ 0 (List.suffix_refl _) hexec
  have hsigners : ((system 0).final readmission).signers = some [2, 3, 1] := by decide
  have hthreshold : ((system 0).final readmission).threshold = some 2 := by decide
  obtain rfl : [2, 3, 1] = signers := Option.some.inj (hsigners.symm.trans hs)
  obtain rfl : 2 = threshold := Option.some.inj (hthreshold.symm.trans ht)
  have honly : ∀ x ∈ L, x = 2 := by
    intro x hx
    obtain ⟨hmem, hfresh⟩ := hL x hx
    have hcases : x = 2 ∨ x = 3 ∨ x = 1 := by simpa using hmem
    rcases hcases with rfl | rfl | rfl
    · rfl
    · -- signer 3 never approved
      obtain ⟨e, he, hcall, -⟩ := hfresh.exists_mem
      simp only [readmission, System.history_cons, System.history_nil, List.mem_cons,
        List.not_mem_nil, or_false] at he
      rcases he with rfl | rfl | rfl | rfl | rfl | rfl <;> cases hcall
    · -- signer 1 approved before its latest admission, which is the latest step
      obtain ⟨hnot, -⟩ := hfresh
      refine absurd ⟨?_, [2, 3, 1], by decide, by decide⟩ hnot
      rintro ⟨l, hl, hmem⟩
      have hpre : ((system 0).final (readmission.drop 1)).signers = some [2, 3] := by decide
      obtain rfl : [2, 3] = l := Option.some.inj (hpre.symm.trans hl)
      exact absurd hmem (by decide)
  have hsub : L ⊆ {2} := fun x hx ↦ Finset.mem_singleton.2 (honly x hx)
  have hle := Finset.card_le_card hsub
  rw [Finset.card_singleton] at hle
  omega

end

end MultisigAdmin
