import CompliancePrimitives.Contracts.DenylistGate.SignerSet

/-!
# `denylist-gate`: pending approvals across removal and re-admission

`approve` counts, of the approvals stored for an action, those whose addresses are in the signer
set now. As in `multisig-admin`, a removed signer's approvals stay in storage — here under every
action it has approved, and there is no expiry — and count again once the address is re-admitted.

The one call that makes a stale approval count is the one that applies the addition of an address
which is listed as an approver of another pending action (`Readmits`). Without such calls every
action is applied with a quorum of signers who approved it after their latest admission
(`signerRemovalRevokes_iff`).
-/

namespace DenylistGate

open Soroban

variable {Address : Type}

/-! ### Signers, pending approvals, admissions -/

/-- The address is in the signer set. -/
def IsSigner (s : State Address) (x : Address) : Prop :=
  ∃ set, s.signerSet = some set ∧ x ∈ set.signers

/-- An approval of the action by the address is stored. -/
def Pending (s : State Address) (a : SignerAction Address) (x : Address) : Prop :=
  ∃ approvals, s.pendingSignerAction a = some approvals ∧ x ∈ approvals

/-- The step admits the address to the signer set. -/
def Admits (x : Address) (e : Moment Address) : Prop := ¬IsSigner e.pre x ∧ IsSigner e.post x

section

variable [DecidableEq Address] {s s' : State Address}

/-- The address approved the action after its latest admission to the signer set. -/
def FreshlyApproved (h : List (Moment Address)) (a : SignerAction Address) (x : Address) : Prop :=
  Since (Admits x) (ApprovedBy a x) h

/-- Every stored approval that `approve` would count is fresh. -/
def CountsFresh (h : List (Moment Address)) (s : State Address) : Prop :=
  ∀ a x, Pending s a x → IsSigner s x → FreshlyApproved h a x

/-- The step is a call of `add_signer` for `x` that passes all its checks and finds enough
approvals. -/
def Enrols (x : Address) (e : Moment Address) : Prop :=
  ∃ caller set, e.input.call = .addSigner caller x ∧ e.input.env.auths caller = true ∧
    e.pre.signerSet = some set ∧ caller ∈ set.signers ∧ x ∉ set.signers ∧
    set.threshold ≤ valid set (collect e.pre (.add x) caller)

/-- The step admits an address that is listed as an approver of another pending action. -/
def Readmits (e : Moment Address) : Prop :=
  ∃ x a, Enrols x e ∧ a ≠ .add x ∧ Pending e.pre a x

/-- The state after an addition that is applied. -/
theorem Enrols.exec_eq {x : Address} {i : Input Address}
    (h : Enrols x (system.stepFrom s i)) :
    ∃ caller set, i.call = .addSigner caller x ∧ s.signerSet = some set ∧ x ∉ set.signers ∧
      (system.exec i s).1 = .ok () ∧
      (system.exec i s).2 = applied s (.add x) caller set := by
  obtain ⟨caller, set, hcall, hauth, hs, hmem, hnew, hreached⟩ := h
  have hcall' : i.call = (SignerAction.add x).callBy caller := hcall
  have hok : invoke i.env i.call s = .ok ((), applied s (.add x) caller set) := by
    rw [hcall', signerCall_eq_ok_iff]
    exact ⟨hauth, set, hs, hmem, hnew, approve_eq_ok_iff.2 (.inr ⟨hreached, trivial, rfl⟩)⟩
  have hexec : system.exec i s = (.ok (), applied s (.add x) caller set) := Tx.commit_of_ok hok
  exact ⟨caller, set, hcall, hs, hnew, congrArg Prod.fst hexec, congrArg Prod.snd hexec⟩

/-- Nobody joins the set but by an addition of theirs. -/
theorem SignerAction.mem_applyTo {a : SignerAction Address} {set : SignerSet Address} {y : Address}
    (h : y ∈ (a.applyTo set).signers) : y ∈ set.signers ∨ a = .add y := by
  cases a with
  | add newSigner =>
    rcases List.mem_append.1 h with h | h
    · exact .inl h
    · exact .inr (by rw [List.mem_singleton.1 h])
  | remove removed => exact .inl (List.mem_filter.1 h).1
  | setThreshold newThreshold => exact .inl h

/-! ### What a run without re-admissions keeps -/

omit [DecidableEq Address] in
private theorem isSigner_of_eq (hset : s'.signerSet = s.signerSet) {x : Address}
    (h : IsSigner s' x) : IsSigner s x := by
  rwa [IsSigner, hset] at h

omit [DecidableEq Address] in
private theorem pending_of_eq (hpending : s'.pendingSignerAction = s.pendingSignerAction)
    {a : SignerAction Address} {x : Address} (h : Pending s' a x) : Pending s a x := by
  rwa [Pending, hpending] at h

/-- A collected approval was stored, or is the caller's. -/
theorem pending_of_mem_collect {a : SignerAction Address} {caller y : Address}
    (h : y ∈ collect s a caller) : Pending s a y ∨ y = caller := by
  have hstored : y ∈ (s.pendingSignerAction a).getD [] → Pending s a y := by
    cases hp : s.pendingSignerAction a with
    | none => simp
    | some approvals => exact fun hy ↦ ⟨approvals, hp, hy⟩
  rw [collect] at h
  split_ifs at h
  · exact .inl (hstored h)
  · rcases List.mem_append.1 h with hy | hy
    · exact .inl (hstored hy)
    · exact .inr (List.mem_singleton.1 hy)

omit [DecidableEq Address] in
/-- A step that adds no signer and no approval. -/
theorem CountsFresh.mono {h : List (Moment Address)} {e : Moment Address}
    (hcounts : CountsFresh h e.pre) (hsigner : ∀ x, IsSigner e.post x → IsSigner e.pre x)
    (hpending : ∀ a x, Pending e.post a x → Pending e.pre a x) : CountsFresh (e :: h) e.post :=
  fun a x hx hmem ↦
    ⟨fun hadmits ↦ hadmits.1 (hsigner x hmem),
      .inr (hcounts a x (hpending a x hx) (hsigner x hmem))⟩

/-- **Every step but a re-admission keeps what counts fresh.** -/
theorem CountsFresh.step {h : List (Moment Address)} (hcounts : CountsFresh h s)
    (hnone : s.signerSet = none → ∀ a, s.pendingSignerAction a = none) (i : Input Address)
    (hno : ¬Readmits (system.stepFrom s i)) :
    CountsFresh (system.stepFrom s i :: h) (system.exec i s).2 := by
  rcases exec_signerSetStep i s with ⟨hok, hstep⟩ | ⟨-, hpost⟩
  · cases hstep with
    | kept _ hset hpending =>
      exact CountsFresh.mono (e := system.stepFrom s i) hcounts
        (fun _ ↦ isSigner_of_eq hset) fun _ _ ↦ pending_of_eq hpending
    | founded _ set hs _ _ hpending =>
      -- before a set is installed nothing is pending
      rintro a x ⟨approvals, hp, -⟩ -
      rw [hpending, hnone hs a] at hp
      cases hp
    | recorded a caller set hcall hauth hs _ hset hpending =>
      intro b x hx hmem
      have hsig : IsSigner s x := isSigner_of_eq hset hmem
      refine ⟨fun hadmits ↦ hadmits.1 hsig, ?_⟩
      obtain ⟨approvals, hp, hxp⟩ := hx
      rw [hpending] at hp
      by_cases hb : b = a
      · subst hb
        rw [Function.update_self] at hp
        obtain rfl : collect s b caller = approvals := Option.some.inj hp
        rcases pending_of_mem_collect hxp with hold | rfl
        · exact .inr (hcounts b x hold hsig)
        · exact .inl ⟨hcall, hauth, hok⟩
      · rw [Function.update_of_ne hb] at hp
        exact .inr (hcounts b x ⟨approvals, hp, hxp⟩ hsig)
    | applied a caller set hcall hauth hs hadm _ hreached hset hpending =>
      rintro b x ⟨approvals, hp, hxp⟩ ⟨set', hset', hmem⟩
      rw [hpending] at hp
      by_cases hb : b = a
      · subst hb
        rw [Function.update_self] at hp
        cases hp
      · rw [Function.update_of_ne hb] at hp
        obtain rfl : a.applyTo set = set' := Option.some.inj (hset.symm.trans hset')
        have hold : Pending s b x := ⟨approvals, hp, hxp⟩
        rcases SignerAction.mem_applyTo hmem with hsig | rfl
        · exact ⟨fun hadmits ↦ hadmits.1 ⟨set, hs, hsig⟩, .inr (hcounts b x hold ⟨set, hs, hsig⟩)⟩
        · -- the newcomer is an approver of another action: the excluded re-admission
          have hcaller : caller ∈ set.signers := by
            have hinvoke := Tx.ok_of_commit_fst hok
            rw [hcall, signerCall_eq_ok_iff] at hinvoke
            obtain ⟨-, set₀, hs₀, hmem₀, -⟩ := hinvoke
            rwa [Option.some.inj (hs.symm.trans hs₀)]
          exact absurd
            ⟨x, b, ⟨caller, set, hcall, hauth, hs, hcaller, hadm, hreached⟩, hb, hold⟩ hno
  · refine CountsFresh.mono (e := system.stepFrom s i) hcounts ?_ ?_
    · rw [System.stepFrom_post, hpost]
      exact fun _ hx ↦ hx
    · rw [System.stepFrom_post, hpost]
      exact fun _ _ hx ↦ hx

theorem countsFresh_run (inputs : List (Input Address))
    (hno : ∀ e ∈ system.history inputs, ¬Readmits e) :
    CountsFresh (system.history inputs) (system.final inputs) := by
  induction inputs with
  | nil =>
    rintro a x ⟨approvals, hp, -⟩
    cases hp
  | cons i inputs ih =>
    have hpast := ih fun e he ↦ hno e (List.mem_cons_of_mem _ he)
    exact hpast.step (pendingInv_run inputs).none_of_none i (hno _ List.mem_cons_self)

/-- **A re-admission makes a stale approval count.** -/
theorem Readmits.not_countsFresh {h : List (Moment Address)} {i : Input Address}
    (hre : Readmits (system.stepFrom s i)) :
    ¬CountsFresh (system.stepFrom s i :: h) (system.exec i s).2 := by
  obtain ⟨x, a, henrols, hne, approvals, hp, hx⟩ := hre
  obtain ⟨caller, set, -, hs, hnew, -, hpost⟩ := henrols.exec_eq
  have hpending : Pending (system.exec i s).2 a x := by
    refine ⟨approvals, ?_, hx⟩
    rw [hpost]
    exact (Function.update_of_ne hne _ _).trans hp
  have hmem : IsSigner (system.exec i s).2 x := by
    rw [hpost]
    exact ⟨_, rfl, List.mem_append_right _ (List.mem_singleton.2 rfl)⟩
  have hadmits : Admits x (system.stepFrom s i) := by
    refine ⟨?_, hmem⟩
    rintro ⟨set', hset', hmem'⟩
    obtain rfl : set = set' := Option.some.inj (hs.symm.trans hset')
    exact hnew hmem'
  intro hcounts
  obtain ⟨hnot, -⟩ := hcounts a x hpending hmem
  exact hnot hadmits

/-- An action that is applied has a quorum of fresh approvals, the caller's among them, if the
stored ones that count are fresh. -/
theorem CountsFresh.quorum {inputs : List (Input Address)} {i : Input Address}
    {a : SignerAction Address}
    (hcounts : CountsFresh (system.history inputs) (system.final inputs))
    (happlies : Applies a (system.stepFrom (system.final inputs) i)) :
    ∃ set, (system.final inputs).signerSet = some set ∧
      Quorum set.threshold set.signers (FreshlyApproved (system.history (i :: inputs)) a) := by
  obtain ⟨caller, set, hcall, hok, hs, hreached⟩ := happlies
  have hinvoke := Tx.ok_of_commit_fst hok
  have hcall' : i.call = a.callBy caller := hcall
  rw [hcall', signerCall_eq_ok_iff] at hinvoke
  obtain ⟨hauth, -⟩ := hinvoke
  have hcollected : Quorum set.threshold set.signers
      fun y ↦ y ∈ collect (system.final inputs) a caller :=
    quorum_of_countP ((pendingInv_run inputs).collect_nodup a caller) (fun _ hy ↦ hy) hreached
  refine ⟨set, hs, hcollected.imp fun y hy hcollect ↦ ?_⟩
  have hsig : IsSigner (system.final inputs) y := ⟨set, hs, hy⟩
  refine ⟨fun hadmits ↦ hadmits.1 hsig, ?_⟩
  rcases pending_of_mem_collect hcollect with hpending | rfl
  · exact .inr (hcounts a y hpending hsig)
  · exact .inl ⟨hcall, hauth, hok⟩

/-! ### The result -/

/-- **Removal of a signer revokes its pending approvals**, in a run: at every moment the stored
approvals that count are fresh, and every action that was applied had a quorum of signers who
approved it after their latest admission. -/
structure RemovalRevokes (inputs : List (Input Address)) : Prop where
  /-- No stored approval counts that is older than the latest admission of who gave it. -/
  counted : ∀ js, js <:+ inputs → CountsFresh (system.history js) (system.final js)
  /-- Whatever is applied has a quorum of approvals that are not. -/
  applied : ∀ i js a, i :: js <:+ inputs → Applies a (system.stepFrom (system.final js) i) →
    ∃ set, (system.final js).signerSet = some set ∧
      Quorum set.threshold set.signers (FreshlyApproved (system.history (i :: js)) a)

/-- **When removal revokes.** In every run removal revokes pending approvals if and only if no call
of `add_signer` applies the addition of an address that another pending action lists as an
approver. -/
theorem signerRemovalRevokes_iff (inputs : List (Input Address)) :
    RemovalRevokes inputs ↔ ∀ e ∈ system.history inputs, ¬Readmits e := by
  constructor
  · intro hrevokes e he hre
    obtain ⟨js, hstep, hsuf⟩ := System.exists_of_mem_history _ he
    have hcounts := hrevokes.counted _ hsuf
    rw [hstep] at hre
    exact hre.not_countsFresh hcounts
  · intro hno
    have hcounted : ∀ js, js <:+ inputs → CountsFresh (system.history js) (system.final js) :=
      fun js hjs ↦ countsFresh_run js fun e he ↦
        hno e ((System.history_suffix _ hjs).subset he)
    exact ⟨hcounted, fun i js a hsuf happlies ↦
      (hcounted js ((List.suffix_cons i js).trans hsuf)).quorum happlies⟩

/-- Signer 3 of three approves a threshold of one; 1 and 2 remove 3, and admit it again. -/
def readmission : List (Input ℕ) :=
  [⟨.granting, .addSigner 2 3⟩, ⟨.granting, .addSigner 1 3⟩, ⟨.granting, .removeSigner 2 3⟩,
    ⟨.granting, .removeSigner 1 3⟩, ⟨.granting, .setThreshold 3 1⟩,
    ⟨.granting, .initializeMultisig 0 [1, 2, 3] 2⟩, ⟨.granting, .initialise 0⟩]

/-- One more approval then applies it, and is the only one given after a latest admission. -/
theorem not_signerRemovalRevokes_readmission :
    Applies (.setThreshold 1)
        (system.stepFrom (system.final readmission) ⟨.granting, .setThreshold 1 1⟩) ∧
      ¬RemovalRevokes (⟨.granting, .setThreshold 1 1⟩ :: readmission) := by
  have happlies : Applies (.setThreshold 1)
      (system.stepFrom (system.final readmission) ⟨.granting, .setThreshold 1 1⟩) :=
    ⟨1, ⟨[1, 2, 3], 2⟩, rfl, by decide, by decide, by decide⟩
  refine ⟨happlies, fun hrevokes ↦ ?_⟩
  obtain ⟨set, hs, L, hL, hcard⟩ := hrevokes.applied _ _ _ (List.suffix_refl _) happlies
  have hset : (system.final readmission).signerSet = some ⟨[1, 2, 3], 2⟩ := by decide
  obtain rfl : ⟨[1, 2, 3], 2⟩ = set := Option.some.inj (hset.symm.trans hs)
  have honly : ∀ x ∈ L, x = 1 := by
    intro x hx
    obtain ⟨hmem, hfresh⟩ := hL x hx
    have hcases : x = 1 ∨ x = 2 ∨ x = 3 := by simpa using hmem
    rcases hcases with rfl | rfl | rfl
    · rfl
    · -- signer 2 never approved this threshold
      obtain ⟨e, he, hcall, -⟩ := hfresh.exists_mem
      simp only [readmission, System.history_cons, System.history_nil, List.mem_cons,
        List.not_mem_nil, or_false] at he
      rcases he with rfl | rfl | rfl | rfl | rfl | rfl | rfl | rfl <;> cases hcall
    · -- signer 3 approved it before its latest admission, which is the step before
      rcases hfresh with ⟨-, hnow | ⟨hnot, -⟩⟩
      · obtain ⟨hcall, -⟩ := hnow
        cases hcall
      · refine absurd ⟨?_, ⟨[1, 2, 3], 2⟩, by decide, by decide⟩ hnot
        rintro ⟨set, hset, hmem⟩
        have hpre : (system.final (readmission.drop 1)).signerSet = some ⟨[1, 2], 2⟩ := by decide
        obtain rfl : ⟨[1, 2], 2⟩ = set := Option.some.inj (hpre.symm.trans hset)
        exact absurd hmem (by decide)
  have hsub : L ⊆ {1} := fun x hx ↦ Finset.mem_singleton.2 (honly x hx)
  have hle := Finset.card_le_card hsub
  rw [Finset.card_singleton] at hle
  have htwo : 2 ≤ L.card := hcard
  omega

end

end DenylistGate
