import CompliancePrimitives.Contracts.MultisigAdmin.Spec

/-!
# `multisig-admin`: who governs, and that someone always can

The governance of an instance is its signer list, its threshold and its pause flag. This module
says once what a completed call can do to it (`invoke_governance`), and reads the two results about
whole runs off that:

* every change to the governance of an initialized instance was authorized by a quorum of the
  signers **before** the change;
* the stored list and threshold always form a roster, so the full signer list always passes
  `__check_auth`: the contract cannot lock itself out.

The abstract reading is `governance_refines_committee`: an initialized instance stands for a
`Committee`, and every invocation leaves that committee alone or makes one of its moves with a
quorum of it behind the move.
-/

namespace MultisigAdmin

open Soroban

variable {Address : Type} [DecidableEq Address]
variable {env : Env Address} {s s' : State Address}

/-- What a completed call can do to the governance of an instance. -/
inductive GovernanceStep (env : Env Address) (s s' : State Address) : Prop
  /-- Signers, threshold and switch stay. -/
  | kept (hsigners : s'.signers = s.signers) (hthreshold : s'.threshold = s.threshold)
      (hpausable : s'.pausable = s.pausable)
  /-- `initialize`, once, with a proper roster. -/
  | founded (signers : List Address) (threshold : ℕ) (hnone : s.threshold = none)
      (roster : IsRoster signers threshold) (hsigners : s'.signers = some signers)
      (hthreshold : s'.threshold = some threshold)
  /-- `add_signer`, with the authority of a quorum: one more, who was not a signer. -/
  | enrolled (signers : List Address) (x : Address) (auth : SignersAuthorize env s)
      (hs : s.signers = some signers) (hnew : x ∉ signers)
      (hsigners : s'.signers = some (signers ++ [x])) (hthreshold : s'.threshold = s.threshold)
  /-- `remove_signer`, with that authority: one less, and still as many as the threshold. -/
  | expelled (signers : List Address) (threshold : ℕ) (x : Address)
      (auth : SignersAuthorize env s) (hs : s.signers = some signers)
      (ht : s.threshold = some threshold) (hspare : threshold ≤ (signers.erase x).length)
      (hsigners : s'.signers = some (signers.erase x)) (hthreshold : s'.threshold = s.threshold)
  /-- `update_threshold`, with that authority: within what the signers can reach. -/
  | retuned (signers : List Address) (n : ℕ) (auth : SignersAuthorize env s)
      (hs : s.signers = some signers) (hpos : 1 ≤ n) (hle : n ≤ signers.length)
      (hsigners : s'.signers = s.signers) (hthreshold : s'.threshold = some n)
  /-- `pause` and `unpause`, with that authority. -/
  | switched (auth : SignersAuthorize env s) (hsigners : s'.signers = s.signers)
      (hthreshold : s'.threshold = s.threshold)

/-- **Every completed call is one of these.** -/
theorem invoke_governance {call : Call Address} {v : Value}
    (h : invoke env call s = .ok (v, s')) : GovernanceStep env s s' := by
  cases call with
  -- the six that change the governance, and `upgrade`, which leaves it alone
  | initialise signers threshold =>
    obtain ⟨_, hop, rfl⟩ := Tx.bind_pure_eq_ok_iff.1 h
    obtain ⟨hnone, hroster, heq⟩ := initialise_ok hop
    exact .founded signers threshold hnone hroster (by rw [heq]) (by rw [heq])
  | pause =>
    obtain ⟨_, hop, rfl⟩ := Tx.bind_pure_eq_ok_iff.1 h
    obtain ⟨hauth, heq⟩ := pause_ok hop
    exact .switched hauth (by rw [heq]) (by rw [heq])
  | unpause =>
    obtain ⟨_, hop, rfl⟩ := Tx.bind_pure_eq_ok_iff.1 h
    obtain ⟨hauth, heq⟩ := unpause_ok hop
    exact .switched hauth (by rw [heq]) (by rw [heq])
  | upgrade newWasmHash =>
    obtain ⟨_, hop, rfl⟩ := Tx.bind_pure_eq_ok_iff.1 h
    have heq := upgrade_ok hop
    exact .kept (by rw [heq]) (by rw [heq]) (by rw [heq])
  | addSigner x =>
    obtain ⟨_, hop, rfl⟩ := Tx.bind_pure_eq_ok_iff.1 h
    obtain ⟨-, hauth, signers, hs, hnew, heq⟩ := addSigner_ok hop
    exact .enrolled signers x hauth hs hnew (by rw [heq]) (by rw [heq])
  | removeSigner x =>
    obtain ⟨_, hop, rfl⟩ := Tx.bind_pure_eq_ok_iff.1 h
    obtain ⟨-, hauth, signers, threshold, hs, ht, -, hspare, heq⟩ := removeSigner_ok hop
    exact .expelled signers threshold x hauth hs ht hspare (by rw [heq]) (by rw [heq])
  | updateThreshold n =>
    obtain ⟨_, hop, rfl⟩ := Tx.bind_pure_eq_ok_iff.1 h
    obtain ⟨-, hauth, signers, hs, hpos, hle, heq⟩ := updateThreshold_ok hop
    exact .retuned signers n hauth hs hpos hle (by rw [heq]) (by rw [heq])
  | propose payload expiryLedger =>
    obtain ⟨_, hop, rfl⟩ := Tx.bind_pure_eq_ok_iff.1 h
    obtain ⟨-, -, -, heq⟩ := propose_ok hop
    exact .kept (by rw [heq]) (by rw [heq]) (by rw [heq])
  | approve proposalId approver =>
    obtain ⟨_, hop, rfl⟩ := Tx.bind_pure_eq_ok_iff.1 h
    obtain ⟨-, -, _, _, _, -, -, -, -, -, -, -, heq⟩ := approve_ok hop
    exact .kept (by rw [heq]) (by rw [heq]) (by rw [heq])
  | execute proposalId =>
    obtain ⟨_, hop, rfl⟩ := Tx.bind_pure_eq_ok_iff.1 h
    obtain ⟨_, _, _, -, -, -, -, -, heq⟩ := execute_ok hop
    exact .kept (by rw [heq]) (by rw [heq]) (by rw [heq])
  | checkAuth signatures =>
    obtain ⟨_, hop, rfl⟩ := Tx.bind_pure_eq_ok_iff.1 h
    obtain ⟨_, _, -, rfl⟩ := checkAuth_eq_ok_iff.1 hop
    exact .kept rfl rfl rfl

/-- The same for a committed invocation, whether it completed or not. -/
theorem exec_governance (liveUntil : ℕ) (i : Input Address) (s : State Address) :
    GovernanceStep i.env s ((system liveUntil).exec i s).2 :=
  Tx.commit_induction (.kept rfl rfl rfl) fun _ _ h ↦ invoke_governance h

/-! ### The roster invariant -/

/-- The two slots are written together, and what they hold is a roster. -/
def WellFormed (s : State Address) : Prop :=
  (s.signers = none ∧ s.threshold = none) ∨
    ∃ signers threshold, s.signers = some signers ∧ s.threshold = some threshold ∧
      IsRoster signers threshold

omit [DecidableEq Address] in
theorem WellFormed.roster {threshold : ℕ} (h : WellFormed s) (ht : s.threshold = some threshold) :
    ∃ signers, s.signers = some signers ∧ IsRoster signers threshold := by
  rcases h with ⟨-, hnone⟩ | ⟨signers, t, hs, ht', hroster⟩
  · simp [hnone] at ht
  · obtain rfl : t = threshold := by simpa [ht'] using ht
    exact ⟨signers, hs, hroster⟩

omit [DecidableEq Address] in
theorem WellFormed.roster_of_signers {signers : List Address} (h : WellFormed s)
    (hs : s.signers = some signers) :
    ∃ threshold, s.threshold = some threshold ∧ IsRoster signers threshold := by
  rcases h with ⟨hnone, -⟩ | ⟨l, threshold, hs', ht, hroster⟩
  · simp [hnone] at hs
  · obtain rfl : l = signers := by simpa [hs'] using hs
    exact ⟨threshold, ht, hroster⟩

/-- **Every call keeps the roster.** -/
theorem GovernanceStep.wellFormed (h : GovernanceStep env s s') (hs : WellFormed s) :
    WellFormed s' := by
  cases h with
  | kept hsigners hthreshold =>
    rw [WellFormed, hsigners, hthreshold]
    exact hs
  | founded signers threshold _ roster hsigners hthreshold =>
    exact .inr ⟨signers, threshold, hsigners, hthreshold, roster⟩
  | enrolled signers x _ hsig hnew hsigners hthreshold =>
    obtain ⟨threshold, ht, hroster⟩ := hs.roster_of_signers hsig
    exact .inr ⟨_, threshold, hsigners, hthreshold.trans ht, hroster.append hnew⟩
  | expelled signers threshold x _ hsig ht hspare hsigners hthreshold =>
    -- the guard compares with the threshold slot, the roster comes from the signer slot
    obtain ⟨t, ht', hroster⟩ := hs.roster_of_signers hsig
    obtain rfl : t = threshold := by simpa [ht'] using ht
    exact .inr ⟨_, t, hsigners, hthreshold.trans ht, hroster.erase hspare⟩
  | retuned signers n _ hsig hpos hle hsigners hthreshold =>
    obtain ⟨t, -, hroster⟩ := hs.roster_of_signers hsig
    exact .inr ⟨signers, n, hsigners.trans hsig, hthreshold, hroster.retune hpos hle⟩
  | switched _ hsigners hthreshold =>
    rw [WellFormed, hsigners, hthreshold]
    exact hs

theorem wellFormed_final (liveUntil : ℕ) (inputs : List (Input Address)) :
    WellFormed ((system liveUntil).final inputs) :=
  System.final_induction _ (.inl ⟨rfl, rfl⟩)
    (fun s i hs ↦ (exec_governance liveUntil i s).wellFormed hs) inputs

/-- A roster passes its own `__check_auth` once every signer authorizes. -/
theorem checkAuth_full_roster {signers : List Address} {threshold : ℕ}
    (hs : s.signers = some signers) (ht : s.threshold = some threshold)
    (hroster : IsRoster signers threshold) (hauth : ∀ a ∈ signers, env.auths a = true) :
    ∃ s', checkAuth env signers s = .ok ((), s') :=
  ⟨_, checkAuth_eq_ok_iff.2 ⟨signers, threshold,
    ⟨hs, ht, hroster.nodup, hauth, hroster.countP_self⟩, rfl⟩⟩

/-- **No lock-out.** In every reachable initialized state the signer list has no repetition, the
threshold lies between one and its length, and the full list passes `__check_auth`. -/
theorem no_lockout (liveUntil : ℕ) (inputs : List (Input Address)) (threshold : ℕ)
    (hinit : ((system liveUntil).final inputs).threshold = some threshold) :
    ∃ signers, ((system liveUntil).final inputs).signers = some signers ∧
      signers.Nodup ∧ 1 ≤ threshold ∧ threshold ≤ signers.length ∧
      ∀ env : Env Address, (∀ a ∈ signers, env.auths a = true) →
        ∃ s', checkAuth env signers ((system liveUntil).final inputs) = .ok ((), s') := by
  obtain ⟨signers, hs, hroster⟩ := (wellFormed_final liveUntil inputs).roster hinit
  exact ⟨signers, hs, hroster.nodup, hroster.one_le, hroster.le_length,
    fun env hauth ↦ checkAuth_full_roster hs hinit hroster hauth⟩

/-- A host which grants every authorization it is asked for, passing on `signatures` as the
contract's own. -/
def Env.granting (signatures : List Address) : Env Address where
  sequence := 1
  timestamp := 0
  auths := fun _ ↦ true
  selfEntry := some signatures

/-- Three signers, two of whom remove the third. -/
theorem no_lockout_two_of_two :
    ∃ signers, ((system 0).final [⟨.granting [1, 2], .removeSigner 3⟩,
        ⟨.granting [], .initialise [1, 2, 3] 2⟩]).signers = some signers ∧
      signers.Nodup ∧ 1 ≤ 2 ∧ 2 ≤ signers.length ∧
      ∀ env : Env ℕ, (∀ a ∈ signers, env.auths a = true) →
        ∃ s', checkAuth env signers ((system 0).final [⟨.granting [1, 2], .removeSigner 3⟩,
          ⟨.granting [], .initialise [1, 2, 3] 2⟩]) = .ok ((), s') :=
  no_lockout 0 _ 2 (by decide)

/-! ### The quorum behind every change -/

/-- The signer list, the threshold and the pause flag. -/
def governance (s : State Address) : Option (List Address) × Option ℕ × Bool :=
  (s.signers, s.threshold, isPaused s)

/-- A change to the governance of an initialized instance had a quorum of its signers. -/
theorem GovernanceStep.signersAuthorize (h : GovernanceStep env s s') {threshold : ℕ}
    (hinit : s.threshold = some threshold) (hchange : governance s' ≠ governance s) :
    SignersAuthorize env s := by
  cases h with
  | kept hsigners hthreshold hpausable =>
    refine absurd ?_ hchange
    rw [governance, governance, isPaused, isPaused, hsigners, hthreshold, hpausable]
  | founded _ _ hnone => simp [hnone] at hinit
  | enrolled _ _ auth => exact auth
  | expelled _ _ _ auth => exact auth
  | retuned _ _ auth => exact auth
  | switched auth => exact auth

omit [DecidableEq Address] in
private theorem governance_congr (hsigners : s'.signers = s.signers)
    (hthreshold : s'.threshold = s.threshold) (hpausable : s'.pausable = s.pausable) :
    governance s' = governance s := by
  rw [governance, governance, isPaused, isPaused, hsigners, hthreshold, hpausable]

/-- The proposal workflow keeps the governance, in any state. -/
theorem keeps_governance_of_isProposalCall {call : Call Address} (hcall : call.IsProposalCall) :
    Tx.Keeps governance (invoke env call) := by
  intro s v s' h
  cases call with
  | propose payload expiryLedger =>
    obtain ⟨_, hop, rfl⟩ := Tx.bind_pure_eq_ok_iff.1 h
    obtain ⟨-, -, -, heq⟩ := propose_ok hop
    exact governance_congr (by rw [heq]) (by rw [heq]) (by rw [heq])
  | approve proposalId approver =>
    obtain ⟨_, hop, rfl⟩ := Tx.bind_pure_eq_ok_iff.1 h
    obtain ⟨-, -, _, _, _, -, -, -, -, -, -, -, heq⟩ := approve_ok hop
    exact governance_congr (by rw [heq]) (by rw [heq]) (by rw [heq])
  | execute proposalId =>
    obtain ⟨_, hop, rfl⟩ := Tx.bind_pure_eq_ok_iff.1 h
    obtain ⟨_, _, _, -, -, -, -, -, heq⟩ := execute_ok hop
    exact governance_congr (by rw [heq]) (by rw [heq]) (by rw [heq])
  | _ => exact hcall.elim

/-- **Governance quorum.** In every run, a step that changes the governance of an initialized
instance is authorized by at least `threshold` distinct signers of the state before it, and the
proposal workflow never changes the governance at all. -/
theorem governance_quorum (liveUntil : ℕ) (inputs : List (Input Address)) (i : Input Address) :
    (∀ threshold, ((system liveUntil).final inputs).threshold = some threshold →
      governance ((system liveUntil).final (i :: inputs)) ≠
        governance ((system liveUntil).final inputs) →
      ∃ signers, ((system liveUntil).final inputs).signers = some signers ∧
        Quorum threshold signers fun a ↦ i.env.auths a = true) ∧
    (i.call.IsProposalCall →
      governance ((system liveUntil).final (i :: inputs)) =
        governance ((system liveUntil).final inputs)) := by
  refine ⟨fun threshold hinit hchange ↦ ?_, fun hcall ↦ ?_⟩
  · obtain ⟨signers, t, hs, ht, hquorum⟩ :=
      (exec_governance liveUntil i _).signersAuthorize hinit hchange
    obtain rfl : t = threshold := by simpa [ht] using hinit
    exact ⟨signers, hs, hquorum⟩
  · exact (keeps_governance_of_isProposalCall hcall).commit _

/-- **The committee behind an instance.** An invocation of an initialized instance leaves the
committee of its roster alone, or makes one of the committee's moves with a quorum behind it. -/
theorem governance_refines_committee (liveUntil : ℕ) (inputs : List (Input Address))
    (i : Input Address) {signers : List Address} {threshold : ℕ}
    (hs : ((system liveUntil).final inputs).signers = some signers)
    (ht : ((system liveUntil).final inputs).threshold = some threshold)
    (hroster : IsRoster signers threshold) :
    ∃ signers' threshold', ∃ hroster' : IsRoster signers' threshold',
      ((system liveUntil).final (i :: inputs)).signers = some signers' ∧
        ((system liveUntil).final (i :: inputs)).threshold = some threshold' ∧
        (hroster'.toCommittee = hroster.toCommittee ∨
          Committee.Moves hroster.toCommittee hroster'.toCommittee ∧
            Quorum threshold signers fun a ↦ i.env.auths a = true) := by
  have hquorum : SignersAuthorize i.env ((system liveUntil).final inputs) →
      Quorum threshold signers fun a ↦ i.env.auths a = true := by
    rintro ⟨l, t, hs', ht', hq⟩
    obtain rfl : l = signers := by simpa [hs'] using hs
    obtain rfl : t = threshold := by simpa [ht'] using ht
    exact hq
  cases exec_governance liveUntil i ((system liveUntil).final inputs) with
  | kept hsigners hthreshold =>
    exact ⟨signers, threshold, hroster, hsigners.trans hs, hthreshold.trans ht, .inl rfl⟩
  | founded _ _ hnone => simp [hnone] at ht
  -- each change of the roster is one move of the committee, with its quorum
  | enrolled l x auth hl hnew hsigners hthreshold =>
    obtain rfl : l = signers := by simpa [hl] using hs
    exact ⟨_, threshold, hroster.append hnew, hsigners, hthreshold.trans ht,
      .inr ⟨hroster.moves_append hnew, hquorum auth⟩⟩
  | expelled l t x auth hl ht' hspare hsigners hthreshold =>
    obtain rfl : l = signers := by simpa [hl] using hs
    obtain rfl : t = threshold := by simpa [ht'] using ht
    exact ⟨_, t, hroster.erase hspare, hsigners, hthreshold.trans ht,
      .inr ⟨hroster.moves_erase hspare, hquorum auth⟩⟩
  | retuned l n auth hl hpos hle hsigners hthreshold =>
    obtain rfl : l = signers := by simpa [hl] using hs
    exact ⟨l, n, hroster.retune hpos hle, hsigners.trans hs, hthreshold,
      .inr ⟨hroster.moves_retune hpos hle, hquorum auth⟩⟩
  | switched _ hsigners hthreshold =>
    exact ⟨signers, threshold, hroster, hsigners.trans hs, hthreshold.trans ht, .inl rfl⟩

end MultisigAdmin
