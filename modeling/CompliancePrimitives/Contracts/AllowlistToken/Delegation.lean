import CompliancePrimitives.Contracts.AllowlistToken.Roles

/-!
# `allowlist-token`: the replay protection of delegated additions

`add_to_allowlist_delegated` compares the nonce of a submission with the last accepted one of its
admin, and is documented and tested to reject a replay. But the accepted nonce is never stored: no
entry point writes `DelegatedNonce` (`delegatedNonce_final`), so the comparison is with zero for
ever, and a submission that was accepted once is accepted again for as long as it is presentable.

`replayFree_iff_neverStale` says exactly when a run is free of replays all the same: when nothing
that would get past the other checks is ever submitted twice or out of order. The burden the nonce
was to carry lies entirely with those who submit.

A submission is stale if one that was presentable came before it for the same admin, with a nonce at
least as large. That is a condition on what is submitted and on the state before it, and it says
nothing of whether the contract takes the submission: what it does with a stale one is the defect.
-/

namespace AllowlistToken

open Soroban

variable {Address : Type}

/-! ### The property -/

/-- What is signed of a submission. -/
def Submission.payload (sub : Submission Address) : Address × ℕ × ℕ :=
  (sub.address, sub.nonce, sub.expiry)

/-- The step submitted `sub`, and the contract accepted it. -/
def Accepts (sub : Submission Address) (e : Moment Address) : Prop :=
  e.input.call = sub.call ∧ ∃ v, e.result = .ok v

/-- The step took `address` off the allowlist. -/
def Removes (address : Address) (e : Moment Address) : Prop :=
  (∃ v, e.result = .ok v) ∧
    ((∃ admin, e.input.call = .removeFromAllowlist admin address) ∨
      ∃ admin addresses, e.input.call = .removeMultipleFromAllowlist admin addresses ∧
        address ∈ addresses)

/-- **No replay.** A signed payload is accepted at most once; the nonces accepted for one admin
strictly increase; and no address is put back, after its removal, by a payload accepted before. -/
structure ReplayFree (h : List (Moment Address)) : Prop where
  /-- A payload is accepted at most once, whichever signature it comes with. -/
  once : ∀ payload, AtMostOnce (fun e ↦ ∃ sub, Accepts sub e ∧ sub.payload = payload) h
  /-- Of two acceptances for one admin, the later has the larger nonce. -/
  increasing : h.Pairwise fun later earlier ↦ ∀ sub old, Accepts sub later → Accepts old earlier →
    sub.admin = old.admin → old.nonce < sub.nonce
  /-- Between two acceptances of one payload, its address has not been removed. -/
  not_restored : ∀ late e mid e' early sub old, h = late ++ e :: (mid ++ e' :: early) →
    Accepts sub e → Accepts old e' → sub.payload = old.payload → ¬∃ r ∈ mid, Removes sub.address r

/-- Both halves in the form of one comparison of an acceptance with every earlier one. -/
theorem replayFree_iff_pairwise {h : List (Moment Address)} :
    ReplayFree h ↔ h.Pairwise fun later earlier ↦ ∀ sub old, Accepts sub later →
      Accepts old earlier →
      sub.payload ≠ old.payload ∧ (sub.admin = old.admin → old.nonce < sub.nonce) := by
  constructor
  · intro hfree
    have honce : h.Pairwise fun later earlier ↦ ∀ sub old, Accepts sub later →
        Accepts old earlier → sub.payload ≠ old.payload := by
      refine List.pairwise_iff_forall_sublist.2 fun {later earlier} hsub ↦ ?_
      intro sub old hlater hearlier hpayload
      have hpair := List.pairwise_iff_forall_sublist.1
        (atMostOnce_iff_pairwise.1 (hfree.once old.payload)) hsub
      exact hpair ⟨sub, hlater, hpayload⟩ ⟨old, hearlier, rfl⟩
    refine (honce.and hfree.increasing).imp ?_
    rintro later earlier ⟨hpayload, hnonce⟩ sub old hlater hearlier
    exact ⟨hpayload sub old hlater hearlier, hnonce sub old hlater hearlier⟩
  · intro hpair
    refine ⟨fun payload ↦ atMostOnce_iff_pairwise.2 (hpair.imp ?_), hpair.imp ?_, ?_⟩
    · rintro later earlier hne ⟨sub, hlater, rfl⟩ ⟨old, hearlier, hpayload⟩
      exact (hne sub old hlater hearlier).1 hpayload.symm
    · exact fun hne sub old hlater hearlier ↦ (hne sub old hlater hearlier).2
    -- a payload that comes back at all is already excluded, with or without a removal between
    · rintro late e mid e' early sub old rfl hlater hearlier hpayload -
      have htail := (List.pairwise_append.1 hpair).2.1
      exact ((List.pairwise_cons.1 htail).1 e' (by simp) sub old hlater hearlier).1 hpayload

/-! ### The nonce that is never stored -/

variable [DecidableEq Address] (ext : Externals Address)

/-- **No entry point writes a nonce.** -/
theorem keeps_delegatedNonce (env : Env Address) (call : Call Address) :
    Tx.Keeps State.delegatedNonce (invoke ext env call) := by
  intro s v s' h
  cases invoke_roleStep h with
  | handedOver _ _ _ _ hs' => rw [hs']
  | governed _ _ _ _ _ _ _ hs' => rw [hs']
  | granted _ _ _ _ _ _ _ _ hs' => rw [hs']; rfl
  | delegated _ _ _ hs' => rw [hs']; rfl
  | revoked _ _ _ _ _ _ hs' => rw [hs']; rfl
  | blocked _ _ _ _ _ hs' => rw [hs']
  | forwarded _ _ _ _ _ hs' => rw [hs']

theorem delegatedNonce_final (inputs : List (Input Address)) (admin : Address) :
    getDelegatedNonce ((system ext).final inputs) admin = 0 := by
  have hnone : ((system ext).final inputs).delegatedNonce = fun _ ↦ none :=
    System.final_induction (P := fun s ↦ s.delegatedNonce = fun _ ↦ none) _ rfl
      (fun s i hs ↦ ((keeps_delegatedNonce ext i.env i.call).commit s).trans hs)
      inputs
  rw [getDelegatedNonce, hnone]
  rfl

/-! ### Exactly when a run is free of replays -/

/-- The step submitted `sub`, and no check but the comparison of nonces could stop it. -/
def Presents (ext : Externals Address) (sub : Submission Address) (e : Moment Address) : Prop :=
  e.input.call = sub.call ∧ sub.Presentable ext e.input.env e.pre ∧ 0 < sub.nonce

/-- `sub` is out of date once `old` was there: it signs the same payload, or its nonce is not above
that of `old` under the same admin. -/
def Submission.Stale (sub old : Submission Address) : Prop :=
  sub.payload = old.payload ∨ (sub.admin = old.admin ∧ sub.nonce ≤ old.nonce)

/-- Nothing is presented that is stale against something presented before. -/
def NeverStale (ext : Externals Address) (h : List (Moment Address)) : Prop :=
  h.Pairwise fun later earlier ↦ ∀ sub old, Presents ext sub later → Presents ext old earlier →
    ¬sub.Stale old

variable {ext}

/-- In a run, being presentable with a positive nonce is being accepted. -/
theorem accepts_iff_presents {inputs : List (Input Address)} {e : Moment Address}
    (he : e ∈ (system ext).history inputs) (sub : Submission Address) :
    Accepts sub e ↔ Presents ext sub e := by
  obtain ⟨is, hstep, -⟩ := System.exists_of_mem_history _ he
  have hpre : e.pre = (system ext).final is := congrArg Step.pre hstep
  have hresult : e.result =
      ((invoke ext e.input.env e.input.call).commit ((system ext).final is)).1 :=
    congrArg Step.result hstep
  have hnonce := delegatedNonce_final ext is sub.admin
  constructor
  · rintro ⟨hcall, v, hok⟩
    have hrun := Tx.ok_of_commit_fst (hresult.symm.trans hok)
    rw [hcall] at hrun
    obtain ⟨_, hop, -⟩ := Tx.bind_pure_eq_ok_iff.1 hrun
    obtain ⟨hpres, hlt, -⟩ := addToAllowlistDelegated_eq_ok_iff.1 hop
    -- no nonce was ever stored, so the check was against zero
    rw [hnonce] at hlt
    exact ⟨hcall, hpre ▸ hpres, hlt⟩
  · rintro ⟨hcall, hpres, hpos⟩
    have hop := (addToAllowlistDelegated_eq_ok_iff (u := ())).2
      ⟨hpre ▸ hpres, hnonce.symm ▸ hpos, rfl⟩
    have hrun : invoke ext e.input.env sub.call ((system ext).final is) = .ok (.unit, _) :=
      Tx.bind_pure_eq_ok_iff.2 ⟨(), hop, rfl⟩
    refine ⟨hcall, .unit, ?_⟩
    rw [hresult, hcall, Tx.commit_of_ok hrun]

/-- **Exactly when the contract is free of replays**: in the runs in which nothing stale is ever
presented to it. -/
theorem replayFree_iff_neverStale (ext : Externals Address) (inputs : List (Input Address)) :
    ReplayFree ((system ext).history inputs) ↔ NeverStale ext ((system ext).history inputs) := by
  rw [replayFree_iff_pairwise, NeverStale]
  refine List.Pairwise.iff_of_mem fun {later earlier} hlater hearlier ↦ ?_
  simp only [accepts_iff_presents hlater, accepts_iff_presents hearlier, Submission.Stale, not_or,
    not_and, not_le, ne_eq]

/-- Externals in which every presented signature verifies, and the admin alone may remove. -/
def Externals.verifying : Externals ℕ where
  addressString := toString
  verifySig := fun _ _ _ ↦ true
  complianceAuthority := fun s auths caller ↦ auths caller && decide (s.admin = some caller)
  lookupEnding := fun allowed ↦ allowed

/-- A host which grants every authorization it is asked for. -/
def Env.granting : Env ℕ where
  sequence := 1
  timestamp := 0
  auths := fun _ ↦ true
  tokenAnswer := fun _ ↦ true

/-- One signed approval of address 7, with nonce 1 and expiry 100. -/
def approval : Submission ℕ :=
  { admin := 0, address := 7, nonce := 1, expiry := 100, signature := Vector.replicate 64 0 }

/-- The approval is accepted, the admin removes address 7, and a relayer submits it again. -/
def resubmission : List (Input ℕ) :=
  [⟨.granting, approval.call⟩, ⟨.granting, .removeFromAllowlist 0 7⟩, ⟨.granting, approval.call⟩,
    ⟨.granting, .setDelegatedAdminKey 0 (Vector.replicate 32 0)⟩, ⟨.granting, .initialise 0 5⟩]

/-- **The replay.** The same approval is accepted twice, and the second time puts back an address
that was removed in between. -/
theorem resubmission_not_replayFree :
    isAllowed 1 ((system .verifying).final resubmission) 7 = true ∧
      ¬ReplayFree ((system .verifying).history resubmission) := by
  refine ⟨by decide, fun hfree ↦ ?_⟩
  obtain ⟨hnew, -⟩ := hfree.once (7, 1, 100)
  refine hnew ⟨approval, ⟨rfl, .unit, by decide⟩, rfl⟩
    ((system .verifying).stepFrom ((system .verifying).final (resubmission.drop 3))
      ⟨.granting, approval.call⟩) ?_ ⟨approval, ⟨rfl, .unit, by decide⟩, rfl⟩
  exact List.mem_cons_of_mem _ List.mem_cons_self

end AllowlistToken
