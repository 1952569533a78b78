import CompliancePrimitives.Contracts.AllowlistToken.Delegation

/-!
# `allowlist-token`: only the admin grants access

Access is granted by the admin, or by an approval that verifies under the key the admin has
registered. So while the then current admin does not authorize and no presented signature verifies,
access can only be lost, whoever may revoke it and whatever else is called: nobody gains an entry,
no stored expiration ledger changes, and neither do the delegated key, the officer and the pause
flag (`granting_contained`). In particular the answers of `is_allowed` go from `true` to `false`
only, as the calls and the ledgers go on.

The guard of the removals is a parameter, and nothing is assumed of it: whoever it lets remove
entries, nobody can be let in by removing. An acceptance is the other thing that may happen without
the admin, and then it is the proposed admin who authorizes; from there on the statement is about
the new one.
-/

namespace AllowlistToken

open Soroban

variable {Address : Type} [DecidableEq Address] {ext : Externals Address} {env : Env Address}
  {s s' : State Address} {call : Call Address}

/-- The current admin does not authorize the step. -/
def AdminWithholds (e : Moment Address) : Prop :=
  ∀ admin ∈ e.pre.admin, e.input.env.auths admin = false

instance (e : Moment Address) : Decidable (AdminWithholds e) :=
  inferInstanceAs (Decidable (∀ admin ∈ e.pre.admin, e.input.env.auths admin = false))

/-- What a call submits of delegated approvals. -/
def Call.submission : Call Address → Option (Submission Address)
  | .addToAllowlistDelegated admin address nonce expiry signature =>
    some { admin, address, nonce, expiry, signature }
  | _ => none

/-- No signature that the step presents verifies under the delegated key. -/
def NothingVerifies (ext : Externals Address) (e : Moment Address) : Prop :=
  ∀ sub ∈ e.input.call.submission, ∀ pubkey ∈ e.pre.delegatedAdminPubKey,
    ext.verifySig pubkey
      (delegatedActionMessage ext sub.address "add_to_allowlist" sub.nonce sub.expiry)
      sub.signature = false

instance (ext : Externals Address) (e : Moment Address) : Decidable (NothingVerifies ext e) :=
  inferInstanceAs (Decidable (∀ sub ∈ e.input.call.submission,
    ∀ pubkey ∈ e.pre.delegatedAdminPubKey,
      ext.verifySig pubkey
        (delegatedActionMessage ext sub.address "add_to_allowlist" sub.nonce sub.expiry)
        sub.signature = false))

/-- **Nothing is granted** from `s` to `s'`: an entry is lost or stays what it is, and nothing that
could grant one changes. -/
structure Contained (s s' : State Address) : Prop where
  /-- An entry is removed or stays, with its expiry. -/
  allowed : ∀ a, s'.allowed a = none ∨ s'.allowed a = s.allowed a
  /-- The key under which delegated additions verify is the same. -/
  delegatedAdminPubKey : s'.delegatedAdminPubKey = s.delegatedAdminPubKey
  /-- So is the officer, -/
  complianceOfficer : s'.complianceOfficer = s.complianceOfficer
  /-- and so is the pause flag. -/
  paused : s'.paused = s.paused

/-- The admin stays the same, or the proposed one accepts. -/
def AdminKeptOrAccepts (e : Moment Address) : Prop :=
  e.post.admin = e.pre.admin ∨
    ∃ newAdmin, e.input.call = .acceptAdmin newAdmin ∧ e.input.env.auths newAdmin = true ∧
      e.pre.pendingAdmin = some newAdmin ∧ e.post.admin = some newAdmin

namespace Contained

omit [DecidableEq Address] in
theorem refl (s : State Address) : Contained s s := ⟨fun _ ↦ .inr rfl, rfl, rfl, rfl⟩

omit [DecidableEq Address] in
theorem trans {s'' : State Address} (h : Contained s s') (h' : Contained s' s'') :
    Contained s s'' where
  allowed a := by
    rcases h'.allowed a with hnone | hsame
    · exact .inl hnone
    · rw [hsame]
      exact h.allowed a
  delegatedAdminPubKey := h'.delegatedAdminPubKey.trans h.delegatedAdminPubKey
  complianceOfficer := h'.complianceOfficer.trans h.complianceOfficer
  paused := h'.paused.trans h.paused

omit [DecidableEq Address] in
/-- What leaves the entries alone, and all else that matters here. -/
theorem of_eq (hallowed : s'.allowed = s.allowed)
    (hkey : s'.delegatedAdminPubKey = s.delegatedAdminPubKey)
    (hofficer : s'.complianceOfficer = s.complianceOfficer) (hpaused : s'.paused = s.paused) :
    Contained s s' :=
  ⟨fun a ↦ .inr (congrFun hallowed a), hkey, hofficer, hpaused⟩

theorem write_none (s : State Address) (addresses : List Address) :
    Contained s (s.write addresses none) := by
  refine ⟨fun a ↦ ?_, rfl, rfl, rfl⟩
  by_cases ha : a ∈ addresses <;> simp [State.write, ha]

omit [DecidableEq Address] in
/-- An address that is allowed at the end was allowed at the start, and in every ledger before. -/
theorem isAllowed_of_isAllowed (h : Contained s s') {a : Address} {t t' : ℕ} (ht : t ≤ t')
    (ha : isAllowed t' s' a = true) : isAllowed t s a = true := by
  rcases h.allowed a with hnone | hsame
  · rw [isAllowed, hnone] at ha
    cases ha
  · rw [isAllowed, hsame] at ha
    rw [isAllowed]
    rcases hentry : s.allowed a with _ | ⟨_ | exp⟩ <;> rw [hentry] at ha
    · exact ha
    · exact decide_eq_true (ht.trans (of_decide_eq_true ha))

end Contained

/-- **A call without the admin and without an approval** grants nothing, and hands the role over to
nobody but the proposed admin. -/
theorem RoleStep.contained {admin : Address} (h : RoleStep ext env call s s')
    (hadmin : s.admin = some admin) (hauth : env.auths admin = false)
    (hsigned : ∀ sub : Submission Address, call = sub.call → ¬sub.Presentable ext env s) :
    Contained s s' ∧ (s'.admin = s.admin ∨ ∃ newAdmin, call = .acceptAdmin newAdmin ∧
      env.auths newAdmin = true ∧ s.pendingAdmin = some newAdmin ∧ s'.admin = some newAdmin) := by
  have habsurd := Handover.not_authorized hadmin hauth
  cases h with
  -- without the admin, the role can only be accepted
  | handedOver hmoves hne _ _ hs' =>
    refine ⟨.of_eq (by rw [hs']) (by rw [hs']) (by rw [hs']) (by rw [hs']), ?_⟩
    rcases hmoves.of_unauthorized hadmin hauth with ⟨hother, -⟩ | ⟨x, hmove, hpending, hx, hroles⟩
    · exact absurd hother hne
    · have hcall : call = .acceptAdmin x := by
        cases call <;> cases hmove
        rfl
      exact .inr ⟨x, hcall, hx, hpending, congrArg Handover.Roles.holder hroles⟩
  | governed a ha hyes => exact (habsurd a ha hyes).elim
  | granted a _ _ ha hyes => exact (habsurd a ha hyes).elim
  -- no approval that is presented verifies
  | delegated sub hcall hpres => exact absurd hpres (hsigned sub hcall)
  -- entries are lost, and none is gained
  | revoked _ addresses _ _ _ _ hs' =>
    subst hs'
    exact ⟨.write_none s addresses, .inl rfl⟩
  | blocked _ _ _ _ _ hs' =>
    exact ⟨.of_eq (by rw [hs']) (by rw [hs']) (by rw [hs']) (by rw [hs']), .inl (by rw [hs'])⟩
  | forwarded _ _ _ _ _ hs' =>
    exact ⟨.of_eq (by rw [hs']) (by rw [hs']) (by rw [hs']) (by rw [hs']), .inl (by rw [hs'])⟩

/-- The same for a step of a run, completed or not. -/
theorem contained_of_withheld {i : Input Address} (hadmin : s.admin.isSome = true)
    (hwithheld : AdminWithholds ((system ext).stepFrom s i))
    (hsigned : NothingVerifies ext ((system ext).stepFrom s i)) :
    Contained s ((system ext).exec i s).2 ∧ AdminKeptOrAccepts ((system ext).stepFrom s i) := by
  obtain ⟨admin, hs⟩ := Option.isSome_iff_exists.1 hadmin
  have hpresentable : ∀ sub : Submission Address, i.call = sub.call →
      ¬sub.Presentable ext i.env s := by
    intro sub hcall hpres
    obtain ⟨pubkey, hkey, hverifies⟩ := hpres.signed
    have hno := hsigned sub (by rw [System.stepFrom_input, hcall]; rfl) pubkey hkey
    rw [hverifies] at hno
    cases hno
  rcases exec_roleStep ext i s with ⟨-, hstep⟩ | ⟨-, hpost⟩
  · exact hstep.contained hs (hwithheld admin hs) hpresentable
  · refine ⟨?_, .inl (congrArg State.admin hpost)⟩
    rw [hpost]
    exact .refl s

omit [DecidableEq Address] in
/-- An admin that stays or is replaced is there. -/
theorem AdminKeptOrAccepts.isSome_post {e : Moment Address} (h : AdminKeptOrAccepts e)
    (hadmin : e.pre.admin.isSome = true) : e.post.admin.isSome = true := by
  rcases h with hsame | ⟨_, -, -, -, hpost⟩
  · rwa [hsame]
  · rw [hpost]
    rfl

/-- **Only the admin grants access.** Over every stretch of a run that starts in an initialized
state, and in which the then current admin never authorizes and no presented signature verifies
under the delegated key, whoever has compliance authority. -/
theorem granting_contained (ext : Externals Address) (before during : List (Input Address))
    (hadmin : ((system ext).final before).admin.isSome = true)
    (hwithheld : ∀ e ∈ ((system ext).startingAt ((system ext).final before)).history during,
      AdminWithholds e)
    (hsigned : ∀ e ∈ ((system ext).startingAt ((system ext).final before)).history during,
      NothingVerifies ext e) :
    (∀ e ∈ ((system ext).startingAt ((system ext).final before)).history during,
        Contained e.pre e.post ∧ AdminKeptOrAccepts e) ∧
      Contained ((system ext).final before) ((system ext).final (during ++ before)) ∧
      ∀ a t t', t ≤ t' → isAllowed t' ((system ext).final (during ++ before)) a = true →
        isAllowed t ((system ext).final before) a = true := by
  obtain ⟨⟨-, hcontained⟩, hsteps⟩ := (system ext).stretch_induction
    (P := fun t ↦ t.admin.isSome = true ∧ Contained ((system ext).final before) t)
    (C := fun e ↦ AdminWithholds e ∧ NothingVerifies ext e) ⟨hadmin, .refl _⟩
    (fun t i ht hC ↦ by
      obtain ⟨hone, haccepts⟩ := contained_of_withheld ht.1 hC.1 hC.2
      exact ⟨haccepts.isSome_post ht.1, ht.2.trans hone⟩)
    (fun e he ↦ ⟨hwithheld e he, hsigned e he⟩)
  rw [System.final_append]
  refine ⟨fun e he ↦ ?_, hcontained, fun a t t' ht ↦ hcontained.isAllowed_of_isAllowed ht⟩
  have hsome := (hsteps e he).1
  have hno := hwithheld e he
  have hunsigned := hsigned e he
  rw [System.eq_stepFrom_of_mem_history _ he] at hno hunsigned ⊢
  exact contained_of_withheld hsome hno hunsigned

/-- A host on which everybody but account 0 authorizes. -/
def Env.withoutAdmin : Env ℕ where
  sequence := 2
  timestamp := 0
  auths := fun a ↦ decide (a ≠ 0)
  tokenAnswer := fun _ ↦ true

/-- Account 0 is the admin, account 7 is allowed through ledger 9, and account 3 is proposed. -/
def grantedSetup : List (Input ℕ) :=
  [⟨.granting, .proposeAdmin 0 3⟩, ⟨.granting, .addToAllowlist 0 7 (some 9)⟩,
    ⟨.granting, .initialise 0 5⟩]

/-- Without the admin: an addition and a delegated addition, both refused, and an acceptance. -/
def ungrantedCalls : List (Input ℕ) :=
  [⟨.withoutAdmin, .acceptAdmin 3⟩, ⟨.withoutAdmin, approval.call⟩,
    ⟨.withoutAdmin, .addToAllowlist 0 8 none⟩]

theorem granting_contained_ungrantedCalls :
    (∀ e ∈ ((system .verifying).startingAt ((system .verifying).final grantedSetup)).history
        ungrantedCalls, Contained e.pre e.post ∧ AdminKeptOrAccepts e) ∧
      Contained ((system .verifying).final grantedSetup)
        ((system .verifying).final (ungrantedCalls ++ grantedSetup)) ∧
      ∀ a t t', t ≤ t' →
        isAllowed t' ((system .verifying).final (ungrantedCalls ++ grantedSetup)) a = true →
        isAllowed t ((system .verifying).final grantedSetup) a = true :=
  granting_contained .verifying grantedSetup ungrantedCalls (by decide) (by decide) (by decide)

end AllowlistToken
