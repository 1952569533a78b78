import CompliancePrimitives.Contracts.AllowlistToken.Delegation

/-!
# `allowlist-token`: which transfers are forwarded

A transfer is to be forwarded when both parties are allowed, and otherwise to be answered `false`
with a `Blocked` event. But `transfer` does not ask `is_allowed`. Its own lookup reads the stored
entry as a `bool`, so it traps for every address that has an entry, expired or not, and is `false`
for all others.

`transferDecides_iff` says exactly which transfers come out as they should: those that are stopped
before the lookup or after it would have been, and those between two addresses without an entry, if
the lost ending of the lookup does not allow these.

So the contract's purpose, forwarding a transfer between two allowed parties, is met by no transfer
at all (`transfer_between_allowed`), and what comes out right are refusals. That is proved for every
state and every pair of parties, and does not depend on what the lost ending may have been.
-/

namespace AllowlistToken

open Soroban

variable {Address : Type}

/-- A transfer that may go on to the parties: the contract is not paused, the amount is not
negative, and the source authorizes. -/
structure Admitted (env : Env Address) (s : State Address) (source : Address) (amount : ℤ) :
    Prop where
  /-- The contract is not paused. -/
  not_paused : isPaused s = false
  /-- The amount is not negative. -/
  nonneg : 0 ≤ amount
  /-- The source has authorized the transfer. -/
  authorized : env.auths source = true

/-- Both parties are allowed, in the current ledger. -/
def BothAllowed (env : Env Address) (s : State Address) (source target : Address) : Prop :=
  isAllowed env.sequence s source = true ∧ isAllowed env.sequence s target = true

variable [DecidableEq Address]

/-- **A transfer is decided as it should be.** It is forwarded, once, and answered `true` exactly if
it is admitted, both parties are allowed and the token takes it; nothing is forwarded otherwise; and
if only a party is not allowed, the answer is `false` with one `Blocked` event. -/
structure TransferDecides (ext : Externals Address) (env : Env Address) (s : State Address)
    (call : TransferCall Address) : Prop where
  /-- It is answered `true`, with the one call forwarded, exactly if nothing stands against it. -/
  forwards : (((system ext).exec ⟨env, .transfer call.source call.target call.amount⟩ s).1 =
        .ok (.flag true) ∧
      ((system ext).exec ⟨env, .transfer call.source call.target call.amount⟩ s).2.transfers =
        s.transfers ++ [call]) ↔
    Admitted env s call.source call.amount ∧ BothAllowed env s call.source call.target ∧
      env.tokenAnswer call = true
  /-- In all other cases the token is not called. -/
  not_called : ¬(Admitted env s call.source call.amount ∧
      BothAllowed env s call.source call.target ∧ env.tokenAnswer call = true) →
    ((system ext).exec ⟨env, .transfer call.source call.target call.amount⟩ s).2.transfers =
      s.transfers
  /-- A party that is not allowed is the answer `false` and one event, not an error. -/
  blocks : Admitted env s call.source call.amount → ¬BothAllowed env s call.source call.target →
    ((system ext).exec ⟨env, .transfer call.source call.target call.amount⟩ s).1 =
        .ok (.flag false) ∧
      ((system ext).exec ⟨env, .transfer call.source call.target call.amount⟩ s).2.events =
        s.events ++ [.blocked call.source call.target call.amount]

/-- The transfers that do not depend on the lookup of an entry: what is not admitted, what the token
would refuse, and what is between two addresses without an entry. -/
def Unaffected (ext : Externals Address) (env : Env Address) (s : State Address)
    (call : TransferCall Address) : Prop :=
  ¬Admitted env s call.source call.amount ∨
    (BothAllowed env s call.source call.target ∧ env.tokenAnswer call = false) ∨
    (s.allowed call.source = none ∧ s.allowed call.target = none ∧ ext.lookupEnding false = false)

variable {ext : Externals Address} {env : Env Address} {s : State Address}
  {call : TransferCall Address}

/-- An initialized contract has a token. -/
theorem isSome_token_final (ext : Externals Address) (inputs : List (Input Address)) :
    ((system ext).final inputs).admin.isSome = true →
      ((system ext).final inputs).token.isSome = true := by
  refine (system ext).final_induction (P := fun s ↦ s.admin.isSome = true → s.token.isSome = true)
    (fun h ↦ by cases h) (fun s i hs ↦ ?_) inputs
  rcases exec_roleStep ext i s with ⟨-, hstep⟩ | ⟨-, hpost⟩
  · cases hstep with
    | handedOver _ _ htoken =>
      rcases htoken with hsome | ⟨hadmin, hsame⟩
      · exact fun _ ↦ hsome
      · exact fun _ ↦ hsame ▸ hs hadmin
    | governed _ _ _ _ _ _ _ hs' => rw [hs']; exact hs
    | granted _ _ _ _ _ _ _ _ hs' => rw [hs']; exact hs
    | delegated _ _ _ hs' => rw [hs']; exact hs
    | revoked _ _ _ _ _ _ hs' => rw [hs']; exact hs
    | blocked _ _ _ _ _ hs' => rw [hs']; exact hs
    | forwarded _ _ _ _ _ hs' => rw [hs']; exact hs
  · rwa [hpost]

/-- A transfer that completes was admitted, and neither party has an entry. -/
theorem exec_transfer_eq_ok {b : Bool}
    (h : ((system ext).exec ⟨env, .transfer call.source call.target call.amount⟩ s).1 =
      .ok (.flag b)) :
    Admitted env s call.source call.amount ∧ s.allowed call.source = none ∧
      s.allowed call.target = none ∧ b = ext.lookupEnding false := by
  have hinvoke := Tx.ok_of_commit_fst h
  obtain ⟨b', hrun, hb⟩ := Tx.bind_pure_eq_ok_iff.1 hinvoke
  cases hb
  obtain ⟨hnonneg, hpaused, hauth, hsource, htarget, ⟨hending, rfl, -⟩ | ⟨hending, rfl, -⟩⟩ :=
    transfer_eq_ok_iff.1 hrun
  · exact ⟨⟨hpaused, hnonneg, hauth⟩, hsource, htarget, hending.symm⟩
  · exact ⟨⟨hpaused, hnonneg, hauth⟩, hsource, htarget, hending.symm⟩

omit [DecidableEq Address] in
theorem not_isAllowed_of_none {sequence : ℕ} {a : Address} (h : s.allowed a = none) :
    ¬isAllowed sequence s a = true := by
  rw [isAllowed, h]
  exact Bool.false_ne_true

/-- A transfer that does not complete is decided as it should be, if it was not to be forwarded and
not to be blocked. -/
theorem transferDecides_of_not_ok
    (hno : ∀ v s', invoke ext env (.transfer call.source call.target call.amount) s ≠ .ok (v, s'))
    (hforward : ¬(Admitted env s call.source call.amount ∧
      BothAllowed env s call.source call.target ∧ env.tokenAnswer call = true))
    (hblock : Admitted env s call.source call.amount → BothAllowed env s call.source call.target) :
    TransferDecides ext env s call := by
  rcases Tx.commit_cases (invoke ext env (.transfer call.source call.target call.amount)) s with
    ⟨v, s', hok, -⟩ | ⟨f, -, hcommit⟩
  · exact absurd hok (hno v s')
  · have hresult : ((system ext).exec ⟨env, .transfer call.source call.target call.amount⟩ s).1 =
        .error f := congrArg Prod.fst hcommit
    have hpost : ((system ext).exec ⟨env, .transfer call.source call.target call.amount⟩ s).2 =
        s := congrArg Prod.snd hcommit
    refine ⟨⟨fun h ↦ ?_, fun h ↦ absurd h hforward⟩, fun _ ↦ by rw [hpost],
      fun hadm hboth ↦ absurd (hblock hadm) hboth⟩
    rw [hresult] at h
    cases h.1

/-- Between two addresses without an entry, the lookup may come out as it should. -/
theorem transferDecides_of_none (hadm : Admitted env s call.source call.amount)
    (hsource : s.allowed call.source = none) (htarget : s.allowed call.target = none)
    (hending : ext.lookupEnding false = false) : TransferDecides ext env s call := by
  have hrun : invoke ext env (.transfer call.source call.target call.amount) s =
      .ok (.flag false, { s with
        events := s.events ++ [.blocked call.source call.target call.amount] }) :=
    Tx.bind_pure_eq_ok_iff.2 ⟨false, transfer_eq_ok_iff.2 ⟨hadm.nonneg, hadm.not_paused,
      hadm.authorized, hsource, htarget, .inl ⟨hending, rfl, rfl⟩⟩, rfl⟩
  have hexec : (system ext).exec ⟨env, .transfer call.source call.target call.amount⟩ s =
      (.ok (.flag false), { s with
        events := s.events ++ [.blocked call.source call.target call.amount] }) :=
    Tx.commit_of_ok hrun
  refine ⟨⟨fun h ↦ ?_, fun h ↦ ?_⟩, fun _ ↦ by rw [hexec], fun _ _ ↦ ?_⟩
  · rw [hexec] at h
    cases h.1
  · exact absurd h.2.1.1 (not_isAllowed_of_none hsource)
  · rw [hexec]
    exact ⟨rfl, rfl⟩

/-- **Exactly when a transfer is decided as it should be**, after every run that has initialized the
contract. -/
theorem transferDecides_iff (ext : Externals Address) (inputs : List (Input Address))
    (env : Env Address) (source target : Address) (amount : ℤ)
    (hadmin : ((system ext).final inputs).admin.isSome = true) :
    ∃ token, ((system ext).final inputs).token = some token ∧
      (TransferDecides ext env ((system ext).final inputs) { token, source, target, amount } ↔
        Unaffected ext env ((system ext).final inputs) { token, source, target, amount }) := by
  obtain ⟨token, htoken⟩ := Option.isSome_iff_exists.1 (isSome_token_final ext inputs hadmin)
  refine ⟨token, htoken, ?_⟩
  generalize (system ext).final inputs = s
  set call : TransferCall Address := { token, source, target, amount }
  constructor
  · intro hdecides
    by_cases hadm : Admitted env s source amount
    · refine .inr ?_
      by_cases hboth : BothAllowed env s source target
      · refine .inl ⟨hboth, ?_⟩
        -- forwarded would mean that the lookup of the source has completed
        by_contra hanswer
        have hforward := hdecides.forwards.2 ⟨hadm, hboth, by simpa using hanswer⟩
        exact not_isAllowed_of_none (exec_transfer_eq_ok hforward.1).2.1 hboth.1
      · have hblocked := (hdecides.blocks hadm hboth).1
        obtain ⟨-, hsource, htarget, hending⟩ := exec_transfer_eq_ok hblocked
        exact .inr ⟨hsource, htarget, hending.symm⟩
    · exact .inl hadm
  · intro hunaffected
    by_cases hadm : Admitted env s source amount
    · rcases hunaffected with hno | ⟨hboth, hanswer⟩ | ⟨hsource, htarget, hending⟩
      · exact absurd hadm hno
      · refine transferDecides_of_not_ok (fun v s' hok ↦ ?_) (fun h ↦ ?_) fun _ ↦ hboth
        · obtain ⟨_, hrun, -⟩ := Tx.bind_pure_eq_ok_iff.1 hok
          obtain ⟨-, -, -, hsource, -⟩ := transfer_eq_ok_iff.1 hrun
          exact not_isAllowed_of_none hsource hboth.1
        · rw [hanswer] at h
          exact Bool.false_ne_true h.2.2
      · exact transferDecides_of_none hadm hsource htarget hending
    · refine transferDecides_of_not_ok (fun v s' hok ↦ hadm ?_) (fun h ↦ hadm h.1)
        fun h ↦ absurd h hadm
      obtain ⟨_, hrun, -⟩ := Tx.bind_pure_eq_ok_iff.1 hok
      obtain ⟨hnonneg, hpaused, hauth, -⟩ := transfer_eq_ok_iff.1 hrun
      exact ⟨hpaused, hnonneg, hauth⟩

/-- Two accounts are on the allowlist, without an expiration ledger. -/
def twoAllowed : List (Input ℕ) :=
  [⟨.granting, .addMultipleToAllowlist 0 [7, 8] none⟩, ⟨.granting, .initialise 0 5⟩]

theorem transferDecides_iff_twoAllowed :
    ∃ token, ((system .verifying).final twoAllowed).token = some token ∧
      (TransferDecides .verifying .granting ((system .verifying).final twoAllowed)
          { token, source := 3, target := 4, amount := 1 } ↔
        Unaffected .verifying .granting ((system .verifying).final twoAllowed)
          { token, source := 3, target := 4, amount := 1 }) :=
  transferDecides_iff .verifying twoAllowed .granting 3 4 1 (by decide)

/-- **The lookup that traps.** Both accounts are allowed, and a transfer between them traps. -/
theorem transfer_between_allowed :
    BothAllowed .granting ((system .verifying).final twoAllowed) 7 8 ∧
      ((system .verifying).exec ⟨.granting, .transfer 7 8 1⟩
        ((system .verifying).final twoAllowed)).1 = .error .trap ∧
      ¬TransferDecides .verifying .granting ((system .verifying).final twoAllowed)
        { token := 5, source := 7, target := 8, amount := 1 } := by
  refine ⟨⟨by decide, by decide⟩, by decide, fun hdecides ↦ ?_⟩
  have hforward := hdecides.forwards.2 ⟨⟨by decide, by decide, by decide⟩,
    ⟨by decide, by decide⟩, by decide⟩
  exact absurd hforward.1 (by decide)

end AllowlistToken
