import CompliancePrimitives.Consumers.Sep41Runs
import CompliancePrimitives.Consumers.Standstill

/-!
# What a denial does to an account of the SEP-41 token

The token runs among the deployed contracts, as the other example tokens do. A denial of the gate it
is wired to stops the transfers of an account, those in its name by others included. It does not
stop burns: of a denied account, whoever has an allowance may go on **burning** what is there
(`holdings_under_denial`).

That no transfer completes is about single steps: `invoke_ledger` finds the answer of the gate
behind every transfer that completes, at the ledger and in the state it was asked in, so a transfer
with a denied party has none. The balance then follows for the stretch: all that can be booked for
the account are the entries of mints and burns.

The denial has to last. It does as long as no completed operation of the gate takes the account off
its list, and nothing the token does, or anyone else on the ledger, is such an operation
(`exec_denied`). A freeze of the gate, a pause or an upgrade are none either.
-/

namespace Sep41GatedToken

open Soroban Composition
open Consumers (DeniedAt Readmission freshWorld noExternals)
open GatedToken (holdings settled)

variable {Address : Type} [DecidableEq Address]

/-- The token among the deployed contracts. -/
def ledger (ext : AllowlistToken.Externals Address) (start : World Address) :
    System (State Address × World Address) (Input Address (Operation Address))
      (Except (Failure Error) Unit) :=
  system callees (World.operate ext) start

/-- The two parties of a transfer. -/
def Call.parties : Call Address → Option (Address × Address)
  | .transfer source target _ => some (source, target)
  | .transferFrom _ source target _ => some (source, target)
  | _ => none

/-- What a call mints to an account, less what it burns of it. -/
def Call.mintedAndBurned (a : Address) : Call Address → ℤ
  | .mint _ target amount => if target = a then amount else 0
  | .burn source amount => if source = a then -amount else 0
  | .burnFrom _ source amount => if source = a then -amount else 0
  | _ => 0

/-- What a step mints to an account, less what it burns of it. -/
def mintedAndBurned {σ τ : Type} (a : Address) (e : Moment Address σ τ) : ℤ :=
  ((completed e).map (Call.mintedAndBurned a)).getD 0

/-- An account is no party of a call, if that is a transfer at all. -/
def Apart (a : Address) (call : Call Address) : Prop :=
  ∀ source target, call.parties = some (source, target) → source ≠ a ∧ target ≠ a

/-- A call that is no transfer of an account changes it by minting and burning only. -/
theorem Call.entry_of_apart {call : Call Address} {a : Address} (h : Apart a call) :
    call.entry a = call.mintedAndBurned a := by
  cases call with
  | initialise config => rfl
  | approve owner spender amount expirationLedger => rfl
  | mint admin target amount => exact Finsupp.single_apply
  | transfer source target amount =>
    obtain ⟨hsource, htarget⟩ := h source target rfl
    exact GatedToken.settled_apply_of_ne hsource.symm htarget.symm
  | transferFrom spender source target amount =>
    obtain ⟨hsource, htarget⟩ := h source target rfl
    exact GatedToken.settled_apply_of_ne hsource.symm htarget.symm
  | burn source amount => exact Finsupp.single_apply
  | burnFrom spender source amount => exact Finsupp.single_apply

section

variable {env : Env Address} {source target : Address} {call : Call Address}
  {p p' : State Address × World Address} {u : Unit}

/-- What the gate is asked leaves no trace but what asking leaves, and it has to clear both. -/
theorem passesBoth_of_gateCheck (h : gateCheck (callees env) source target p = .ok (u, p')) :
    p'.2.silent = p.2.silent ∧ ∃ config, p.1.token.wiring = some config ∧
      PassesBoth env.sequence p.2 source target (.denylist config.gate) := by
  obtain ⟨-, config, hconfig, hboth⟩ := gateCheck_eq_ok_iff.1 h
  have hcloses := Consumers.failsClosed_gate (ε := Error) env p.2 source target config.gate
  refine ⟨?_, config, hconfig, hcloses.accepts_iff.1 ⟨_, _, hboth, rfl⟩⟩
  rw [Tx.FailsClosed, hboth] at hcloses
  exact hcloses.1

/-- The token's invocations leave all of the ledger alone but the events of flags, and a transfer
completes only between parties that the gate clears. -/
theorem invoke_ledger (h : invoke (callees env) env call p = .ok (u, p')) :
    p'.2.silent = p.2.silent ∧ ∀ source target, call.parties = some (source, target) →
      ∃ config, p.1.token.wiring = some config ∧
        PassesBoth env.sequence p.2 source target (.denylist config.gate) := by
  cases call with
  -- the two calls that move between parties ask the gate about both
  | transfer source target amount =>
    simp only [invoke, transfer, Tx.bind_eq_ok_iff, requireAuth_eq_ok_iff, Tx.onFst_eq_ok_iff,
      and_assoc, exists_and_left, exists_eq_left, exists_const] at h
    obtain ⟨-, _, p₁, hgate, -, hsnd⟩ := h
    obtain ⟨hsilent, hpasses⟩ := passesBoth_of_gateCheck hgate
    refine ⟨hsnd ▸ hsilent, ?_⟩
    rintro _ _ ⟨⟩
    exact hpasses
  | transferFrom spender source target amount =>
    simp only [invoke, transferFrom, Tx.bind_eq_ok_iff, requireAuth_eq_ok_iff, Tx.onFst_eq_ok_iff,
      and_assoc, exists_and_left, exists_eq_left, exists_const] at h
    obtain ⟨-, _, p₁, hgate, _, p₂, -, hsnd₂, -, hsnd⟩ := h
    obtain ⟨hsilent, hpasses⟩ := passesBoth_of_gateCheck hgate
    refine ⟨by rw [hsnd, hsnd₂, hsilent], ?_⟩
    rintro _ _ ⟨⟩
    exact hpasses
  -- the others ask nobody
  | initialise config => exact ⟨by rw [(Tx.onFst_eq_ok_iff.1 h).2], fun _ _ h ↦ by cases h⟩
  | mint admin target amount =>
    exact ⟨by rw [(Tx.onFst_eq_ok_iff.1 h).2], fun _ _ h ↦ by cases h⟩
  | approve owner spender amount expirationLedger =>
    exact ⟨by rw [(Tx.onFst_eq_ok_iff.1 h).2], fun _ _ h ↦ by cases h⟩
  | burn source amount => exact ⟨by rw [(Tx.onFst_eq_ok_iff.1 h).2], fun _ _ h ↦ by cases h⟩
  | burnFrom spender source amount =>
    exact ⟨by rw [(Tx.onFst_eq_ok_iff.1 h).2], fun _ _ h ↦ by cases h⟩

end

variable {ext : AllowlistToken.Externals Address} {start : World Address}

/-- In a step, a completed operation of the gate takes an account off its denylist. -/
def Readmits (gate a : Address) (e : Moment Address (World Address) (Operation Address)) : Prop :=
  ∃ op, e.input = .elsewhere op ∧ Readmission gate a op e.pre.2

/-- **A transfer that completes has parties the gate does not deny.** -/
theorem apart_of_completed {p : State Address × World Address}
    {i : Input Address (Operation Address)} {config : Config Address} {a : Address}
    {call : Call Address} (hwiring : p.1.token.wiring = some config)
    (hdenied : DeniedAt config.gate a p.2)
    (hcompleted : completed ((ledger ext start).stepFrom p i) = some call) : Apart a call := by
  intro source target hparties
  cases i with
  | elsewhere op => cases hcompleted
  | token env call' =>
    rcases exec_token callees (World.operate ext) start p env call' with
      ⟨u, hrun, hcall⟩ | ⟨hnone, -⟩
    · obtain rfl : call' = call := Option.some.inj (hcall.symm.trans hcompleted)
      -- had it been a party, the gate would have had to clear it
      obtain ⟨config', hwiring', hboth⟩ := (invoke_ledger hrun).2 source target hparties
      obtain rfl : config = config' := Option.some.inj (hwiring.symm.trans hwiring')
      by_contra hparty
      exact hdenied.not_passesBoth (by tauto) hboth
    · cases hnone.symm.trans hcompleted

/-- One step while the gate denies an account. -/
theorem exec_denied {p : State Address × World Address} {i : Input Address (Operation Address)}
    {config : Config Address} {a : Address} (hwiring : p.1.token.wiring = some config)
    (hdenied : DeniedAt config.gate a p.2)
    (hstays : ¬Readmits config.gate a ((ledger ext start).stepFrom p i)) :
    (((ledger ext start).exec i p).2.1.token.wiring = some config ∧
      DeniedAt config.gate a ((ledger ext start).exec i p).2.2) ∧
      holdings ((ledger ext start).exec i p).2.1.token a =
        holdings p.1.token a + mintedAndBurned a ((ledger ext start).stepFrom p i) := by
  cases i with
  -- an operation elsewhere ends the denial only if it takes the account off the list
  | elsewhere op =>
    refine ⟨⟨hwiring, hdenied.operate fun h ↦ hstays ⟨op, rfl, h⟩⟩, ?_⟩
    exact (add_zero _).symm
  | token env call =>
    rcases exec_token callees (World.operate ext) start p env call with
      ⟨u, hrun, hcompleted⟩ | ⟨hnone, hkept⟩
    · have heffect := invoke_effect hrun
      have hapart := apart_of_completed hwiring hdenied hcompleted
      refine ⟨⟨heffect.wiring config hwiring, hdenied.congr (invoke_ledger hrun).1⟩, ?_⟩
      rw [mintedAndBurned, ledger, hcompleted]
      exact (heffect.booked a).trans (congrArg _ (Call.entry_of_apart hapart))
    · rw [mintedAndBurned, ledger, hnone, hkept]
      exact ⟨⟨hwiring, hdenied⟩, (add_zero _).symm⟩

/-- **A denial stops everything but minting and burning.** While the gate the token is wired to
denies an account, and until a completed operation of the gate takes it off the list, no transfer to
or from the account completes, through an allowance or not, and its balance changes by what is
minted to it and burned of it only. -/
theorem holdings_under_denial (ext : AllowlistToken.Externals Address) (start : World Address)
    {config : Config Address} {a : Address}
    (before during : List (Input Address (Operation Address)))
    (hwiring : ((ledger ext start).final before).1.token.wiring = some config)
    (hdenied : DeniedAt config.gate a ((ledger ext start).final before).2)
    (hstays : ∀ e ∈ ((ledger ext start).startingAt
      ((ledger ext start).final before)).history during, ¬Readmits config.gate a e) :
    (∀ e ∈ ((ledger ext start).startingAt ((ledger ext start).final before)).history during,
      ∀ call, completed e = some call → ∀ source target, call.parties = some (source, target) →
        source ≠ a ∧ target ≠ a) ∧
      holdings ((ledger ext start).final (during ++ before)).1.token a =
        holdings ((ledger ext start).final before).1.token a +
          ((((ledger ext start).startingAt ((ledger ext start).final before)).history during).map
            (mintedAndBurned a)).sum := by
  constructor
  · intro e he call hcompleted
    have hpre := ((ledger ext start).stretch_induction
      (P := fun q ↦ q.1.token.wiring = some config ∧ DeniedAt config.gate a q.2)
      ⟨hwiring, hdenied⟩ (fun q i hq hstep ↦ (exec_denied hq.1 hq.2 hstep).1) hstays).2 e he
    rw [System.eq_stepFrom_of_mem_history _ he] at hcompleted
    exact apart_of_completed hpre.1 hpre.2 hcompleted
  · rw [System.final_append]
    exact (ledger ext start).accumulated (fun q ↦ holdings q.1.token a) (mintedAndBurned a)
      (P := fun q ↦ q.1.token.wiring = some config ∧ DeniedAt config.gate a q.2)
      ⟨hwiring, hdenied⟩ (fun q i hq hstep ↦ exec_denied hq.1 hq.2 hstep) hstays

/-- The account 10 gets 7 and lets 11 spend 5 of it; then the admin 8 of the gate denies it. -/
def deniedOwner : List (Input ℕ (Operation ℕ)) :=
  [.elsewhere ⟨1, .denylistGate ⟨⟨grantingAll, fun _ ↦ true⟩, .addToDenylist 8 10⟩⟩,
    .elsewhere ⟨1, .denylistGate ⟨⟨grantingAll, fun _ ↦ true⟩, .initialise 8⟩⟩,
    .token grantingAll (.approve 10 11 (I128.ofNat 5) 100),
    .token grantingAll (.mint 9 10 (I128.ofNat 7)),
    .token grantingAll (.initialise ⟨9, 1, 7, "Token", "TKN"⟩)]

/-- A payment of 10 to 12 by 11, and then a burn. -/
def paymentAndBurn : List (Input ℕ (Operation ℕ)) :=
  [.token grantingAll (.burnFrom 11 10 (I128.ofNat 3)),
    .token grantingAll (.transferFrom 11 10 12 (I128.ofNat 2))]

/-- The payment does not go through, and the burn does. -/
theorem holdings_under_denial_deniedOwner :
    (∀ e ∈ ((ledger noExternals freshWorld).startingAt
        ((ledger noExternals freshWorld).final deniedOwner)).history paymentAndBurn,
      completed e ≠ some (.transferFrom 11 10 12 (I128.ofNat 2))) ∧
      holdings ((ledger noExternals freshWorld).final (paymentAndBurn ++ deniedOwner)).1.token 10 =
        4 := by
  have hwiring : ((ledger noExternals freshWorld).final deniedOwner).1.token.wiring =
      some ⟨9, 1, 7, "Token", "TKN"⟩ := rfl
  have hstays : ∀ e ∈ ((ledger noExternals freshWorld).startingAt
      ((ledger noExternals freshWorld).final deniedOwner)).history paymentAndBurn,
      ¬Readmits 1 10 e := by
    rintro e he ⟨op, hop, -⟩
    rcases List.mem_cons.1 he with rfl | he
    · cases hop
    · obtain rfl := List.mem_singleton.1 he
      cases hop
  obtain ⟨hapart, hholdings⟩ := holdings_under_denial noExternals freshWorld deniedOwner
    paymentAndBurn hwiring ⟨_, rfl, rfl⟩ hstays
  exact ⟨fun e he hcompleted ↦ (hapart e he _ hcompleted 10 12 rfl).1 rfl,
    hholdings.trans (by decide)⟩

end Sep41GatedToken
