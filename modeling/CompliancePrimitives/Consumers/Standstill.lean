import CompliancePrimitives.Composition.Network
import CompliancePrimitives.Consumers.PolicyAgreement
import CompliancePrimitives.Contracts.CircuitBreaker.Freeze
import CompliancePrimitives.Contracts.DenylistGate.LastWrite

/-!
# What a freeze and a denial do to balances

A token runs among the contracts it asks, and everyone else goes on calling those. While the breaker
a token is wired to is frozen, no balance changes but by minting; while the gate it is wired to
denies an account, that account's balance does not. Both last as long as the contract asked says
so, and what ends them is an operation of that contract: an `unfreeze` of the breaker's admin, or a
completed write of the denylist that takes the account off it. Nothing the token or any other
contract does in between makes a difference.

The two are one argument (`standstill`): a property of the ledger that other operations keep, that a
token's questions cannot see the difference in, and under which the policy clears nobody.
-/

namespace Consumers

open Soroban Composition

variable {Address : Type} [DecidableEq Address]

/-- A token among the deployed contracts. -/
def ledger (T : ExampleToken Address) (ext : AllowlistToken.Externals Address)
    (start : World Address) :
    System (GatedToken.State T.Wiring Address × World Address)
      (GatedToken.Input T.Wiring Address (Operation Address)) (Except (Failure T.Error) Unit) :=
  GatedToken.system T.token (World.operate ext) start

/-- One step of a run. -/
abbrev Moment (T : ExampleToken Address) :=
  GatedToken.Moment T.Error T.Wiring Address (World Address) (Operation Address)

variable {T : ExampleToken Address} {ext : AllowlistToken.Externals Address}
  {start w : World Address}

/-! ### What a step keeps -/

/-- The token's invocations leave all of the ledger alone but the events of flags. -/
theorem invoke_silent {env : Env Address} {call : GatedToken.Call T.Wiring Address}
    {p p' : GatedToken.State T.Wiring Address × World Address} {u : Unit}
    (h : GatedToken.invoke T.token env call p = .ok (u, p')) : p'.2.silent = p.2.silent := by
  cases call with
  | initialise wiring => rw [(Tx.onFst_eq_ok_iff.1 h).2]
  | mint target amount => rw [(Tx.onFst_eq_ok_iff.1 h).2]
  | transfer source target amount =>
    obtain ⟨-, wiring, -, hclear, -⟩ := GatedToken.transfer_eq_ok_iff.1 h
    have hobeys := T.obeys env p.2 source target wiring
    rw [Tx.GoesThrough, Tx.FailsClosed, hclear] at hobeys
    exact hobeys.1

/-- A token that is wired stays wired as it is. -/
theorem invoke_wiring {env : Env Address} {call : GatedToken.Call T.Wiring Address}
    {p p' : GatedToken.State T.Wiring Address × World Address} {wiring : T.Wiring} {u : Unit}
    (h : GatedToken.invoke T.token env call p = .ok (u, p')) (hwiring : p.1.wiring = some wiring) :
    p'.1.wiring = some wiring := by
  cases call with
  | initialise wiring' =>
    obtain ⟨hnone, -⟩ := GatedToken.initialise_eq_ok_iff.1 (Tx.onFst_eq_ok_iff.1 h).1
    rw [hwiring] at hnone
    cases hnone
  | mint target amount =>
    obtain ⟨sum, -, hs⟩ := GatedToken.mint_eq_ok_iff.1 (Tx.onFst_eq_ok_iff.1 h).1
    rw [hs]
    exact hwiring
  | transfer source target amount =>
    obtain ⟨-, wiring', -, -, hsettle⟩ := GatedToken.transfer_eq_ok_iff.1 h
    obtain ⟨-, left, sum, -, -, hs⟩ := GatedToken.settle_eq_ok_iff.1 hsettle
    rw [hs]
    exact hwiring

/-- **What a run keeps of the ledger**: what the operations on the other contracts keep, and what
does not depend on the events of flags. -/
theorem world_final {Q : World Address → Prop}
    (hsilent : ∀ w w' : World Address, w'.silent = w.silent → Q w → Q w') (hstart : Q start)
    (hkeeps : ∀ w op, Q w → Q (w.operate ext op))
    (inputs : List (GatedToken.Input T.Wiring Address (Operation Address))) :
    Q ((ledger T ext start).final inputs).2 := by
  refine (ledger T ext start).final_induction (P := fun q ↦ Q q.2) hstart (fun q i hq ↦ ?_) inputs
  cases i with
  | elsewhere op => exact hkeeps _ op hq
  | token env call =>
    exact Tx.commit_induction (x := GatedToken.invoke T.token env call) (P := fun q' ↦ Q q'.2) hq
      fun _ _ hok ↦ hsilent _ _ (invoke_silent hok) hq

/-- A transfer that a step completes was cleared by the policy the token is wired to. -/
theorem clears_of_completed {p : GatedToken.State T.Wiring Address × World Address}
    {i : GatedToken.Input T.Wiring Address (Operation Address)} {wiring : T.Wiring}
    (hwiring : p.1.wiring = some wiring) {source target : Address} {amount : I128}
    (h : GatedToken.completed ((ledger T ext start).stepFrom p i) =
      some (.transfer source target amount)) :
    ∃ sequence, (T.policy wiring).Clears sequence p.2 source target := by
  cases i with
  | elsewhere op => cases h
  | token env call =>
    rcases Tx.commit_answer (GatedToken.invoke T.token env call) p with
      ⟨u, hresult, hok⟩ | ⟨⟨f, hfail⟩, -⟩
    · have hresult' : ((ledger T ext start).stepFrom p (.token env call)).result = .ok u := hresult
      rw [GatedToken.completed, hresult'] at h
      obtain rfl : call = .transfer source target amount := Option.some.inj h
      obtain ⟨-, wiring', hwiring', hclear, -⟩ := GatedToken.transfer_eq_ok_iff.1 hok
      obtain rfl : wiring = wiring' := Option.some.inj (hwiring.symm.trans hwiring')
      exact ⟨env.sequence,
        (T.obeys env p.2 source target wiring).accepts_iff.1 ⟨_, _, hclear, rfl⟩⟩
    · have hresult' : ((ledger T ext start).stepFrom p (.token env call)).result = .error f := hfail
      rw [GatedToken.completed, hresult'] at h
      cases h

/-- **A standstill.** Let `Q` be a property of the ledger that does not depend on the events of
flags and under which the policy clears no transfer of an account. As long as the operations on the
other contracts keep `Q`, the account gains what is minted to it, and changes in no other way. -/
theorem standstill {Q : World Address → Prop} {a : Address} {wiring : T.Wiring}
    {p : GatedToken.State T.Wiring Address × World Address}
    {during : List (GatedToken.Input T.Wiring Address (Operation Address))}
    (hsilent : ∀ w w' : World Address, w'.silent = w.silent → Q w → Q w')
    (hblocked : ∀ (w : World Address) (sequence : ℕ) (source target : Address), Q w →
      source = a ∨ target = a → ¬(T.policy wiring).Clears sequence w source target)
    (hwiring : p.1.wiring = some wiring) (hQ : Q p.2)
    (hkeeps : ∀ e ∈ ((ledger T ext start).startingAt p).history during, ∀ op,
      e.input = .elsewhere op → Q e.pre.2 → Q (e.pre.2.operate ext op)) :
    GatedToken.holdings (((ledger T ext start).startingAt p).final during).1 a =
      GatedToken.holdings p.1 a +
        ((((ledger T ext start).startingAt p).history during).map
          (GatedToken.mintedTo a)).sum := by
  have hinv := ((ledger T ext start).stretch_induction
    (P := fun q ↦ q.1.wiring = some wiring ∧ Q q.2)
    (C := fun e ↦ ∀ op, e.input = .elsewhere op → Q e.pre.2 → Q (e.pre.2.operate ext op))
    ⟨hwiring, hQ⟩ ?_ hkeeps).2
  -- no transfer of the account completes: its questions would have gone through under `Q`
  · refine GatedToken.holdings_of_still fun e he source target amount hcall ↦ ?_
    obtain ⟨hwired, hpre⟩ := hinv e he
    rw [(ledger T ext start).eq_stepFrom_of_mem_history he] at hcall
    obtain ⟨sequence, hclears⟩ := clears_of_completed hwired hcall
    by_contra hmoved
    refine hblocked _ sequence source target hpre ?_ hclears
    tauto
  -- `Q` is kept: by operations elsewhere as assumed, by the token since it only asks
  · rintro q i ⟨hwired, hpre⟩ hkeep
    cases i with
    | elsewhere op => exact ⟨hwired, hkeep op rfl hpre⟩
    | token env call =>
      refine Tx.commit_induction (x := GatedToken.invoke T.token env call)
        (P := fun q' ↦ q'.1.wiring = some wiring ∧ Q q'.2) ⟨hwired, hpre⟩ fun u q' hok ↦ ?_
      exact ⟨invoke_wiring hok hwired, hsilent _ _ (invoke_silent hok) hpre⟩

/-! ### A frozen breaker -/

/-- In a step, the breaker's admin at that time completes an `unfreeze` of it. -/
def Unfreezes (breaker : Address) (e : Moment T) : Prop :=
  ∃ op i s, e.input = .elsewhere op ∧ op.breakerInput breaker = some i ∧
    e.pre.2.breaker breaker = some s ∧
      CircuitBreaker.ByAdmin .unfreeze ((CircuitBreaker.system 0).stepFrom s i)

/-- The breaker at an address is frozen, and calls no audit log. -/
def FrozenAt (breaker : Address) (w : World Address) : Prop :=
  ∃ s, w.breaker breaker = some s ∧ s.auditLog = none ∧ CircuitBreaker.IsFrozen s

omit [DecidableEq Address] in
theorem FrozenAt.not_breakerOpen {breaker : Address} (h : FrozenAt breaker w) :
    ¬BreakerOpen w breaker := by
  obtain ⟨s, hs, -, hfrozen⟩ := h
  rintro ⟨s', hs', -, hopen⟩
  obtain rfl : s = s' := Option.some.inj (hs.symm.trans hs')
  rw [(CircuitBreaker.isFrozen_iff.1 hfrozen).2] at hopen
  cases hopen

/-- A frozen breaker stays so, unless its admin unfreezes it. -/
theorem FrozenAt.operate {breaker : Address} {op : Operation Address} (h : FrozenAt breaker w)
    (hstays : ∀ i s, op.breakerInput breaker = some i → w.breaker breaker = some s →
      ¬CircuitBreaker.ByAdmin .unfreeze ((CircuitBreaker.system 0).stepFrom s i)) :
    FrozenAt breaker (w.operate ext op) := by
  obtain ⟨s, hs, hlog, hfrozen⟩ := h
  rw [FrozenAt, breaker_operate 0, hs]
  rcases hinput : op.breakerInput breaker with _ | i
  · exact ⟨s, rfl, hlog, hfrozen⟩
  · refine ⟨((CircuitBreaker.system 0).exec i s).2, rfl, ?_⟩
    rcases CircuitBreaker.exec_breakerStep 0 i hlog with ⟨hok, hstep⟩ | ⟨-, hpost⟩
    · refine ⟨hstep.auditLog.trans hlog, (hstep.isFrozen_or_unfroze hfrozen).resolve_right ?_⟩
      rintro ⟨admin, hcall, hadmin, hauth⟩
      exact hstays i s hinput hs ⟨admin, hcall, hok, hadmin, hauth⟩
    · rw [hpost]
      exact ⟨hlog, hfrozen⟩

/-- The breaker at an address calls no audit log. -/
def Unlogged (breaker : Address) (w : World Address) : Prop :=
  ∀ s, w.breaker breaker = some s → s.auditLog = none

/-- A breaker never comes to call one. -/
theorem Unlogged.operate {breaker : Address} (h : Unlogged breaker w) (op : Operation Address) :
    Unlogged breaker (w.operate ext op) := by
  intro s' hs'
  rw [breaker_operate 0, Option.map_eq_some_iff] at hs'
  obtain ⟨s, hs, rfl⟩ := hs'
  rcases op.breakerInput breaker with _ | i
  · exact h s hs
  · rcases CircuitBreaker.exec_breakerStep 0 i (h s hs) with ⟨-, hstep⟩ | ⟨-, hpost⟩
    · exact hstep.auditLog.trans (h s hs)
    · exact (congrArg CircuitBreaker.State.auditLog hpost).trans (h s hs)

/-- **A freeze halts the token.** While the breaker a token is wired to is frozen, and until its
admin at the time completes an `unfreeze` of it, every balance changes by minting only. -/
theorem holdings_of_frozen (T : ExampleToken Address) (ext : AllowlistToken.Externals Address)
    (start : World Address) {breaker : Address} {wiring : T.Wiring} {liveUntil : ℕ}
    (hdeployed : start.breaker breaker = some (CircuitBreaker.deploy liveUntil))
    (hbreaker : (T.policy wiring).breaker = some breaker)
    (before during : List (GatedToken.Input T.Wiring Address (Operation Address)))
    (hwiring : ((ledger T ext start).final before).1.wiring = some wiring)
    (hfrozen : ∃ s, ((ledger T ext start).final before).2.breaker breaker = some s ∧
      CircuitBreaker.IsFrozen s)
    (hstays : ∀ e ∈ ((ledger T ext start).startingAt
      ((ledger T ext start).final before)).history during, ¬Unfreezes breaker e) (a : Address) :
    GatedToken.holdings ((ledger T ext start).final (during ++ before)).1 a =
      GatedToken.holdings ((ledger T ext start).final before).1 a +
        ((((ledger T ext start).startingAt ((ledger T ext start).final before)).history during).map
          (GatedToken.mintedTo a)).sum := by
  have hunlogged : Unlogged breaker ((ledger T ext start).final before).2 := by
    refine world_final (fun w w' hsilent h s hs ↦ h s ?_) (fun s hs ↦ ?_)
      (fun w op h ↦ h.operate op) before
    · rw [← Option.some.inj (hdeployed.symm.trans hs)]
      rfl
    · rw [← breaker_silent, ← hsilent, breaker_silent, hs]
  obtain ⟨s, hs, hisFrozen⟩ := hfrozen
  rw [System.final_append]
  refine standstill (Q := FrozenAt breaker) ?_ ?_ hwiring ⟨s, hs, hunlogged s hs, hisFrozen⟩ ?_
  · rintro w w' hsilent ⟨s, hs, hrest⟩
    exact ⟨s, by rw [← breaker_silent, hsilent, breaker_silent, hs], hrest⟩
  · exact fun w sequence source target hQ _ hclears ↦
      hQ.not_breakerOpen (hclears.breaker breaker hbreaker)
  · exact fun e he op hop hQ ↦ hQ.operate fun i s hinput hs hunfreeze ↦
      hstays e he ⟨op, i, s, hop, hinput, hs, hunfreeze⟩

/-- A ledger with a fresh denylist gate at 1 and a fresh circuit breaker at 4. -/
def freshWorld : World ℕ := fun contract ↦
  match contract with
  | 1 => some (.denylistGate DenylistGate.deploy)
  | 4 => some (.circuitBreaker (CircuitBreaker.deploy 0))
  | _ => none

/-- The contracts' answers to questions nobody asks here. -/
def noExternals : AllowlistToken.Externals ℕ where
  addressString _ := ""
  verifySig _ _ _ := false
  complianceAuthority _ _ _ := false
  lookupEnding := id

/-- Everyone authorizes, at ledger 5. -/
def grantingAll : Env ℕ := ⟨5, 0, fun _ ↦ true⟩

/-- The admin 9 of the breaker freezes it after the token is wired to it and 10 has got 7. -/
def frozenLedger : List (GatedToken.Input (DenylistGateConsumer.Wiring ℕ) ℕ
    (Operation ℕ)) :=
  [.elsewhere ⟨4, .circuitBreaker ⟨⟨grantingAll, fun _ ↦ true⟩, .freeze 9⟩⟩,
    .elsewhere ⟨4, .circuitBreaker ⟨⟨grantingAll, fun _ ↦ true⟩, .initialise 9⟩⟩,
    .token grantingAll (.mint 10 (I128.ofNat 7)), .token grantingAll (.initialise ⟨1, 4⟩)]

/-- A payment of 10 to 11, and then more for 10. -/
def paymentAndMint : List (GatedToken.Input (DenylistGateConsumer.Wiring ℕ) ℕ
    (Operation ℕ)) :=
  [.token grantingAll (.mint 10 (I128.ofNat 2)),
    .token grantingAll (.transfer 10 11 (I128.ofNat 5))]

/-- Neither step is an operation on another contract. -/
theorem input_ne_elsewhere
    {p : GatedToken.State (DenylistGateConsumer.Wiring ℕ) ℕ × World ℕ}
    {e : Moment (denylistGateConsumer : ExampleToken ℕ)}
    (he : e ∈ ((ledger denylistGateConsumer noExternals freshWorld).startingAt p).history
      paymentAndMint) (op : Operation ℕ) : e.input ≠ .elsewhere op := by
  obtain ⟨before, -, hsuffix⟩ := System.exists_of_mem_history _ he
  have hmem : e.input ∈ paymentAndMint := hsuffix.subset List.mem_cons_self
  rintro hop
  rcases List.mem_cons.1 hmem with hmint | htransfer
  · cases hop.symm.trans hmint
  · cases hop.symm.trans (List.mem_singleton.1 htransfer)

/-- The account at 10 cannot pay out of its 7, and still gets the 2. -/
theorem holdings_of_frozen_frozenLedger :
    GatedToken.holdings ((ledger denylistGateConsumer noExternals freshWorld).final
      (paymentAndMint ++ frozenLedger)).1 10 = 9 := by
  have hdeployed : freshWorld.breaker 4 = some (CircuitBreaker.deploy 0) := rfl
  have hbreaker : (denylistGateConsumer.policy
    (⟨1, 4⟩ : DenylistGateConsumer.Wiring ℕ)).breaker = some 4 := rfl
  refine (holdings_of_frozen denylistGateConsumer noExternals freshWorld hdeployed hbreaker
    frozenLedger paymentAndMint rfl ⟨_, rfl, CircuitBreaker.isFrozen_iff.2 ⟨rfl, rfl⟩⟩ ?_ 10).trans
    (by decide)
  rintro e he ⟨op, i, s, hop, -⟩
  exact input_ne_elsewhere he op hop

/-! ### A denied account -/

/-- A completed operation takes an account off the denylist of the gate at an address. -/
def Readmission (gate a : Address) (op : Operation Address) (w : World Address) : Prop :=
  ∃ i s, op.gateInput gate = some i ∧ w.gate gate = some s ∧
    ∃ write ∈ DenylistGate.touches (DenylistGate.system.stepFrom s i),
      write.key = a ∧ write.value ≠ some true

/-- In a step, a completed operation of the gate takes an account off its denylist. -/
def Readmits (gate a : Address) (e : Moment T) : Prop :=
  ∃ op, e.input = .elsewhere op ∧ Readmission gate a op e.pre.2

/-- The gate at an address denies an account. -/
def DeniedAt (gate a : Address) (w : World Address) : Prop :=
  ∃ s, w.gate gate = some s ∧ s.denied a = some true

omit [DecidableEq Address] in
/-- What is seen of a gate does not depend on the events of flags. -/
theorem DeniedAt.congr {gate a : Address} {w w' : World Address} (h : w'.silent = w.silent)
    (hdenied : DeniedAt gate a w) : DeniedAt gate a w' := by
  obtain ⟨s, hs, hlisted⟩ := hdenied
  exact ⟨s, by rw [← gate_silent, h, gate_silent, hs], hlisted⟩

omit [DecidableEq Address] in
/-- A gate that denies an account passes no two parties of which it is one. -/
theorem DeniedAt.not_passesBoth {gate a source target : Address} {sequence : ℕ}
    (h : DeniedAt gate a w) (hparty : source = a ∨ target = a) :
    ¬PassesBoth sequence w source target (.denylist gate) := by
  obtain ⟨s, hs, hlisted⟩ := h
  rintro ⟨⟨s₁, hs₁, hsource⟩, ⟨s₂, hs₂, htarget⟩⟩
  obtain rfl : s = s₁ := Option.some.inj (hs.symm.trans hs₁)
  obtain rfl : s = s₂ := Option.some.inj (hs.symm.trans hs₂)
  rcases hparty with rfl | rfl
  · exact hsource hlisted
  · exact htarget hlisted

/-- A denied account stays so, unless it is taken off the list. -/
theorem DeniedAt.operate {gate a : Address} {op : Operation Address} (h : DeniedAt gate a w)
    (hstays : ¬Readmission gate a op w) : DeniedAt gate a (w.operate ext op) := by
  obtain ⟨s, hs, hdenied⟩ := h
  rw [DeniedAt, gate_operate, hs]
  rcases hinput : op.gateInput gate with _ | i
  · exact ⟨s, rfl, hdenied⟩
  · refine ⟨(DenylistGate.system.exec i s).2, rfl, ?_⟩
    rw [DenylistGate.exec_denied, replay_eq_lastWrite]
    rcases hlast : lastWrite (DenylistGate.touches (DenylistGate.system.stepFrom s i)) a with
      _ | write
    · exact hdenied
    · obtain ⟨hmem, hkey⟩ := List.mem_filter.1 (List.mem_of_getLast? hlast)
      by_contra hvalue
      exact hstays ⟨i, s, hinput, hs, write, hmem, by simpa using hkey, hvalue⟩

/-- **A denial freezes an account.** While the gate a token is wired to denies an account, and until
a completed operation of the gate takes it off the list, its balance changes by minting only. -/
theorem holdings_of_denied (T : ExampleToken Address) (ext : AllowlistToken.Externals Address)
    (start : World Address) {gate a : Address} {wiring : T.Wiring}
    (hgate : .denylist gate ∈ (T.policy wiring).both)
    (before during : List (GatedToken.Input T.Wiring Address (Operation Address)))
    (hwiring : ((ledger T ext start).final before).1.wiring = some wiring)
    (hdenied : DeniedAt gate a ((ledger T ext start).final before).2)
    (hstays : ∀ e ∈ ((ledger T ext start).startingAt
      ((ledger T ext start).final before)).history during, ¬Readmits gate a e) :
    GatedToken.holdings ((ledger T ext start).final (during ++ before)).1 a =
      GatedToken.holdings ((ledger T ext start).final before).1 a +
        ((((ledger T ext start).startingAt ((ledger T ext start).final before)).history during).map
          (GatedToken.mintedTo a)).sum := by
  rw [System.final_append]
  refine standstill (Q := DeniedAt gate a) ?_ ?_ hwiring hdenied ?_
  · exact fun w w' hsilent h ↦ h.congr hsilent
  · exact fun w sequence source target hQ hparty hclears ↦
      hQ.not_passesBoth hparty (hclears.both _ hgate)
  · exact fun e he op hop hQ ↦ hQ.operate fun hreadmits ↦ hstays e he ⟨op, hop, hreadmits⟩

/-- The admin 8 of the gate denies 10 after the token is wired to it and 10 has got 7. -/
def deniedLedger : List (GatedToken.Input (DenylistGateConsumer.Wiring ℕ) ℕ
    (Operation ℕ)) :=
  [.elsewhere ⟨1, .denylistGate ⟨⟨grantingAll, fun _ ↦ true⟩, .addToDenylist 8 10⟩⟩,
    .elsewhere ⟨1, .denylistGate ⟨⟨grantingAll, fun _ ↦ true⟩, .initialise 8⟩⟩,
    .elsewhere ⟨4, .circuitBreaker ⟨⟨grantingAll, fun _ ↦ true⟩, .initialise 9⟩⟩,
    .token grantingAll (.mint 10 (I128.ofNat 7)), .token grantingAll (.initialise ⟨1, 4⟩)]

/-- The account at 10 cannot pay out of its 7, and still gets the 2. -/
theorem holdings_of_denied_deniedLedger :
    GatedToken.holdings ((ledger denylistGateConsumer noExternals freshWorld).final
      (paymentAndMint ++ deniedLedger)).1 10 = 9 := by
  have hgate : .denylist 1 ∈ (denylistGateConsumer.policy
    (⟨1, 4⟩ : DenylistGateConsumer.Wiring ℕ)).both := List.mem_cons_self
  refine (holdings_of_denied denylistGateConsumer noExternals freshWorld hgate deniedLedger
    paymentAndMint rfl ⟨_, rfl, rfl⟩ ?_).trans (by decide)
  rintro e he ⟨op, hop, -⟩
  exact input_ne_elsewhere he op hop

end Consumers
