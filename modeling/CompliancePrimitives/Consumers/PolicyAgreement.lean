import CompliancePrimitives.Consumers.ExampleTokens

/-!
# The example tokens and the policy engine agree

A token with its questions written out, and a policy engine that was given the same checks, are two
ways to the same decision. `transfer_completes_iff` says when a transfer of an example token
completes, with nothing of the order of its questions left in it; `transfer_agrees_with_engine`
says that a transfer whose recipient passes the sender's checks as well completes exactly when an
engine over the token's checks, under `All` and behind the token's breaker, evaluates to `true`
(and the sender authorizes, and can pay).

For the tokens that ask only the sender for a jurisdiction the two differ, and only in that: there
the engine is the stricter one.

The agreement is about decisions at one moment. That it holds at all moments of a run needs the
engine's policy to follow the token's, which nothing in the contracts provides for: the token's
wiring is fixed when it is set up, and the engine's checks may be changed by its admin.
-/

namespace Consumers

open Soroban Composition

variable {Address : Type} [DecidableEq Address]

/-- One of the example tokens over the deployed contracts: its code, and what it asks for. -/
structure ExampleToken (Address : Type) [DecidableEq Address] where
  /-- Its errors, -/
  Error : Type
  /-- and what it is wired to. -/
  Wiring : Type
  /-- Its code, on the deployed contracts. -/
  token : GatedToken.Consumer Error Wiring Address (World Address)
  /-- What it asks for, as a policy of an engine. -/
  policy : Wiring → Policy Address
  /-- Its questions go through exactly when its policy clears the parties. -/
  obeys : ∀ (env : Env Address) (w : World Address) (source target : Address) (wiring : Wiring),
    Tx.GoesThrough World.silent (token.clear env wiring source target)
      ((policy wiring).Clears env.sequence w source target) w

def circuitBreakerConsumer : ExampleToken Address where
  Error := CircuitBreakerConsumer.Error
  Wiring := CircuitBreakerConsumer.Wiring Address
  token := CircuitBreakerConsumer.token callees
  policy := CircuitBreakerConsumer.policy
  obeys := CircuitBreakerConsumer.goesThrough_clear

def denylistGateConsumer : ExampleToken Address where
  Error := DenylistGateConsumer.Error
  Wiring := DenylistGateConsumer.Wiring Address
  token := DenylistGateConsumer.token callees
  policy := DenylistGateConsumer.policy
  obeys := DenylistGateConsumer.goesThrough_clear

def jurisdictionFlagConsumer : ExampleToken Address where
  Error := JurisdictionFlagConsumer.Error
  Wiring := JurisdictionFlagConsumer.Wiring Address
  token := JurisdictionFlagConsumer.token callees
  policy := JurisdictionFlagConsumer.policy
  obeys := JurisdictionFlagConsumer.goesThrough_clear

def jurisdictionDenylistConsumer : ExampleToken Address where
  Error := JurisdictionDenylistConsumer.Error
  Wiring := JurisdictionDenylistConsumer.Wiring Address
  token := JurisdictionDenylistConsumer.token callees
  policy := JurisdictionDenylistConsumer.policy
  obeys := JurisdictionDenylistConsumer.goesThrough_clear

def rwaToken : ExampleToken Address where
  Error := RwaToken.Error
  Wiring := RwaToken.Wiring Address
  token := RwaToken.token callees
  policy := RwaToken.policy
  obeys := RwaToken.goesThrough_clear

variable {env : Env Address} {w : World Address} {source target : Address} {amount : I128}

/-- **When a transfer completes**: the sender authorizes it and can pay, and the policy the token
is wired to clears the parties. -/
theorem transfer_completes_iff (T : ExampleToken Address)
    (s : GatedToken.State T.Wiring Address) :
    (∃ p, GatedToken.transfer T.token env source target amount (s, w) = .ok ((), p)) ↔
      env.auths source = true ∧ GatedToken.Payable s source target amount ∧
        ∃ wiring, s.wiring = some wiring ∧
          (T.policy wiring).Clears env.sequence w source target := by
  simp only [GatedToken.transfer_eq_ok_iff]
  constructor
  · rintro ⟨p, hauth, wiring, hwiring, hclear, hsettle⟩
    refine ⟨hauth, GatedToken.exists_settle_iff.1 ⟨_, hsettle⟩, wiring, hwiring, ?_⟩
    exact (T.obeys env w source target wiring).accepts_iff.1 ⟨_, _, hclear, rfl⟩
  · rintro ⟨hauth, hpayable, wiring, hwiring, hclears⟩
    obtain ⟨⟨_, s'⟩, hsettle⟩ := GatedToken.exists_settle_iff.2 hpayable
    obtain ⟨_, w', hclear, -⟩ := (T.obeys env w source target wiring).accepts_iff.2 hclears
    exact ⟨(s', w'), hauth, wiring, hwiring, hclear, hsettle⟩

/-- A policy engine is set up with a token's policy. -/
structure SetUpWith (policy : Policy Address) (p : PolicyEngine.State Address) : Prop where
  /-- Its checks are those of both parties and then those of the sender. -/
  checks : p.checks = some (policy.both ++ policy.sender)
  /-- Every check has to pass. -/
  combineOp : p.combineOp = some .all
  /-- The breaker in front is the one the token is wired to. -/
  breaker : p.circuitBreaker = policy.breaker

/-- **An engine with the same checks decides the same**, and asks the recipient what the token asks
the sender. -/
theorem evaluate_iff_clears {policy : Policy Address} {p : PolicyEngine.State Address}
    (hp : SetUpWith policy p) :
    (∃ q, PolicyEngine.evaluate (callees env) source target (p, w) = .ok (true, q)) ↔
      policy.Clears env.sequence w source target ∧
        ∀ check ∈ policy.sender, Passes env.sequence w check target := by
  have hiff := (failsClosed_evaluate env w source target hp.checks hp.combineOp).accepts_iff
  have haccepts : (∃ q, PolicyEngine.evaluate (callees env) source target (p, w) = .ok (true, q)) ↔
      (∀ b, p.circuitBreaker = some b → BreakerOpen w b) ∧
        ∀ check ∈ policy.both ++ policy.sender,
          PassesBoth env.sequence w source target check := by
    simpa using hiff
  rw [haccepts, hp.breaker, List.forall_mem_append]
  constructor
  · rintro ⟨hbreaker, hboth, hsender⟩
    exact ⟨⟨hbreaker, hboth, fun check h ↦ (hsender check h).1⟩, fun check h ↦ (hsender check h).2⟩
  · rintro ⟨⟨hbreaker, hboth, hsender⟩, htarget⟩
    exact ⟨hbreaker, hboth, fun check h ↦ ⟨hsender check h, htarget check h⟩⟩

/-- **The tokens agree with the engine.** A transfer of an example token completes, to a recipient
that passes the sender's checks, if and only if the sender authorizes it and can pay and an engine
over the same contracts, set up with what the token is wired to, evaluates to `true`. -/
theorem transfer_agrees_with_engine (T : ExampleToken Address) (env : Env Address)
    (w : World Address) (source target : Address) (amount : I128)
    (s : GatedToken.State T.Wiring Address) (wiring : T.Wiring) (hwiring : s.wiring = some wiring)
    (p : PolicyEngine.State Address) (hp : SetUpWith (T.policy wiring) p) :
    ((∃ q, GatedToken.transfer T.token env source target amount (s, w) = .ok ((), q)) ∧
        ∀ check ∈ (T.policy wiring).sender, Passes env.sequence w check target) ↔
      env.auths source = true ∧ GatedToken.Payable s source target amount ∧
        ∃ q, PolicyEngine.evaluate (callees env) source target (p, w) = .ok (true, q) := by
  rw [transfer_completes_iff, evaluate_iff_clears hp]
  simp only [hwiring, Option.some.injEq, exists_eq_left']
  tauto

/-! ### One transfer past every gate -/

/-- The real-world-asset token wired to the contracts of `mixedWorld`, with an account at 10. -/
def mixedToken : GatedToken.State (RwaToken.Wiring ℕ) ℕ where
  wiring := some ⟨3, 1, 2, 4, [[85, 83]]⟩
  balances := Function.update (fun _ ↦ none) 10 (some (I128.ofNat 7))

/-- An engine set up with what `mixedToken` is wired to. -/
def mixedEngine : PolicyEngine.State ℕ :=
  { PolicyEngine.deploy 0 with
    combineOp := some .all
    circuitBreaker := some 4
    checks := some [.allowlist 3, .denylist 1, .jurisdiction 2 [[85, 83]]] }

theorem clears_mixed :
    (RwaToken.policy (⟨3, 1, 2, 4, [[85, 83]]⟩ : RwaToken.Wiring ℕ)).Clears 90 mixedWorld 10
      11 where
  breaker := by
    rintro b ⟨⟩
    exact breakerOpen_mixed
  both check hcheck := by
    refine passesBoth_mixed check ?_
    simp only [RwaToken.policy, List.mem_cons, List.not_mem_nil, or_false] at hcheck
    simp only [mixedChecks, List.mem_cons, List.not_mem_nil, or_false]
    tauto
  sender := by simp [RwaToken.policy]

/-- At ledger 90 the account at 10 can send 5 to 11. -/
theorem transfer_agrees_with_engine_mixed :
    ∃ q, GatedToken.transfer (RwaToken.token callees) ⟨90, 0, fun _ ↦ true⟩ 10 11 (I128.ofNat 5)
      (mixedToken, mixedWorld) = .ok ((), q) := by
  have hset : SetUpWith (rwaToken.policy ⟨3, 1, 2, 4, [[85, 83]]⟩) mixedEngine := ⟨rfl, rfl, rfl⟩
  refine ((transfer_agrees_with_engine rwaToken ⟨90, 0, fun _ ↦ true⟩ mixedWorld 10 11 _ mixedToken
    _ rfl mixedEngine hset).2 ⟨rfl, ?_, (evaluate_iff_clears hset).2 ⟨clears_mixed, ?_⟩⟩).1
  · exact ⟨by decide, by decide, by decide, by decide⟩
  · simp [rwaToken, RwaToken.policy]

end Consumers
