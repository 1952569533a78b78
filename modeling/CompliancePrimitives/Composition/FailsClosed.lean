import CompliancePrimitives.Composition.World

/-!
# A policy over deployed contracts fails closed

What the `All` operator of a policy engine amounts to when its checks are addressed to deployed
contracts. `Passes` says what each kind of check asks of a party, on the state of the contract it
names and with nothing of the engine's order of evaluation in it; `evaluate_failsClosed` says that
an evaluation answers `true` exactly when the breakers are open and both parties pass every check.

The five contracts fail in three ways. A missing contract and an uninitialized breaker trap, an
empty list of allowed codes is a typed error that `try_` turns into a refusal, and everything else
answers `false`. None of them answers `true`, so the characterization needs no assumption on what
is deployed where. What does need care is the order: a check that refuses hides the breakers after
it, so an uninitialized breaker stops the evaluation only when it is reached (`Reaches`).

A jurisdiction check may publish an event, and the checks after it are then asked in another world.
`Passes` does not see the difference (`passes_silent`), and no check makes any other
(`failsClosed_runCheck`), so all checks are as good as asked in the world the evaluation started
in.
-/

namespace Composition

open Soroban

variable {Address : Type}

/-! ### What a check asks -/

/-- The breaker at an address is initialized and not frozen. -/
def BreakerOpen (w : World Address) (contract : Address) : Prop :=
  ∃ s, w.breaker contract = some s ∧ s.admin.isSome = true ∧ s.frozen.getD false = false

/-- The breaker at an address is deployed and not initialized. -/
def BreakerUninitialized (w : World Address) (contract : Address) : Prop :=
  ∃ s, w.breaker contract = some s ∧ s.admin = none

/-- The denylist at an address does not contain a party. -/
def NotDenied (w : World Address) (contract a : Address) : Prop :=
  ∃ s, w.gate contract = some s ∧ s.denied a ≠ some true

/-- The allowlist at an address has an entry for a party that has not expired. -/
def AllowedAt (sequence : ℕ) (w : World Address) (contract a : Address) : Prop :=
  ∃ s entry, w.token contract = some s ∧ s.allowed a = some entry ∧
    ∀ expiration, entry.expirationLedger = some expiration → sequence ≤ expiration

/-- The flag at an address has a code for a party among the allowed ones, and the codes of the
party have not expired. -/
def PermittedAt (sequence : ℕ) (w : World Address) (contract : Address)
    (allowedCodes : List Bytes) (a : Address) : Prop :=
  ∃ s, w.flag contract = some s ∧ allowedCodes ≠ [] ∧
    (∃ code ∈ allowedCodes, code ∈ JurisdictionFlag.loadJurisdictions s a) ∧
    ∀ validUntil, s.validUntil a = some validUntil → sequence ≤ validUntil

/-- What a check asks of one party. -/
def Passes (sequence : ℕ) (w : World Address) (check : PolicyEngine.CheckKind Address)
    (a : Address) : Prop :=
  match check with
  | .denylist contract => NotDenied w contract a
  | .jurisdiction contract allowedCodes => PermittedAt sequence w contract allowedCodes a
  | .allowlist contract => AllowedAt sequence w contract a
  | .circuitBreaker contract => BreakerOpen w contract

/-- What a check asks of both parties. -/
def PassesBoth (sequence : ℕ) (w : World Address) (source target : Address)
    (check : PolicyEngine.CheckKind Address) : Prop :=
  Passes sequence w check source ∧ Passes sequence w check target

@[simp]
theorem passes_silent {sequence : ℕ} {w : World Address}
    {check : PolicyEngine.CheckKind Address} {a : Address} :
    Passes sequence w.silent check a ↔ Passes sequence w check a := by
  cases check with
  | jurisdiction contract allowedCodes =>
    rcases h : w.flag contract with _ | s <;>
      simp [Passes, PermittedAt, h, JurisdictionFlag.loadJurisdictions]
  | _ => simp [Passes, NotDenied, AllowedAt, BreakerOpen]

/-- The events of flags do not matter to a check. -/
theorem passes_congr {sequence : ℕ} {w w' : World Address} (h : w'.silent = w.silent)
    {check : PolicyEngine.CheckKind Address} {a : Address} :
    Passes sequence w' check a ↔ Passes sequence w check a := by
  rw [← passes_silent, h, passes_silent]

theorem passesBoth_congr {sequence : ℕ} {w w' : World Address} (h : w'.silent = w.silent)
    {source target : Address} {check : PolicyEngine.CheckKind Address} :
    PassesBoth sequence w' source target check ↔ PassesBoth sequence w source target check :=
  and_congr (passes_congr h) (passes_congr h)

theorem breakerUninitialized_congr {w w' : World Address} (h : w'.silent = w.silent)
    {contract : Address} :
    BreakerUninitialized w' contract ↔ BreakerUninitialized w contract := by
  rw [BreakerUninitialized, BreakerUninitialized, ← breaker_silent w', h, breaker_silent]

/-! ### What the deployed contracts answer -/

variable [DecidableEq Address]

/-- An uninitialized breaker traps whoever asks it. -/
theorem isFrozen_of_uninitialized {env : Env Address} {w : World Address} {contract : Address}
    (h : BreakerUninitialized w contract) : (callees env).isFrozen contract w = .error .trap := by
  obtain ⟨s, hs, hadmin⟩ := h
  refine Tx.call_of_error (Tx.within_of_error (e := .error .notInitialized) hs ?_)
  refine (Tx.bind_of_ok (Tx.get_eq_ok_iff.2 ⟨rfl, rfl⟩)).trans (Tx.bind_of_error ?_)
  simp [Tx.ensure, Tx.fail, hadmin]

/-- Asking a breaker decides whether it is open. -/
theorem failsClosed_isFrozen (env : Env Address) (contract : Address) (w : World Address) :
    Tx.FailsClosed World.silent (!·) ((callees env).isFrozen contract)
      (BreakerOpen w contract) w := by
  rcases hs : w.breaker contract with _ | s
  · refine Tx.failsClosed_of_error (e := .trap) ?_ (by simp [BreakerOpen, hs])
    simp [callees, Tx.call, Tx.within, hs]
  · by_cases hadmin : s.admin = none
    · refine Tx.failsClosed_of_error (isFrozen_of_uninitialized ⟨s, hs, hadmin⟩) ?_
      simp [BreakerOpen, hs, hadmin]
    · have hsome : s.admin.isSome = true := Option.isSome_iff_ne_none.2 hadmin
      have hrun : (callees env).isFrozen contract w =
          .ok (s.frozen.getD false, w.put contract (.circuitBreaker s)) := by
        simp [callees, Tx.within_eq_ok_iff, hs, CircuitBreaker.isFrozen, hsome]
      refine Tx.failsClosed_of_ok hrun (silent_put (breaker_eq_some_iff.1 hs) rfl) ?_
      simp [BreakerOpen, hs, hsome]

/-- Asking a flag through `try_` decides whether the party is permitted; where the flag fails, the
answer is there and is a refusal. -/
theorem failsClosed_tryIsPermittedJurisdiction (env : Env Address) (contract a : Address)
    (allowedCodes : List Bytes) (w : World Address) :
    Tx.FailsClosed World.silent (fun answer ↦ decide (answer = some true))
      ((callees env).tryIsPermittedJurisdiction contract a allowedCodes)
      (PermittedAt env.sequence w contract allowedCodes a) w := by
  rcases hs : w.flag contract with _ | s
  · refine Tx.failsClosed_of_ok (Tx.attempt_of_error (e := .trap) ?_) rfl
      (by simp [PermittedAt, hs])
    simp [Tx.within, hs]
  · by_cases hallowed : allowedCodes = []
    · subst hallowed
      -- the typed error of the flag is caught, and the answer is a refusal
      refine Tx.failsClosed_of_ok
        (Tx.attempt_of_error
          (Tx.within_of_error hs (JurisdictionFlag.isPermittedJurisdiction_nil env a s))) rfl ?_
      simp [PermittedAt]
    · obtain ⟨permitted, events, hrun, hiff⟩ :=
        JurisdictionFlag.isPermittedJurisdiction_spec env a hallowed s
      refine Tx.failsClosed_of_ok (Tx.attempt_of_ok (Tx.within_eq_ok_iff.2 ⟨s, _, hs, hrun, rfl⟩))
        (silent_put (flag_eq_some_iff.1 hs) rfl) ?_
      simp [PermittedAt, hs, hallowed, hiff]

/-- **Each check decides what it asks and fails closed**, changing at most the events of flags. -/
theorem failsClosed_runCheck (env : Env Address) (check : PolicyEngine.CheckKind Address)
    (a : Address) (w : World Address) :
    Tx.FailsClosed World.silent id (PolicyEngine.runCheck (callees env) check a)
      (Passes env.sequence w check a) w := by
  cases check with
  | denylist contract =>
    rcases hs : w.gate contract with _ | s
    · refine Tx.failsClosed_of_error (e := .trap) ?_ (by simp [Passes, NotDenied, hs])
      simp [PolicyEngine.runCheck, callees, Tx.within, hs]
    -- the gate is asked, and is put back as it was
    · have hrun : PolicyEngine.runCheck (callees env) (.denylist contract) a w =
          .ok (DenylistGate.check s a, w.put contract (.denylistGate s)) := by
        simp [PolicyEngine.runCheck, callees, Tx.within_eq_ok_iff, hs]
      refine Tx.failsClosed_of_ok hrun (silent_put (gate_eq_some_iff.1 hs) rfl) ?_
      rcases hdenied : s.denied a with _ | _ <;>
        simp [Passes, NotDenied, hs, DenylistGate.check, hdenied]
  | jurisdiction contract allowedCodes =>
    exact (failsClosed_tryIsPermittedJurisdiction env contract a allowedCodes w).map _
  | allowlist contract =>
    rcases hs : w.token contract with _ | s
    · refine Tx.failsClosed_of_error (e := .trap) ?_ (by simp [Passes, AllowedAt, hs])
      simp [PolicyEngine.runCheck, callees, Tx.within, hs]
    · have hrun : PolicyEngine.runCheck (callees env) (.allowlist contract) a w =
          .ok (AllowlistToken.isAllowed env.sequence s a, w.put contract (.allowlistToken s)) := by
        simp [PolicyEngine.runCheck, callees, Tx.within_eq_ok_iff, hs]
      refine Tx.failsClosed_of_ok hrun (silent_put (token_eq_some_iff.1 hs) rfl) ?_
      rcases hentry : s.allowed a with _ | ⟨_ | expiration⟩ <;>
        simp [Passes, AllowedAt, hs, hentry, AllowlistToken.isAllowed]
  | circuitBreaker contract =>
    exact Tx.FailsClosed.map (!·) (failsClosed_isFrozen env contract w)

/-! ### The engine's order -/

/-- One check against both parties. -/
theorem failsClosed_runBoth (env : Env Address) (check : PolicyEngine.CheckKind Address)
    (source target : Address) (w : World Address) :
    Tx.FailsClosed World.silent id (PolicyEngine.runBoth (callees env) check source target)
      (PassesBoth env.sequence w source target check) w := by
  refine (failsClosed_runCheck env check source w).bind ?_ ?_
  · rintro _ w' rfl hw'
    exact (failsClosed_runCheck env check target w').congr (passes_congr hw')
  · rintro _ w' rfl -
    exact Tx.failsClosed_of_ok rfl rfl (by simp)

/-- The loop of the `All` operator, by induction on the checks left. -/
theorem failsClosed_evaluateAll (env : Env Address) (source target : Address) :
    ∀ (checks : List (PolicyEngine.CheckKind Address)) (i : ℕ) (w : World Address),
      Tx.FailsClosed World.silent Prod.fst
        (PolicyEngine.evaluateAll (callees env) source target i checks)
        (∀ check ∈ checks, PassesBoth env.sequence w source target check) w
  | [], _, w => Tx.failsClosed_of_ok rfl rfl (by simp)
  | check :: checks, i, w => by
    rw [List.forall_mem_cons]
    refine (failsClosed_runBoth env check source target w).bind ?_ ?_
    · rintro _ w' rfl hw'
      refine (failsClosed_evaluateAll env source target checks (i + 1) w').congr ?_
      exact forall₂_congr fun _ _ ↦ passesBoth_congr hw'
    · rintro _ w' rfl -
      exact Tx.failsClosed_of_ok rfl rfl (by simp)

/-- The optional breaker in front of the checks. -/
theorem failsClosed_breakerFrozen (env : Env Address) (breaker : Option Address)
    (w : World Address) :
    Tx.FailsClosed World.silent (!·) (PolicyEngine.breakerFrozen (callees env) breaker)
      (∀ b, breaker = some b → BreakerOpen w b) w := by
  cases breaker with
  | none => exact Tx.failsClosed_of_ok rfl rfl (by simp)
  | some b => exact (failsClosed_isFrozen env b w).congr (by simp)

/-- Both together, on the state of the engine and the world. Publishing the result is no part of
the decision. -/
theorem failsClosed_evaluateInner (env : Env Address)
    (checks : List (PolicyEngine.CheckKind Address)) (source target : Address)
    (p : PolicyEngine.State Address) (w : World Address) :
    Tx.FailsClosed (fun q : PolicyEngine.State Address × World Address ↦ q.2.silent) Prod.fst
      (PolicyEngine.evaluateInner (callees env) checks .all source target)
      ((∀ b, p.circuitBreaker = some b → BreakerOpen w b) ∧
        ∀ check ∈ checks, PassesBoth env.sequence w source target check) (p, w) := by
  have hread : Tx.onFst Tx.get (p, w) =
      (.ok (p, (p, w)) : Except (Failure PolicyEngine.Error) _) := rfl
  refine Tx.FailsClosed.after ?_ hread rfl
  refine (failsClosed_breakerFrozen env p.circuitBreaker w).onSnd.bind ?_ ?_
  · rintro frozen ⟨p', w'⟩ hopen hw'
    obtain rfl : frozen = false := by simpa using hopen
    have hall : Tx.FailsClosed World.silent Prod.fst
        (PolicyEngine.combine (callees env) checks .all source target)
        (∀ check ∈ checks, PassesBoth env.sequence w source target check) w' :=
      (failsClosed_evaluateAll env source target checks 0 w').congr
        (forall₂_congr fun _ _ ↦ passesBoth_congr hw')
    -- publishing the result is one more step, which decides nothing
    refine (hall.onSnd.bind ?_ ?_).congr (and_iff_left trivial)
    · rintro result ⟨p'', w''⟩ hresult -
      exact Tx.failsClosed_of_ok rfl rfl (by simp [hresult])
    · rintro result ⟨p'', w''⟩ hresult -
      exact Tx.failsClosed_of_ok rfl rfl (by simp [hresult])
  · rintro frozen ⟨p', w'⟩ hfrozen -
    obtain rfl : frozen = true := by simpa using hfrozen
    exact Tx.failsClosed_of_ok rfl rfl (by simp)

/-- A breaker among the checks that is reached and not initialized traps the loop: the checks before
it are passed one by one, by induction, each leaving the breaker as it was. -/
theorem evaluateAll_of_uninitialized (env : Env Address) (source target b : Address)
    (after : List (PolicyEngine.CheckKind Address)) :
    ∀ (before : List (PolicyEngine.CheckKind Address)) (i : ℕ) (w : World Address),
      (∀ check ∈ before, PassesBoth env.sequence w source target check) →
      BreakerUninitialized w b →
      PolicyEngine.evaluateAll (callees env) source target i (before ++ .circuitBreaker b :: after)
        w = .error .trap
  | [], _, w, _, hb =>
    Tx.bind_of_error (Tx.bind_of_error (Tx.bind_of_error (isFrozen_of_uninitialized hb)))
  | check :: before, i, w, hbefore, hb => by
    obtain ⟨hcheck, hbefore⟩ := List.forall_mem_cons.1 hbefore
    obtain ⟨_, w', hrun, rfl, hw'⟩ :=
      (failsClosed_runBoth env check source target w).exists_ok hcheck
    refine (Tx.bind_of_ok hrun).trans ?_
    exact evaluateAll_of_uninitialized env source target b after before (i + 1) w'
      (fun check hmem ↦ (passesBoth_congr hw').2 (hbefore check hmem))
      ((breakerUninitialized_congr hw').2 hb)

/-! ### The evaluation -/

/-- **An evaluation gets as far as asking the breaker `b`**: it is the one in front, or the one in
front is open and `b` comes in the list after checks that both parties pass. -/
inductive Reaches (sequence : ℕ) (p : PolicyEngine.State Address) (w : World Address)
    (source target b : Address) : Prop where
  /-- The breaker in front is asked first of all. -/
  | front {checks : List (PolicyEngine.CheckKind Address)} (hchecks : p.checks = some checks)
      (hb : p.circuitBreaker = some b)
  /-- A breaker among the checks is asked if nothing before it denies. -/
  | listed {before after : List (PolicyEngine.CheckKind Address)}
      (hchecks : p.checks = some (before ++ .circuitBreaker b :: after))
      (hfront : ∀ c, p.circuitBreaker = some c → BreakerOpen w c)
      (hbefore : ∀ check ∈ before, PassesBoth sequence w source target check)

section

variable {p : PolicyEngine.State Address} {w : World Address}
  {checks : List (PolicyEngine.CheckKind Address)}

omit [DecidableEq Address] in
/-- Reading a policy that is there. -/
theorem onFst_loadPolicy (hchecks : p.checks = some checks) {op : PolicyEngine.CombineOp}
    (hop : p.combineOp = some op) :
    Tx.onFst PolicyEngine.loadPolicy (p, w) = .ok ((checks, op), (p, w)) := by
  simp [PolicyEngine.loadPolicy, PolicyEngine.loadChecks, hchecks, hop]

/-- The evaluation of a policy under `All`. -/
theorem failsClosed_evaluate (env : Env Address) (w : World Address) (source target : Address)
    (hchecks : p.checks = some checks) (hop : p.combineOp = some .all) :
    Tx.FailsClosed (fun q : PolicyEngine.State Address × World Address ↦ q.2.silent) id
      (PolicyEngine.evaluate (callees env) source target)
      ((∀ b, p.circuitBreaker = some b → BreakerOpen w b) ∧
        ∀ check ∈ checks, PassesBoth env.sequence w source target check) (p, w) := by
  refine Tx.FailsClosed.after ?_ (onFst_loadPolicy hchecks hop) rfl
  exact Tx.FailsClosed.map Prod.fst (failsClosed_evaluateInner env checks source target p w)

omit [DecidableEq Address] in
/-- Without a check list there is no policy to evaluate. -/
theorem onFst_loadPolicy_none (hchecks : p.checks = none) :
    Tx.onFst PolicyEngine.loadPolicy (p, w) = .error (.error .notInitialized) := by
  refine Tx.within_of_error rfl (Tx.bind_of_error ?_)
  simp only [PolicyEngine.loadChecks, Tx.bind_of_ok (Tx.get_eq_ok_iff.2 ⟨rfl, rfl⟩), hchecks]
  rfl

/-- The inner evaluation traps at an uninitialized breaker it reaches. -/
theorem evaluateInner_of_uninitialized {env : Env Address} {source target b : Address}
    (hchecks : p.checks = some checks) (hreach : Reaches env.sequence p w source target b)
    (hb : BreakerUninitialized w b) :
    PolicyEngine.evaluateInner (callees env) checks .all source target (p, w) = .error .trap := by
  have hread : Tx.onFst Tx.get (p, w) =
      (.ok (p, (p, w)) : Except (Failure PolicyEngine.Error) _) := rfl
  refine (Tx.bind_of_ok hread).trans ?_
  cases hreach with
  | front _ hfront =>
    refine Tx.bind_of_error (Tx.onSnd_of_error ?_)
    rw [hfront]
    exact isFrozen_of_uninitialized hb
  | @listed before after hlisted hfront hbefore =>
    obtain rfl : checks = before ++ .circuitBreaker b :: after := by
      rwa [hchecks, Option.some.injEq] at hlisted
    obtain ⟨frozen, ⟨p', w'⟩, hrun, hopen, hw'⟩ :=
      (failsClosed_breakerFrozen env p.circuitBreaker w).onSnd (p := (p, w)) |>.exists_ok hfront
    obtain rfl : frozen = false := by simpa using hopen
    refine (Tx.bind_of_ok hrun).trans (Tx.bind_of_error (Tx.onSnd_of_error ?_))
    exact evaluateAll_of_uninitialized env source target b after before 0 w'
      (fun check hmem ↦ (passesBoth_congr hw').2 (hbefore check hmem))
      ((breakerUninitialized_congr hw').2 hb)

/-- **The composed system fails closed.** Whatever the engine's policy under `All` and whatever is
deployed, an evaluation answers `true` exactly when every breaker is open and both parties pass
every check, and traps at any uninitialized breaker it reaches. -/
theorem evaluate_failsClosed (env : Env Address) (p : PolicyEngine.State Address)
    (w : World Address) (source target : Address) (hop : p.combineOp = some .all) :
    ((∃ q, PolicyEngine.evaluate (callees env) source target (p, w) = .ok (true, q)) ↔
        ∃ checks, p.checks = some checks ∧
          (∀ b, p.circuitBreaker = some b → BreakerOpen w b) ∧
          ∀ check ∈ checks, Passes env.sequence w check source ∧
            Passes env.sequence w check target) ∧
      ∀ b, Reaches env.sequence p w source target b → BreakerUninitialized w b →
        PolicyEngine.evaluate (callees env) source target (p, w) = .error .trap := by
  refine ⟨?_, fun b hreach hb ↦ ?_⟩
  · rcases hchecks : p.checks with _ | checks
    · have hfails : PolicyEngine.evaluate (callees env) source target (p, w) =
          .error (.error .notInitialized) := Tx.bind_of_error (onFst_loadPolicy_none hchecks)
      simp [hfails]
    · have hiff := (failsClosed_evaluate env w source target hchecks hop).accepts_iff
      simpa [PassesBoth] using hiff
  -- whichever way `b` is reached, there is a policy to evaluate
  · obtain ⟨checks, hchecks⟩ : ∃ checks, p.checks = some checks := by
      cases hreach with
      | front hchecks _ => exact ⟨_, hchecks⟩
      | listed hchecks _ _ => exact ⟨_, hchecks⟩
    refine (Tx.bind_of_ok (onFst_loadPolicy hchecks hop)).trans (Tx.bind_of_error ?_)
    exact evaluateInner_of_uninitialized hchecks hreach hb

end

/-! ### One policy with every kind of check -/

/-- A ledger with one contract of each kind, and a breaker at 5 nobody initialized. Party 11 has
only a legacy jurisdiction code, which expires at 100. -/
def mixedWorld : World ℕ := fun contract ↦
  match contract with
  | 1 => some (.denylistGate DenylistGate.deploy)
  | 2 =>
    some (.jurisdictionFlag
      { JurisdictionFlag.deploy with
        jurisdiction := fun a ↦ if a = 11 then some [85, 83] else none
        jurisdictions := fun a ↦ if a = 10 then some [[68, 69], [85, 83]] else none
        validUntil := fun a ↦ if a = 11 then some 100 else none })
  | 3 => some (.allowlistToken { AllowlistToken.deploy with allowed := fun _ ↦ some ⟨some 90⟩ })
  | 4 => some (.circuitBreaker { CircuitBreaker.deploy 0 with admin := some 1 })
  | 5 => some (.circuitBreaker (CircuitBreaker.deploy 0))
  | _ => none

/-- One check of each kind that has a party. -/
def mixedChecks : List (PolicyEngine.CheckKind ℕ) :=
  [.denylist 1, .jurisdiction 2 [[85, 83]], .allowlist 3]

/-- A policy over `mixedWorld` whose last check is a breaker. -/
def mixedPolicy (lastBreaker : ℕ) : PolicyEngine.State ℕ :=
  { PolicyEngine.deploy 0 with
    combineOp := some .all
    circuitBreaker := some 4
    checks := some (mixedChecks ++ [.circuitBreaker lastBreaker]) }

/-- At ledger 90 both parties pass the checks before the last breaker. -/
theorem passesBoth_mixed : ∀ check ∈ mixedChecks, PassesBoth 90 mixedWorld 10 11 check := by
  simp [mixedChecks, PassesBoth, Passes, NotDenied, PermittedAt, AllowedAt, mixedWorld, World.gate,
    World.flag, World.token, DenylistGate.deploy, JurisdictionFlag.deploy,
    JurisdictionFlag.loadJurisdictions]

theorem breakerOpen_mixed : BreakerOpen mixedWorld 4 := by
  simp [BreakerOpen, mixedWorld, World.breaker, CircuitBreaker.deploy]

/-- The mixed policy lets the two parties through with an open breaker at its end, and traps with
one that is not initialized. -/
theorem evaluate_failsClosed_mixed :
    (∃ q, PolicyEngine.evaluate (callees ⟨90, 0, fun _ ↦ true⟩) 10 11 (mixedPolicy 4, mixedWorld) =
        .ok (true, q)) ∧
      PolicyEngine.evaluate (callees ⟨90, 0, fun _ ↦ true⟩) 10 11 (mixedPolicy 5, mixedWorld) =
        .error .trap := by
  have hfront : ∀ b, some 4 = some b → BreakerOpen mixedWorld b := by
    rintro b ⟨⟩
    exact breakerOpen_mixed
  constructor
  · refine (evaluate_failsClosed ⟨90, 0, fun _ ↦ true⟩ (mixedPolicy 4) mixedWorld 10 11 rfl).1.2
      ⟨_, rfl, hfront, ?_⟩
    intro check hcheck
    rcases List.mem_append.1 hcheck with hbefore | hlast
    · exact passesBoth_mixed check hbefore
    · obtain rfl := List.mem_singleton.1 hlast
      exact ⟨breakerOpen_mixed, breakerOpen_mixed⟩
  · refine (evaluate_failsClosed ⟨90, 0, fun _ ↦ true⟩ (mixedPolicy 5) mixedWorld 10 11 rfl).2 5
      (.listed rfl hfront passesBoth_mixed) ⟨CircuitBreaker.deploy 0, rfl, rfl⟩

end Composition
