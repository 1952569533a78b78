import CompliancePrimitives.Composition.FailsClosed
import CompliancePrimitives.Contracts.JurisdictionFlag.Registry
import CompliancePrimitives.Contracts.PolicyEngine.Evaluation

/-!
# An evaluation over the deployed contracts

What an engine is to answer is specified for callees that are functions (`PolicyEngine.Specified`).
The deployed contracts are not: each question runs the code of a contract, may stop, and may write
to its storage. But a contract that is in place answers, and the answer to one question changes no
answer to another. So the deployed contracts have **answers** (`World.answers`), and where each of
them that is asked is in place (`InPlace`), all entry points of the engine answer as specified for
these, whatever the operator (`evaluation_live`).

A flag behind `try_` need not be in place: then the call fails, and that is its answer.

So an evaluation over contracts that are in place has exactly one outcome, which does not depend on
what was asked before, in the batch or out of it. What is needed of the contracts is little: a gate
and an allowlist have to be deployed, a breaker has to be initialized as well.
-/

open Soroban

namespace PolicyEngine

/-! ### Callees that answer as functions do -/

section

variable {Address σ γ : Type} {callees : Callees Address σ} {answers : Answers Address}
  {f : σ → γ} {checks : List (CheckKind Address)} {op : CombineOp} {source target : Address}
  {breaker : Option Address} {t : σ}

/-- A check is answered as by `answers` wherever `f` is observed as in `t`. -/
def AnsweredAt (callees : Callees Address σ) (answers : Answers Address) (f : σ → γ) (t : σ)
    (check : CheckKind Address) : Prop :=
  ∀ address t', f t' = f t →
    Tx.Yields f (runCheck callees check address) (answers.passes check address) t'

theorem AnsweredAt.congr {check : CheckKind Address} {t' : σ}
    (h : AnsweredAt callees answers f t check) (ht : f t' = f t) :
    AnsweredAt callees answers f t' check :=
  fun address u hu ↦ h address u (hu.trans ht)

theorem AnsweredAt.runBoth {check : CheckKind Address} (h : AnsweredAt callees answers f t check)
    (source target : Address) :
    Tx.Yields f (runBoth callees check source target)
      (answers.passesBoth source target check) t := by
  refine (h source t rfl).bind fun t' ht' ↦ ?_
  rw [Answers.passesBoth]
  cases answers.passes check source with
  | false => exact Tx.yields_pure
  | true => exact h target t' ht'

/-- The loop of the `All` operator, by induction on the checks left. -/
theorem yields_evaluateAll (h : ∀ check ∈ checks, AnsweredAt callees answers f t check) (i : ℕ) :
    Tx.Yields f (evaluateAll callees source target i checks)
      (allResult answers source target i checks) t := by
  induction checks generalizing i t with
  | nil => exact Tx.yields_pure
  | cons check checks ih =>
    obtain ⟨hcheck, hchecks⟩ := List.forall_mem_cons.1 h
    refine (hcheck.runBoth source target).bind fun t' ht' ↦ ?_
    rw [allResult_cons]
    cases answers.passesBoth source target check with
    | false => exact Tx.yields_pure
    | true => exact ih (fun check hmem ↦ (hchecks check hmem).congr ht') (i + 1)

/-- The loop of the `Any` operator. -/
theorem yields_evaluateAny (h : ∀ check ∈ checks, AnsweredAt callees answers f t check) :
    Tx.Yields f (evaluateAny callees source target checks)
      (checks.any (answers.passesBoth source target)) t := by
  induction checks generalizing t with
  | nil => exact Tx.yields_pure
  | cons check checks ih =>
    obtain ⟨hcheck, hchecks⟩ := List.forall_mem_cons.1 h
    refine (hcheck.runBoth source target).bind fun t' ht' ↦ ?_
    rw [List.any_cons]
    cases answers.passesBoth source target check with
    | false => exact ih fun check hmem ↦ (hchecks check hmem).congr ht'
    | true => exact Tx.yields_pure

theorem yields_combine (op : CombineOp) (source target : Address)
    (hfrozen : answers.frozen breaker = false)
    (h : ∀ check ∈ checks, AnsweredAt callees answers f t check) :
    Tx.Yields f (combine callees checks op source target)
      (resultOf answers breaker checks op source target) t := by
  unfold resultOf
  rw [hfrozen, if_neg Bool.false_ne_true]
  cases op with
  | all => exact yields_evaluateAll h 0
  | any =>
    cases checks with
    | nil => exact Tx.yields_pure
    | cons check checks =>
      refine (yields_evaluateAny h).bind fun t' _ ↦ ?_
      cases (check :: checks).any (answers.passesBoth source target) with
      | false => exact Tx.yields_pure
      | true => exact Tx.yields_pure

/-- The configured breaker, where there is one, is answered as by `answers`. -/
def BreakerAnswered (callees : Callees Address σ) (answers : Answers Address) (f : σ → γ) (t : σ)
    (breaker : Option Address) : Prop :=
  ∀ t', f t' = f t → Tx.Yields f (breakerFrozen callees breaker) (answers.frozen breaker) t'

variable {s : State Address}

/-- **The evaluation of a pair**: its result, and one event about it. -/
theorem evaluateInner_answered (op : CombineOp) (source target : Address)
    (hbreaker : BreakerAnswered callees answers f t s.circuitBreaker)
    (h : ∀ check ∈ checks, AnsweredAt callees answers f t check) :
    ∃ t', evaluateInner callees checks op source target (s, t) =
        .ok (resultOf answers s.circuitBreaker checks op source target,
          s.emit [resultEvent answers s.circuitBreaker checks op (source, target)], t') ∧
      f t' = f t := by
  obtain ⟨t₁, hasked, hkeep⟩ := hbreaker t rfl
  have hread : Tx.onFst (Tx.get : Op Address (State Address)) (s, t) = .ok (s, s, t) := rfl
  have hasked' : Tx.onSnd (breakerFrozen callees s.circuitBreaker) (s, t) =
      .ok (answers.frozen s.circuitBreaker, s, t₁) := Tx.onSnd_eq_ok_iff.2 ⟨hasked, rfl⟩
  rw [evaluateInner, Tx.bind_of_ok hread, Tx.bind_of_ok hasked', resultEvent]
  -- the breaker in front is asked first, and decides alone if it is frozen
  rcases hfrozen : answers.frozen s.circuitBreaker with _ | _
  · obtain ⟨t', hrun, hkeep'⟩ := yields_combine op source target hfrozen
      fun check hmem ↦ (h check hmem).congr hkeep
    have hrun' : Tx.onSnd (combine callees checks op source target) (s, t₁) =
        .ok (resultOf answers s.circuitBreaker checks op source target, s, t') :=
      Tx.onSnd_eq_ok_iff.2 ⟨hrun, rfl⟩
    refine ⟨t', ?_, hkeep'.trans hkeep⟩
    rw [if_neg Bool.false_ne_true, Tx.bind_of_ok hrun']
    rfl
  · refine ⟨t₁, ?_, hkeep⟩
    unfold resultOf
    rw [hfrozen, if_pos rfl, if_pos rfl]
    rfl

/-- The loop over the pairs of a batch, by induction on the pairs left. -/
theorem foldlM_answered (op : CombineOp)
    (hbreaker : BreakerAnswered callees answers f t s.circuitBreaker)
    (h : ∀ check ∈ checks, AnsweredAt callees answers f t check)
    (pairs : List (Address × Address)) (results : List Bool) :
    ∃ t', (pairs.foldlM (fun results pair ↦ do
          let result ← evaluateInner callees checks op pair.1 pair.2
          pure (results ++ [result.1])) results :
            Tx Error (State Address × σ) (List Bool)) (s, t) =
        .ok (results ++ pairs.map fun pair ↦
            (resultOf answers s.circuitBreaker checks op pair.1 pair.2).1,
          s.emit (pairs.map (resultEvent answers s.circuitBreaker checks op)), t') ∧
      f t' = f t := by
  induction pairs generalizing results s t with
  | nil =>
    refine ⟨t, ?_, rfl⟩
    rw [List.map_nil, List.map_nil, List.append_nil, State.emit, List.append_nil]
    rfl
  | cons pair pairs ih =>
    obtain ⟨t₁, hrun, hkeep⟩ := evaluateInner_answered op pair.1 pair.2 hbreaker h
    obtain ⟨t', hrest, hkeep'⟩ :=
      ih (s := s.emit [resultEvent answers s.circuitBreaker checks op pair]) (t := t₁)
        (fun u hu ↦ hbreaker u (hu.trans hkeep)) (fun check hmem ↦ (h check hmem).congr hkeep)
        (results ++ [(resultOf answers s.circuitBreaker checks op pair.1 pair.2).1])
    refine ⟨t', ?_, hkeep'.trans hkeep⟩
    rw [List.foldlM_cons]
    refine (Tx.bind_of_ok (Tx.bind_of_ok hrun)).trans (hrest.trans ?_)
    simp [State.emit]

end

end PolicyEngine

namespace Composition

variable {Address : Type} [DecidableEq Address]

/-! ### The answers of the deployed contracts -/

/-- The answer to a question asked of the deployed contracts alone, if there is one. -/
def asked {α : Type} (question : Tx PolicyEngine.Error (World Address) α) (w : World Address) :
    Option α :=
  match question w with
  | .ok (answer, _) => some answer
  | .error _ => none

/-- **What the deployed contracts answer** to each question alone. A question that is not answered
counts as answered with `false`. -/
def World.answers (env : Env Address) (w : World Address) : PolicyEngine.Answers Address where
  check contract address := (asked ((callees env).check contract address) w).getD false
  tryIsPermittedJurisdiction contract address allowedCodes :=
    (asked ((callees env).tryIsPermittedJurisdiction contract address allowedCodes) w).join
  isAllowed contract address := (asked ((callees env).isAllowed contract address) w).getD false
  isFrozen contract := (asked ((callees env).isFrozen contract) w).getD false

/-- The contract a check asks is **in place**: it is of the kind of the check, and a breaker is
initialized. A flag is asked through `try_`, and need not be. -/
def InPlace (w : World Address) : PolicyEngine.CheckKind Address → Prop
  | .denylist contract => ∃ s, w.gate contract = some s
  | .jurisdiction _ _ => True
  | .allowlist contract => ∃ s, w.token contract = some s
  | .circuitBreaker contract => ∃ s, w.breaker contract = some s ∧ s.admin.isSome = true

section

variable {env : Env Address} {w w' : World Address} {check : PolicyEngine.CheckKind Address}
  {a : Address}

omit [DecidableEq Address] in
theorem inPlace_congr (h : w'.silent = w.silent) : InPlace w' check ↔ InPlace w check := by
  cases check with
  | denylist contract => rw [InPlace, InPlace, ← gate_silent w', h, gate_silent]
  | jurisdiction _ _ => exact Iff.rfl
  | allowlist contract => rw [InPlace, InPlace, ← token_silent w', h, token_silent]
  | circuitBreaker contract => rw [InPlace, InPlace, ← breaker_silent w', h, breaker_silent]

/-- A contract in place answers. -/
theorem InPlace.exists_answer (h : InPlace w check) (env : Env Address) (a : Address) :
    ∃ r, PolicyEngine.runCheck (callees env) check a w = .ok r := by
  cases check with
  | denylist contract =>
    obtain ⟨s, hs⟩ := h
    refine ⟨(DenylistGate.check s a, w.put contract (.denylistGate s)), ?_⟩
    simp [PolicyEngine.runCheck, callees, Tx.within_eq_ok_iff, hs]
  -- behind `try_`, a failure is an answer too
  | jurisdiction contract allowedCodes =>
    rcases hflag : Tx.within (fun w : World Address ↦ w.flag contract)
        (fun s ↦ World.put contract (.jurisdictionFlag s))
        (JurisdictionFlag.isPermittedJurisdiction env a allowedCodes) w with e | ⟨answer, w'⟩
    · exact ⟨_, Tx.bind_of_ok (Tx.attempt_of_error hflag)⟩
    · exact ⟨_, Tx.bind_of_ok (Tx.attempt_of_ok hflag)⟩
  | allowlist contract =>
    obtain ⟨s, hs⟩ := h
    refine ⟨(AllowlistToken.isAllowed env.sequence s a, w.put contract (.allowlistToken s)), ?_⟩
    simp [PolicyEngine.runCheck, callees, Tx.within_eq_ok_iff, hs]
  | circuitBreaker contract =>
    obtain ⟨s, hs, hadmin⟩ := h
    have hrun : (callees env).isFrozen contract w =
        .ok (s.frozen.getD false, w.put contract (.circuitBreaker s)) := by
      simp [callees, Tx.within_eq_ok_iff, hs, CircuitBreaker.isFrozen, hadmin]
    exact ⟨_, Tx.bind_of_ok hrun⟩

/-- Whether a party passes is what the check answers alone. -/
theorem passes_answers_of_ok {b : Bool}
    (h : PolicyEngine.runCheck (callees env) check a w = .ok (b, w')) :
    (w.answers env).passes check a = b := by
  cases check with
  | denylist contract =>
    have hasked : (callees env).check contract a w = .ok (b, w') := h
    simp [PolicyEngine.Answers.passes, World.answers, asked, hasked]
  | jurisdiction contract allowedCodes =>
    obtain ⟨answer, w₁, hasked, hanswer⟩ := Tx.bind_eq_ok_iff.1 h
    obtain ⟨rfl, -⟩ := Tx.pure_eq_ok_iff.1 hanswer
    simp [PolicyEngine.Answers.passes, World.answers, asked, hasked]
  | allowlist contract =>
    have hasked : (callees env).isAllowed contract a w = .ok (b, w') := h
    simp [PolicyEngine.Answers.passes, World.answers, asked, hasked]
  | circuitBreaker contract =>
    obtain ⟨frozen, w₁, hasked, hanswer⟩ := Tx.bind_eq_ok_iff.1 h
    obtain ⟨rfl, -⟩ := Tx.pure_eq_ok_iff.1 hanswer
    simp [PolicyEngine.Answers.passes, World.answers, asked, hasked]

/-- **The answers are what the checks ask** of the contracts that are in place. -/
theorem passes_answers_iff (h : InPlace w check) (env : Env Address) (a : Address) :
    (w.answers env).passes check a = true ↔ Passes env.sequence w check a := by
  obtain ⟨⟨b, w'⟩, hrun⟩ := h.exists_answer env a
  have hcloses := failsClosed_runCheck env check a w
  rw [Tx.FailsClosed, hrun] at hcloses
  rw [passes_answers_of_ok hrun]
  exact hcloses.2

/-- **A contract in place is answered as alone**, whatever was asked before. -/
theorem InPlace.answeredAt (h : InPlace w check) (env : Env Address) :
    PolicyEngine.AnsweredAt (callees env) (w.answers env) World.silent w check := by
  intro a w₁ hw₁
  obtain ⟨⟨b, w'⟩, hrun⟩ := ((inPlace_congr hw₁).2 h).exists_answer env a
  have hcloses := failsClosed_runCheck env check a w₁
  rw [Tx.FailsClosed, hrun] at hcloses
  have hb : b = (w.answers env).passes check a := by
    rw [Bool.eq_iff_iff, passes_answers_iff h, ← passes_congr hw₁]
    exact hcloses.2
  exact ⟨w', hb ▸ hrun, hcloses.1⟩

/-- The breaker in front is the check of that breaker, the other way round. -/
theorem breakerAnswered {breaker : Option Address}
    (h : ∀ b, breaker = some b → InPlace w (.circuitBreaker b)) :
    PolicyEngine.BreakerAnswered (callees env) (w.answers env) World.silent w breaker := by
  intro w₁ hw₁
  cases breaker with
  | none => exact Tx.yields_pure
  | some b =>
    obtain ⟨w', hrun, hkeep⟩ := (h b rfl).answeredAt env b w₁ hw₁
    obtain ⟨frozen, w₂, hasked, hanswer⟩ := Tx.bind_eq_ok_iff.1 hrun
    obtain ⟨hfrozen, rfl⟩ := Tx.pure_eq_ok_iff.1 hanswer
    have heq : (w.answers env).frozen (some b) = frozen := by
      simpa [PolicyEngine.Answers.passes, PolicyEngine.Answers.frozen] using hfrozen
    rw [heq]
    exact ⟨w', hasked, hkeep⟩

/-- **An evaluation over deployed contracts.** If the contracts that are asked are in place, the
entry points of the engine answer as specified for what these answer alone, which is what the checks
ask of their states; each pair publishes one event; and of the contracts, at most the events of
flags change. -/
theorem evaluation_live (env : Env Address) (w : World Address) {s : PolicyEngine.State Address}
    {checks : List (PolicyEngine.CheckKind Address)} {op : PolicyEngine.CombineOp}
    (hchecks : s.checks = some checks) (hop : s.combineOp = some op)
    (hbreaker : ∀ b, s.circuitBreaker = some b → InPlace w (.circuitBreaker b))
    (hplace : ∀ check ∈ checks, InPlace w check) :
    (∀ check ∈ checks, ∀ a,
      (w.answers env).passes check a = true ↔ Passes env.sequence w check a) ∧
    ∃ result : Address × Address → Bool × Option PolicyEngine.CheckFailure,
      (∀ pair, PolicyEngine.Specified (w.answers env) s.circuitBreaker checks op pair.1 pair.2
        (result pair)) ∧
      (∀ pair, ∃ w', PolicyEngine.evaluateVerbose (callees env) pair.1 pair.2 (s, w) =
          .ok (result pair, s.emit [.policyResult (result pair).1 pair.1 pair.2], w') ∧
        w'.silent = w.silent) ∧
      (∀ pair, ∃ w', PolicyEngine.evaluate (callees env) pair.1 pair.2 (s, w) =
          .ok ((result pair).1, s.emit [.policyResult (result pair).1 pair.1 pair.2], w') ∧
        w'.silent = w.silent) ∧
      ∀ pairs, ∃ w', PolicyEngine.batchEvaluate (callees env) pairs (s, w) =
          .ok (pairs.map fun pair ↦ (result pair).1,
            s.emit (pairs.map fun pair ↦ .policyResult (result pair).1 pair.1 pair.2), w') ∧
        w'.silent = w.silent := by
  have hanswered : PolicyEngine.BreakerAnswered (callees env) (w.answers env) World.silent w
      s.circuitBreaker := breakerAnswered hbreaker
  have heach : ∀ check ∈ checks,
      PolicyEngine.AnsweredAt (callees env) (w.answers env) World.silent w check :=
    fun check hmem ↦ (hplace check hmem).answeredAt env
  refine ⟨fun check hmem ↦ passes_answers_iff (hplace check hmem) env,
    fun pair ↦ PolicyEngine.resultOf (w.answers env) s.circuitBreaker checks op pair.1 pair.2,
    fun pair ↦ PolicyEngine.specified_resultOf _ _ _ _ _ _, fun pair ↦ ?_, fun pair ↦ ?_,
    fun pairs ↦ ?_⟩
  · obtain ⟨w', hrun, hkeep⟩ := PolicyEngine.evaluateInner_answered op pair.1 pair.2 hanswered
      heach
    refine ⟨w', ?_, hkeep⟩
    rw [PolicyEngine.evaluateVerbose,
      Tx.bind_of_ok (PolicyEngine.onFst_loadPolicy hchecks hop w)]
    exact hrun
  · obtain ⟨w', hrun, hkeep⟩ := PolicyEngine.evaluateInner_answered op pair.1 pair.2 hanswered
      heach
    refine ⟨w', ?_, hkeep⟩
    rw [PolicyEngine.evaluate, Tx.bind_of_ok (PolicyEngine.onFst_loadPolicy hchecks hop w)]
    exact Tx.bind_of_ok hrun
  · obtain ⟨w', hrun, hkeep⟩ :=
      PolicyEngine.foldlM_answered op hanswered heach pairs []
    refine ⟨w', ?_, hkeep⟩
    rw [PolicyEngine.batchEvaluate, Tx.bind_of_ok (PolicyEngine.onFst_loadPolicy hchecks hop w)]
    exact hrun

end

/-- The mixed policy under the other operator, with all of its contracts in place. -/
def anyPolicy : PolicyEngine.State ℕ := { mixedPolicy 4 with combineOp := some .any }

theorem inPlace_mixed : ∀ check ∈ mixedChecks ++ [.circuitBreaker 4], InPlace mixedWorld check := by
  simp [mixedChecks, InPlace, mixedWorld, World.gate, World.token, World.breaker]

/-- A batch over the mixed world is answered pair by pair. -/
theorem evaluation_live_mixed :
    ∃ result : ℕ × ℕ → Bool × Option PolicyEngine.CheckFailure,
      ∃ w', PolicyEngine.batchEvaluate (callees ⟨90, 0, fun _ ↦ true⟩) [(10, 11), (11, 12)]
          (anyPolicy, mixedWorld) =
        .ok ([(result (10, 11)).1, (result (11, 12)).1],
          anyPolicy.emit [.policyResult (result (10, 11)).1 10 11,
            .policyResult (result (11, 12)).1 11 12], w') ∧
        w'.silent = mixedWorld.silent := by
  have hfront : ∀ b, anyPolicy.circuitBreaker = some b →
      InPlace mixedWorld (.circuitBreaker b) := by
    rintro b ⟨⟩
    exact inPlace_mixed _ (by simp)
  obtain ⟨-, result, -, -, -, hbatch⟩ :=
    evaluation_live ⟨90, 0, fun _ ↦ true⟩ mixedWorld rfl rfl hfront inPlace_mixed
  exact ⟨result, hbatch [(10, 11), (11, 12)]⟩

end Composition
