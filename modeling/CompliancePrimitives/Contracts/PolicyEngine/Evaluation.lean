import CompliancePrimitives.Contracts.PolicyEngine

/-!
# What an evaluation answers

The callees as functions: `Answers` gives each question an answer that depends on nothing else, and
an answer is all a call has to offer (`Answers.callees`). What is left of an evaluation is then the
logic of the engine, and that is `Specified`: the breaker first, the first failing check under
`All`, any passing check under `Any`.

The three entry points share the evaluation of one pair. `evaluation_meets_spec` says of all of them
at once what they answer and what they publish.

`Specified` is the answer in words of the checks: under `All` the failure named is that of the
**first** failing check, by its index; under `Any` a failing evaluation names no check but the
marker `AllFailed`; no check at all passes `All` and fails `Any`. `resultOf` computes such an answer
(`specified_resultOf`), and each entry point returns what `resultOf` computes.
-/

namespace PolicyEngine

open Soroban

variable {Address : Type}

/-! ### Callees as functions -/

/-- What the callees answer to each question. -/
structure Answers (Address : Type) where
  /-- A gate clears an address. -/
  check : (contract address : Address) → Bool
  /-- `none` when the call fails. -/
  tryIsPermittedJurisdiction :
    (contract address : Address) → (allowedCodes : List Bytes) → Option Bool
  /-- An allowlist has an address. -/
  isAllowed : (contract address : Address) → Bool
  /-- A breaker is frozen. -/
  isFrozen : (contract : Address) → Bool

namespace Answers

variable (answers : Answers Address) {σ : Type}

/-- Callees that answer so and do nothing else. -/
def callees : Callees Address σ where
  check contract address := pure (answers.check contract address)
  tryIsPermittedJurisdiction contract address allowedCodes :=
    pure (answers.tryIsPermittedJurisdiction contract address allowedCodes)
  isAllowed contract address := pure (answers.isAllowed contract address)
  isFrozen contract := pure (answers.isFrozen contract)

/-- Whether an address passes a check. -/
def passes (check : CheckKind Address) (address : Address) : Bool :=
  match check with
  | .denylist contract => answers.check contract address
  | .jurisdiction contract allowedCodes =>
    decide (answers.tryIsPermittedJurisdiction contract address allowedCodes = some true)
  | .allowlist contract => answers.isAllowed contract address
  | .circuitBreaker contract => !answers.isFrozen contract

/-- Whether both addresses of a pair pass a check. -/
def passesBoth (source target : Address) (check : CheckKind Address) : Bool :=
  answers.passes check source && answers.passes check target

/-- Whether a configured breaker is frozen. -/
def frozen (breaker : Option Address) : Bool :=
  breaker.elim false answers.isFrozen

end Answers

/-! ### The specification -/

/-- **The first failing check** of a list, for a pair. -/
structure FirstFailure (answers : Answers Address) (checks : List (CheckKind Address))
    (source target : Address) (failure : CheckFailure) : Prop where
  /-- The check at its index fails for one of the two, and is of its kind. -/
  fails : ∃ check, checks[failure.checkIndex]? = some check ∧
    failure.kind = checkKindSymbol check ∧ answers.passesBoth source target check = false
  /-- All checks before it pass for both. -/
  first : ∀ i < failure.checkIndex, ∀ check, checks[i]? = some check →
    answers.passesBoth source target check = true

/-- **What an evaluation is to answer** about a pair. -/
structure Specified (answers : Answers Address) (breaker : Option Address)
    (checks : List (CheckKind Address)) (op : CombineOp) (source target : Address)
    (result : Bool × Option CheckFailure) : Prop where
  /-- A frozen breaker in front denies, without a reason. -/
  frozen : answers.frozen breaker = true → result = (false, none)
  /-- With `All`, the pair passes if every check passes for both. -/
  all_passes : answers.frozen breaker = false → op = .all →
    (result = (true, none) ↔ ∀ check ∈ checks, answers.passesBoth source target check = true)
  /-- With `All`, the reason is the first check that fails. -/
  all_fails : answers.frozen breaker = false → op = .all →
    (¬∀ check ∈ checks, answers.passesBoth source target check = true) →
      ∃ failure, result = (false, some failure) ∧
        FirstFailure answers checks source target failure
  /-- With `Any`, the pair passes if some check passes for both. -/
  any_passes : answers.frozen breaker = false → op = .any →
    (result = (true, none) ↔ ∃ check ∈ checks, answers.passesBoth source target check = true)
  /-- With `Any`, the reason is that all fail, -/
  any_fails : answers.frozen breaker = false → op = .any →
    (¬∃ check ∈ checks, answers.passesBoth source target check = true) → checks ≠ [] →
      result = (false, some { checkIndex := u32Max, kind := "AllFailed" })
  /-- unless there is no check at all: then there is none. -/
  any_empty : answers.frozen breaker = false → op = .any → checks = [] → result = (false, none)

/-! ### The result as a function -/

/-- The result of the loop of `CombineOp::All` over some checks, from index `i` on. -/
def allResult (answers : Answers Address) (source target : Address) (i : ℕ)
    (checks : List (CheckKind Address)) : Bool × Option CheckFailure :=
  match checks.findIdx? (!answers.passesBoth source target ·) with
  | none => (true, none)
  | some j =>
    (false, checks[j]?.map fun check ↦ { checkIndex := i + j, kind := checkKindSymbol check })

/-- The result of an evaluation. -/
def resultOf (answers : Answers Address) (breaker : Option Address)
    (checks : List (CheckKind Address)) (op : CombineOp) (source target : Address) :
    Bool × Option CheckFailure :=
  if answers.frozen breaker then (false, none)
  else
    match op with
    | .all => allResult answers source target 0 checks
    | .any =>
      if checks.any (answers.passesBoth source target) then (true, none)
      else if checks.isEmpty then (false, none)
      else (false, some { checkIndex := u32Max, kind := "AllFailed" })

section

variable {answers : Answers Address} {σ : Type} {breaker : Option Address}
  {checks : List (CheckKind Address)} {op : CombineOp} {source target : Address}

theorem runCheck_callees (check : CheckKind Address) (address : Address) :
    runCheck (answers.callees : Callees Address σ) check address =
      pure (answers.passes check address) := by
  cases check <;> rfl

theorem runBoth_callees (check : CheckKind Address) (source target : Address) :
    runBoth (answers.callees : Callees Address σ) check source target =
      pure (answers.passesBoth source target check) := by
  rw [runBoth, runCheck_callees, runCheck_callees, Answers.passesBoth]
  show (if answers.passes check source = true then pure (answers.passes check target)
    else pure false : Tx Error σ Bool) = _
  cases answers.passes check source <;> rfl

theorem allResult_cons (check : CheckKind Address) (i : ℕ) :
    allResult answers source target i (check :: checks) =
      if answers.passesBoth source target check then allResult answers source target (i + 1) checks
      else (false, some { checkIndex := i, kind := checkKindSymbol check }) := by
  rw [allResult, List.findIdx?_cons]
  rcases answers.passesBoth source target check with _ | _
  · rfl
  rw [allResult]
  rcases checks.findIdx? (!answers.passesBoth source target ·) with _ | j
  · rfl
  · have hindex : i + (j + 1) = i + 1 + j := by omega
    simp [hindex]

/-- The loop of the `All` operator, by induction on the checks left. -/
theorem evaluateAll_callees (i : ℕ) :
    evaluateAll (answers.callees : Callees Address σ) source target i checks =
      pure (allResult answers source target i checks) := by
  induction checks generalizing i with
  | nil => rfl
  | cons check checks ih =>
    rw [evaluateAll, runBoth_callees, allResult_cons]
    show (if answers.passesBoth source target check = true then
      evaluateAll answers.callees source target (i + 1) checks else _) = _
    cases answers.passesBoth source target check
    · rfl
    · exact ih (i + 1)

/-- The loop of the `Any` operator. -/
theorem evaluateAny_callees :
    evaluateAny (answers.callees : Callees Address σ) source target checks =
      pure (checks.any (answers.passesBoth source target)) := by
  induction checks with
  | nil => rfl
  | cons check checks ih =>
    rw [evaluateAny, runBoth_callees, List.any_cons]
    show (if answers.passesBoth source target check = true then pure true
      else evaluateAny answers.callees source target checks) = _
    cases answers.passesBoth source target check
    · exact ih
    · rfl

theorem breakerFrozen_callees (breaker : Option Address) :
    breakerFrozen (answers.callees : Callees Address σ) breaker =
      pure (answers.frozen breaker) := by
  cases breaker <;> rfl

theorem combine_callees (hfrozen : answers.frozen breaker = false) :
    combine (answers.callees : Callees Address σ) checks op source target =
      pure (resultOf answers breaker checks op source target) := by
  unfold resultOf
  rw [if_neg (by rw [hfrozen]; exact Bool.false_ne_true)]
  cases op with
  | all => exact evaluateAll_callees 0
  | any =>
    cases checks with
    | nil => rfl
    | cons check checks =>
      rw [combine, evaluateAny_callees]
      show (if (check :: checks).any (answers.passesBoth source target) = true then _ else _) = _
      cases (check :: checks).any (answers.passesBoth source target) <;> rfl

/-! ### The entry points -/

/-- A state with more events. -/
def State.emit (s : State Address) (events : List (Event Address)) : State Address :=
  { s with events := s.events ++ events }

/-- The event of a pair, with the boolean it was evaluated to. -/
def resultEvent (answers : Answers Address) (breaker : Option Address)
    (checks : List (CheckKind Address)) (op : CombineOp) (pair : Address × Address) :
    Event Address :=
  .policyResult (resultOf answers breaker checks op pair.1 pair.2).1 pair.1 pair.2

/-- **The evaluation of a pair**: its result, and one event about it. -/
theorem evaluateInner_callees (s : State Address) (t : σ) :
    evaluateInner answers.callees checks op source target (s, t) =
      .ok (resultOf answers s.circuitBreaker checks op source target,
        s.emit [resultEvent answers s.circuitBreaker checks op (source, target)], t) := by
  rw [resultEvent]
  rcases hfrozen : answers.frozen s.circuitBreaker with _ | _
  · simp only [evaluateInner, breakerFrozen_callees, combine_callees hfrozen]
    show (if answers.frozen s.circuitBreaker = true then _ else _ :
      Tx Error (State Address × σ) _) (s, t) = _
    rw [hfrozen]
    rfl
  · simp only [evaluateInner, breakerFrozen_callees, resultOf, hfrozen]
    show (if answers.frozen s.circuitBreaker = true then _ else _ :
      Tx Error (State Address × σ) _) (s, t) = _
    rw [hfrozen]
    rfl

theorem onFst_loadPolicy {s : State Address} (hchecks : s.checks = some checks)
    (hop : s.combineOp = some op) (t : σ) :
    Tx.onFst loadPolicy (s, t) = .ok ((checks, op), s, t) := by
  rw [Tx.onFst_eq_ok_iff]
  refine ⟨?_, rfl⟩
  simp [loadPolicy, loadChecks, hchecks, hop]

theorem evaluateVerbose_callees {s : State Address} (hchecks : s.checks = some checks)
    (hop : s.combineOp = some op) (t : σ) :
    evaluateVerbose answers.callees source target (s, t) =
      .ok (resultOf answers s.circuitBreaker checks op source target,
        s.emit [resultEvent answers s.circuitBreaker checks op (source, target)], t) := by
  rw [evaluateVerbose, Tx.bind_of_ok (onFst_loadPolicy hchecks hop t)]
  exact evaluateInner_callees s t

theorem evaluate_callees {s : State Address} (hchecks : s.checks = some checks)
    (hop : s.combineOp = some op) (t : σ) :
    evaluate answers.callees source target (s, t) =
      .ok ((resultOf answers s.circuitBreaker checks op source target).1,
        s.emit [resultEvent answers s.circuitBreaker checks op (source, target)], t) := by
  rw [evaluate, Tx.bind_of_ok (onFst_loadPolicy hchecks hop t)]
  exact Tx.bind_of_ok (evaluateInner_callees s t)

/-- The loop over the pairs of a batch, by induction on the pairs left. -/
theorem foldlM_callees (pairs : List (Address × Address)) (results : List Bool)
    (s : State Address) (t : σ) :
    (pairs.foldlM (fun results pair ↦ do
        let result ← evaluateInner answers.callees checks op pair.1 pair.2
        pure (results ++ [result.1])) results : Tx Error (State Address × σ) (List Bool)) (s, t) =
      .ok (results ++ pairs.map fun pair ↦
          (resultOf answers s.circuitBreaker checks op pair.1 pair.2).1,
        s.emit (pairs.map (resultEvent answers s.circuitBreaker checks op)), t) := by
  induction pairs generalizing results s with
  | nil =>
    rw [List.map_nil, List.map_nil, List.append_nil, State.emit, List.append_nil]
    rfl
  | cons pair pairs ih =>
    rw [List.foldlM_cons]
    refine (Tx.bind_of_ok (Tx.bind_of_ok (evaluateInner_callees s t))).trans ?_
    rw [ih]
    simp [State.emit]

theorem batchEvaluate_callees {s : State Address} (hchecks : s.checks = some checks)
    (hop : s.combineOp = some op) (pairs : List (Address × Address)) (t : σ) :
    batchEvaluate answers.callees pairs (s, t) =
      .ok (pairs.map fun pair ↦ (resultOf answers s.circuitBreaker checks op pair.1 pair.2).1,
        s.emit (pairs.map (resultEvent answers s.circuitBreaker checks op)), t) := by
  rw [batchEvaluate, Tx.bind_of_ok (onFst_loadPolicy hchecks hop t)]
  exact foldlM_callees pairs [] s t

/-! ### The specification is met -/

theorem FirstFailure.not_all {failure : CheckFailure}
    (h : FirstFailure answers checks source target failure) :
    ¬∀ check ∈ checks, answers.passesBoth source target check = true := by
  obtain ⟨check, hcheck, -, hfails⟩ := h.fails
  intro hall
  rw [hall check (List.mem_of_getElem? hcheck)] at hfails
  cases hfails

/-- The loop of the `All` operator passes, or names the first failing check. -/
theorem allResult_cases (answers : Answers Address) (checks : List (CheckKind Address))
    (source target : Address) :
    (allResult answers source target 0 checks = (true, none) ∧
        ∀ check ∈ checks, answers.passesBoth source target check = true) ∨
      ∃ failure, allResult answers source target 0 checks = (false, some failure) ∧
        FirstFailure answers checks source target failure := by
  rw [allResult]
  rcases hfind : checks.findIdx? (!answers.passesBoth source target ·) with _ | j
  · exact .inl ⟨rfl, by simpa using hfind⟩
  · obtain ⟨hj, hfails, hfirst⟩ := List.findIdx?_eq_some_iff_getElem.1 hfind
    have hcheck : checks[j]? = some checks[j] := List.getElem?_eq_getElem hj
    refine .inr ⟨⟨j, checkKindSymbol checks[j]⟩, ?_, ?_, ?_⟩
    · simp [hcheck]
    · exact ⟨checks[j], hcheck, rfl, by simpa using hfails⟩
    · intro i hi check hget
      have hlt : i < checks.length := hi.trans hj
      have hpasses := hfirst i hi
      rw [List.getElem?_eq_getElem hlt] at hget
      obtain rfl := Option.some.inj hget
      simpa using hpasses

/-- **The result is the specified one.** -/
theorem specified_resultOf (answers : Answers Address) (breaker : Option Address)
    (checks : List (CheckKind Address)) (op : CombineOp) (source target : Address) :
    Specified answers breaker checks op source target
      (resultOf answers breaker checks op source target) := by
  -- an open breaker leaves the answer to the operator
  have hall : answers.frozen breaker = false →
      resultOf answers breaker checks .all source target =
        allResult answers source target 0 checks := fun hfrozen ↦ by
    rw [resultOf, hfrozen, if_neg Bool.false_ne_true]
  have hany : answers.frozen breaker = false →
      resultOf answers breaker checks .any source target =
        if checks.any (answers.passesBoth source target) then (true, none)
        else if checks.isEmpty then (false, none)
        else (false, some { checkIndex := u32Max, kind := "AllFailed" }) := fun hfrozen ↦ by
    rw [resultOf, hfrozen, if_neg Bool.false_ne_true]
  -- the clauses of `Specified` in order, a frozen breaker first, then `All`, then `Any`
  constructor
  · intro hfrozen
    unfold resultOf
    rw [if_pos hfrozen]
  · rintro hfrozen rfl
    rw [hall hfrozen]
    obtain ⟨hresult, hpasses⟩ | ⟨failure, hresult, hfailure⟩ :=
      allResult_cases answers checks source target
    · rw [hresult]
      exact iff_of_true rfl hpasses
    · rw [hresult]
      exact iff_of_false (fun h ↦ by cases h) hfailure.not_all
  · rintro hfrozen rfl hnot
    rw [hall hfrozen]
    exact (allResult_cases answers checks source target).resolve_left fun h ↦ hnot h.2
  · rintro hfrozen rfl
    rw [hany hfrozen, ← List.any_eq_true]
    split_ifs with hpass hempty
    · exact iff_of_true rfl hpass
    · exact iff_of_false (fun h ↦ by cases h) hpass
    · exact iff_of_false (fun h ↦ by cases h) hpass
  · rintro hfrozen rfl hnot hne
    rw [hany hfrozen, if_neg (by rwa [List.any_eq_true]), if_neg (by simpa using hne)]
  · rintro hfrozen rfl rfl
    rw [hany hfrozen]
    rfl

end

/-- **An evaluation meets its specification.** Of an initialized engine, whatever the callees
answer: `evaluate_verbose` answers as specified, `evaluate` with the boolean of that, and
`batch_evaluate` with what `evaluate` answers for each pair; and each pair evaluated publishes one
event, which has the pair and its boolean, and nothing else is changed. -/
theorem evaluation_meets_spec (answers : Answers Address) {σ : Type} (t : σ) {s : State Address}
    {checks : List (CheckKind Address)} {op : CombineOp} (hchecks : s.checks = some checks)
    (hop : s.combineOp = some op) :
    ∃ result : Address × Address → Bool × Option CheckFailure,
      (∀ pair, Specified answers s.circuitBreaker checks op pair.1 pair.2 (result pair)) ∧
      (∀ pair, evaluateVerbose answers.callees pair.1 pair.2 (s, t) =
        .ok (result pair, s.emit [.policyResult (result pair).1 pair.1 pair.2], t)) ∧
      (∀ pair, evaluate answers.callees pair.1 pair.2 (s, t) =
        .ok ((result pair).1, s.emit [.policyResult (result pair).1 pair.1 pair.2], t)) ∧
      ∀ pairs, batchEvaluate answers.callees pairs (s, t) =
        .ok (pairs.map fun pair ↦ (result pair).1,
          s.emit (pairs.map fun pair ↦ .policyResult (result pair).1 pair.1 pair.2), t) :=
  ⟨fun pair ↦ resultOf answers s.circuitBreaker checks op pair.1 pair.2,
    fun pair ↦ specified_resultOf answers s.circuitBreaker checks op pair.1 pair.2,
    fun _ ↦ evaluateVerbose_callees hchecks hop t, fun _ ↦ evaluate_callees hchecks hop t,
    fun pairs ↦ batchEvaluate_callees hchecks hop pairs t⟩

/-- Callees of which the denylist refuses address 7, and the flag fails for everyone. -/
def refusingSeven : Answers ℕ where
  check _ address := decide (address ≠ 7)
  tryIsPermittedJurisdiction _ _ _ := none
  isAllowed _ _ := true
  isFrozen _ := false

/-- An engine with an allowlist and a denylist to ask, in this order. -/
def twoChecks : State ℕ :=
  { (deploy 0 : State ℕ) with
    admin := some 1
    checks := some [.allowlist 2, .denylist 3]
    combineOp := some .all
    circuitBreaker := some 4 }

theorem evaluation_meets_spec_twoChecks :
    ∃ result : ℕ × ℕ → Bool × Option CheckFailure,
      (∀ pair, Specified refusingSeven twoChecks.circuitBreaker [.allowlist 2, .denylist 3] .all
        pair.1 pair.2 (result pair)) ∧
      (∀ pair, evaluateVerbose refusingSeven.callees pair.1 pair.2 (twoChecks, ()) =
        .ok (result pair, twoChecks.emit [.policyResult (result pair).1 pair.1 pair.2], ())) ∧
      (∀ pair, evaluate refusingSeven.callees pair.1 pair.2 (twoChecks, ()) =
        .ok ((result pair).1,
          twoChecks.emit [.policyResult (result pair).1 pair.1 pair.2], ())) ∧
      ∀ pairs, batchEvaluate refusingSeven.callees pairs (twoChecks, ()) =
        .ok (pairs.map fun pair ↦ (result pair).1,
          twoChecks.emit (pairs.map fun pair ↦ .policyResult (result pair).1 pair.1 pair.2), ()) :=
  evaluation_meets_spec (s := twoChecks) refusingSeven () rfl rfl

/-- The second check fails for address 7, whenever it comes up. -/
example : (batchEvaluate refusingSeven.callees [(5, 7), (5, 6), (5, 7)] (twoChecks, ())).map
    Prod.fst = .ok [false, true, false] := by
  rfl

end PolicyEngine
