import CompliancePrimitives.Contracts.PolicyEngine.Evaluation

/-!
# The order of the checks

`swap_checks` is there so that an issuer can put the cheap checks first. It may change which callees
are asked, and which failing check `evaluate_verbose` names, but not the decision: under either
operator the boolean of an evaluation depends on the checks as a multiset (`resultOf_perm`), and a
swap leaves that alone (`Swapped`).

A swap is its own inverse, on the whole state: the entry point extends no time to live and publishes
nothing.

Decisions are compared with the callees as functions (`Answers`), so that a question is answered the
same whenever it is asked. `swap_checks` writes two positions one after the other, and `Swapped`
says that together the writes exchange them: the list is a permutation of what it was, the two
positions have each other's check, and all others are as before.
-/

namespace PolicyEngine

open Soroban

variable {Address : Type}

/-! ### Two positions exchanged -/

/-- **The second list is the first with two positions exchanged.** -/
structure Swapped {α : Type} (i j : ℕ) (checks checks' : List α) : Prop where
  /-- No check is lost or comes to be there twice. -/
  perm : checks'.Perm checks
  /-- The one position has what the other had, -/
  left : checks'[i]? = checks[j]?
  /-- and the other way round. -/
  right : checks'[j]? = checks[i]?
  /-- All others are as they were. -/
  others : ∀ k, k ≠ i → k ≠ j → checks'[k]? = checks[k]?

theorem swapped_self {α : Type} (i : ℕ) (checks : List α) : Swapped i i checks checks :=
  ⟨.refl _, rfl, rfl, fun _ _ _ ↦ rfl⟩

/-- The two writes of `swap_checks`, as positions. -/
theorem getElem?_set_set {α : Type} {checks : List α} {i j : ℕ} {checkI checkJ : α}
    (hi : checks[i]? = some checkI) (hj : checks[j]? = some checkJ) (k : ℕ) :
    ((checks.set i checkJ).set j checkI)[k]? =
      if k = j then some checkI else if k = i then some checkJ else checks[k]? := by
  obtain ⟨hilt, -⟩ := List.getElem?_eq_some_iff.1 hi
  obtain ⟨hjlt, -⟩ := List.getElem?_eq_some_iff.1 hj
  rw [List.getElem?_set, List.length_set, List.getElem?_set]
  split_ifs with hkj hkj' hki hki' <;> first | rfl | omega

/-- The two writes of `swap_checks`. -/
theorem swapped_set_set {α : Type} {checks : List α} {i j : ℕ} {checkI checkJ : α} (hne : i ≠ j)
    (hi : checks[i]? = some checkI) (hj : checks[j]? = some checkJ) :
    Swapped i j checks ((checks.set i checkJ).set j checkI) := by
  have hget := getElem?_set_set hi hj
  obtain ⟨hilt, hi'⟩ := List.getElem?_eq_some_iff.1 hi
  obtain ⟨hjlt, hj'⟩ := List.getElem?_eq_some_iff.1 hj
  refine ⟨?_, ?_, ?_, fun k hki hkj ↦ ?_⟩
  · rw [← hi', ← hj']
    exact List.set_set_perm hilt hjlt
  · rw [hget, if_neg hne, if_pos rfl, hj]
  · rw [hget, if_pos rfl, hi]
  · rw [hget, if_neg hkj, if_neg hki]

/-- Exchanging them again. -/
theorem set_set_cancel {α : Type} {checks : List α} {i j : ℕ} {checkI checkJ : α} (hne : i ≠ j)
    (hi : checks[i]? = some checkI) (hj : checks[j]? = some checkJ) :
    (((checks.set i checkJ).set j checkI).set i checkI).set j checkJ = checks := by
  have hswapped := swapped_set_set hne hi hj
  have hleft := hswapped.left.trans hj
  have hright := hswapped.right.trans hi
  refine List.ext_getElem? fun k ↦ ?_
  rw [getElem?_set_set hleft hright]
  split_ifs with hkj hki
  · rw [hkj, hj]
  · rw [hki, hi]
  · exact hswapped.others k hki hkj

/-! ### Decisions -/

section

variable {answers : Answers Address} {breaker : Option Address} {op : CombineOp}
  {checks checks' : List (CheckKind Address)} {source target : Address}

/-- The loop of the `All` operator, as far as its boolean goes. -/
theorem allResult_fst (answers : Answers Address) (source target : Address) (i : ℕ)
    (checks : List (CheckKind Address)) :
    (allResult answers source target i checks).1 =
      checks.all (answers.passesBoth source target) := by
  induction checks generalizing i with
  | nil => rfl
  | cons check checks ih =>
    rw [allResult_cons, List.all_cons]
    cases answers.passesBoth source target check
    · rfl
    · exact ih (i + 1)

/-- The boolean of an evaluation. -/
theorem resultOf_fst :
    (resultOf answers breaker checks op source target).1 =
      (!answers.frozen breaker &&
        match op with
        | .all => checks.all (answers.passesBoth source target)
        | .any => checks.any (answers.passesBoth source target)) := by
  unfold resultOf
  cases answers.frozen breaker
  · cases op with
    | all => exact allResult_fst answers source target 0 checks
    | any =>
      -- what is named on a failure differs for an empty list, the boolean does not
      cases checks.any (answers.passesBoth source target) <;> cases checks.isEmpty <;> rfl
  · rfl

/-- **A decision does not depend on the order of the checks**, under either operator. -/
theorem resultOf_perm (h : checks'.Perm checks) :
    (resultOf answers breaker checks' op source target).1 =
      (resultOf answers breaker checks op source target).1 := by
  rw [resultOf_fst, resultOf_fst]
  cases op with
  | all => rw [h.all_eq]
  | any => rw [h.any_eq]

end

/-- What `evaluate` answers about a pair, if it completes. -/
def decision (answers : Answers Address) {σ : Type} (t : σ) (source target : Address)
    (s : State Address) : Except (Failure Error) Bool :=
  (evaluate answers.callees source target (s, t)).map Prod.fst

theorem decision_of_policy (answers : Answers Address) {σ : Type} (t : σ)
    (source target : Address) {s : State Address} {checks : List (CheckKind Address)}
    {op : CombineOp} (hchecks : s.checks = some checks) (hop : s.combineOp = some op) :
    decision answers t source target s =
      .ok (resultOf answers s.circuitBreaker checks op source target).1 := by
  rw [decision, evaluate_callees hchecks hop]
  rfl

/-- Without a policy there is no decision. -/
theorem decision_of_no_policy (answers : Answers Address) {σ : Type} (t : σ)
    (source target : Address) {s : State Address} (h : s.checks = none ∨ s.combineOp = none) :
    decision answers t source target s = .error (.error .notInitialized) := by
  have hload : loadPolicy s = .error (.error .notInitialized) := by
    rcases hchecks : s.checks with _ | checks
    · refine Tx.bind_of_error ((Tx.bind_of_ok rfl).trans ?_)
      rw [hchecks]
      rfl
    · have hnone : s.combineOp = none := h.resolve_left (by rw [hchecks]; exact nofun)
      have hread : loadChecks s = .ok (checks, s) := by simp [loadChecks, hchecks]
      refine (Tx.bind_of_ok hread).trans ((Tx.bind_of_ok rfl).trans (Tx.bind_of_error ?_))
      rw [hnone]
      rfl
  have honFst : Tx.onFst loadPolicy (s, t) = .error (.error .notInitialized) :=
    Tx.within_of_error rfl hload
  rw [decision, evaluate, Tx.bind_of_error honFst]
  rfl

/-- Two engines with the same policy up to the order of its checks decide alike. -/
theorem decision_congr (answers : Answers Address) {σ : Type} (t : σ) (source target : Address)
    {s s' : State Address} {checks checks' : List (CheckKind Address)}
    (hchecks : s.checks = some checks) (hchecks' : s'.checks = some checks')
    (hperm : checks'.Perm checks) (hop : s'.combineOp = s.combineOp)
    (hbreaker : s'.circuitBreaker = s.circuitBreaker) :
    decision answers t source target s' = decision answers t source target s := by
  rcases hs : s.combineOp with _ | op
  · rw [decision_of_no_policy answers t source target (.inr (hop.trans hs)),
      decision_of_no_policy answers t source target (.inr hs)]
  · rw [decision_of_policy answers t source target hchecks' (hop.trans hs),
      decision_of_policy answers t source target hchecks hs, hbreaker, resultOf_perm hperm]

/-! ### The entry point -/

section

variable [DecidableEq Address] {env : Env Address} {admin : Address} {i j : ℕ}
  {s s' : State Address} {u : Unit}

/-- What a completed `swap_checks` has done: nothing for equal indices, whatever they are. -/
theorem swapChecks_eq_ok_iff :
    swapChecks env admin i j s = .ok (u, s') ↔
      env.auths admin = true ∧ s.admin = some admin ∧
        ((i = j ∧ s' = s) ∨
          (i ≠ j ∧ ∃ checks checkI checkJ, s.checks = some checks ∧ checks[i]? = some checkI ∧
            checks[j]? = some checkJ ∧
            s' = { s with checks := some ((checks.set i checkJ).set j checkI) })) := by
  by_cases hij : i = j
  · simp [swapChecks, requireAdmin, hij, and_assoc]
  · simp [swapChecks, requireAdmin, loadChecks, hij, and_assoc]

/-- **A completed swap** exchanges two positions and changes nothing else. -/
theorem swapped_of_ok (h : swapChecks env admin i j s = .ok (u, s')) :
    ∃ checks', s' = { s with checks := checks' } ∧
      Swapped i j (s.checks.getD []) (checks'.getD []) ∧ checks'.isSome = s.checks.isSome := by
  obtain ⟨-, -, ⟨rfl, rfl⟩ | ⟨hne, checks, checkI, checkJ, hchecks, hi, hj, rfl⟩⟩ :=
    swapChecks_eq_ok_iff.1 h
  · exact ⟨s'.checks, rfl, swapped_self i _, rfl⟩
  · refine ⟨_, rfl, ?_, ?_⟩
    · rw [hchecks]
      exact swapped_set_set hne hi hj
    · rw [hchecks]
      rfl

/-- **Swapping again** takes the whole state back. -/
theorem swapChecks_again {env' : Env Address} (h : swapChecks env admin i j s = .ok (u, s'))
    (hauth : env'.auths admin = true) : swapChecks env' admin i j s' = .ok ((), s) := by
  obtain ⟨-, hadmin, ⟨hij, rfl⟩ | ⟨hne, checks, checkI, checkJ, hchecks, hi, hj, rfl⟩⟩ :=
    swapChecks_eq_ok_iff.1 h
  · exact swapChecks_eq_ok_iff.2 ⟨hauth, hadmin, .inl ⟨hij, rfl⟩⟩
  · have hswapped := swapped_set_set hne hi hj
    refine swapChecks_eq_ok_iff.2 ⟨hauth, hadmin, .inr ⟨hne, _, checkJ, checkI, rfl,
      hswapped.left.trans hj, hswapped.right.trans hi, ?_⟩⟩
    rw [set_set_cancel hne hi hj, ← hchecks]

/-- Whether or not the swap completes, no decision changes. -/
theorem decision_commit_swapChecks (answers : Answers Address) {σ : Type} (t : σ)
    (source target : Address) (env : Env Address) (admin : Address) (i j : ℕ)
    (s : State Address) :
    decision answers t source target ((swapChecks env admin i j).commit s).2 =
      decision answers t source target s := by
  rcases Tx.commit_answer (swapChecks env admin i j) s with ⟨_, -, hok⟩ | ⟨-, hkept⟩
  · obtain ⟨checks', hpost, hswapped, hsome⟩ := swapped_of_ok hok
    rw [hpost]
    rcases hchecks : s.checks with _ | checks
    · have hchecks' : checks' = none := by simpa [hchecks] using hsome
      rw [decision_of_no_policy answers t source target (.inl hchecks),
        decision_of_no_policy answers t source target (.inl hchecks')]
    · rw [hchecks] at hswapped hsome
      obtain ⟨checks', rfl⟩ := Option.isSome_iff_exists.1 hsome
      exact decision_congr answers t source target hchecks rfl hswapped.perm rfl rfl
  · rw [hkept]

end

/-- **Reordering the checks never changes a decision.** A call of `swap_checks`, completed or not,
leaves every decision as it was. When it completes, two positions are exchanged, and the same call
takes the whole state back; when the caller is not the authorized admin, or the indices differ and
one is out of range, the check list stays as it was. -/
theorem swapChecks_keeps_decisions [DecidableEq Address] (env : Env Address) (admin : Address)
    (i j : ℕ) (s : State Address) :
    (∀ (answers : Answers Address) (σ : Type) (t : σ) (source target : Address),
      decision answers t source target ((swapChecks env admin i j).commit s).2 =
        decision answers t source target s) ∧
    (∀ s', swapChecks env admin i j s = .ok ((), s') →
      Swapped i j (getChecks s) (getChecks s') ∧
        ∀ env' : Env Address, env'.auths admin = true →
          swapChecks env' admin i j s' = .ok ((), s)) ∧
    ((env.auths admin = false ∨ s.admin ≠ some admin ∨
        (getChecks s).length ≤ i ∨ (getChecks s).length ≤ j) →
      getChecks ((swapChecks env admin i j).commit s).2 = getChecks s) := by
  refine ⟨fun answers _ t source target ↦
    decision_commit_swapChecks answers t source target env admin i j s, fun s' hok ↦ ?_,
    fun hrefused ↦ ?_⟩
  · obtain ⟨checks', rfl, hswapped, -⟩ := swapped_of_ok hok
    exact ⟨hswapped, fun env' hauth ↦ swapChecks_again hok hauth⟩
  · rcases Tx.commit_answer (swapChecks env admin i j) s with ⟨_, -, hok⟩ | ⟨-, hkept⟩
    -- only equal indices pass the guards
    · obtain ⟨hauth, hadmin, ⟨-, hkept⟩ | ⟨-, checks, checkI, checkJ, hchecks, hi, hj, -⟩⟩ :=
        swapChecks_eq_ok_iff.1 hok
      · rw [hkept]
      · obtain ⟨hilt, -⟩ := List.getElem?_eq_some_iff.1 hi
        obtain ⟨hjlt, -⟩ := List.getElem?_eq_some_iff.1 hj
        rw [getChecks, hchecks, Option.getD_some] at hrefused
        rcases hrefused with hunauth | hother | hi' | hj'
        · rw [hauth] at hunauth
          cases hunauth
        · exact absurd hadmin hother
        · omega
        · omega
    · rw [hkept]

/-- Swapping puts the allowlist behind the denylist. -/
example : getChecks ((swapChecks ⟨1, 0, fun _ ↦ true⟩ 1 0 1).commit twoChecks).2 =
    [.denylist 3, .allowlist 2] := by
  decide

end PolicyEngine
