import CompliancePrimitives.Contracts.PolicyEngine.Evaluation
import CompliancePrimitives.Foundation.Metered

/-!
# How many calls an invocation makes

Every call into another contract is charged to a meter (`Callees.counted`), and the engine's loops
are followed with it: a check costs at most two calls, a pair one more than twice the checks, a
batch the sum over its pairs. The check list never grows beyond `maxChecks`, since `add_check` is
the only entry point that makes it longer.

`maxBatchSize` is documented as the most that `batch_evaluate` accepts in a call, and no entry point
reads it. So the documented bound on the calls of an invocation holds in every run in which no
batch is longer, whatever the callees do (`fanOut_bounded_iff`); and a longer batch goes through.
-/

namespace PolicyEngine

open Soroban

/-- `MAX_BATCH_SIZE`, which nothing reads. -/
def maxBatchSize : ℕ := 20

variable {Address σ τ : Type}

/-- Callees whose calls are counted. -/
def Callees.counted (callees : Callees Address σ) : Callees Address (σ × ℕ) where
  check contract address := Tx.charge (callees.check contract address)
  tryIsPermittedJurisdiction contract address allowedCodes :=
    Tx.charge (callees.tryIsPermittedJurisdiction contract address allowedCodes)
  isAllowed contract address := Tx.charge (callees.isAllowed contract address)
  isFrozen contract := Tx.charge (callees.isFrozen contract)

section

variable {callees : Callees Address σ} {checks : List (CheckKind Address)} {op : CombineOp}
  {source target : Address}

/-! ### What an evaluation costs -/

theorem metered_runCheck (check : CheckKind Address) (address : Address) (p : σ × ℕ) :
    Tx.Metered (.counter σ) 1 (runCheck callees.counted check address)
      (runCheck callees check address) p := by
  cases check with
  | denylist contract => exact Tx.metered_charge _ p
  | jurisdiction contract allowedCodes => exact (Tx.metered_charge _ p).bind_pure _
  | allowlist contract => exact Tx.metered_charge _ p
  | circuitBreaker contract => exact (Tx.metered_charge _ p).bind_pure _

/-- A check costs a call for each address it asks about. -/
theorem metered_runBoth (check : CheckKind Address) (source target : Address) (p : σ × ℕ) :
    Tx.Metered (.counter σ) 2 (runBoth callees.counted check source target)
      (runBoth callees check source target) p := by
  refine ((metered_runCheck check source p).bind fun passed p' _ ↦ ?_).mono
    (show 1 + 1 ≤ 2 from le_rfl)
  cases passed with
  | false => exact Tx.metered_pure false 1
  | true => exact metered_runCheck check target p'

theorem metered_evaluateAll (i : ℕ) (p : σ × ℕ) :
    Tx.Metered (.counter σ) (2 * checks.length)
      (evaluateAll callees.counted source target i checks)
      (evaluateAll callees source target i checks) p := by
  induction checks generalizing i p with
  | nil => exact Tx.metered_pure _ _
  | cons check checks ih =>
    rw [List.length_cons, Nat.mul_succ, Nat.add_comm]
    refine (metered_runBoth check source target p).bind fun passed p' _ ↦ ?_
    cases passed with
    | false => exact Tx.metered_pure _ _
    | true => exact ih (i + 1) p'

theorem metered_evaluateAny (p : σ × ℕ) :
    Tx.Metered (.counter σ) (2 * checks.length)
      (evaluateAny callees.counted source target checks)
      (evaluateAny callees source target checks) p := by
  induction checks generalizing p with
  | nil => exact Tx.metered_pure _ _
  | cons check checks ih =>
    rw [List.length_cons, Nat.mul_succ, Nat.add_comm]
    refine (metered_runBoth check source target p).bind fun passed p' _ ↦ ?_
    cases passed with
    | false => exact ih p'
    | true => exact Tx.metered_pure _ _

/-- Whatever the operator, the checks cost two calls each. -/
theorem metered_combine (p : σ × ℕ) :
    Tx.Metered (.counter σ) (2 * checks.length) (combine callees.counted checks op source target)
      (combine callees checks op source target) p := by
  cases op with
  | all => exact metered_evaluateAll 0 p
  | any =>
    rw [combine, combine]
    split_ifs
    · exact Tx.metered_pure _ _
    · refine ((metered_evaluateAny p).bind fun anyPass p' _ ↦ ?_).mono (Nat.add_zero _).le
      cases anyPass <;> exact Tx.metered_pure _ 0

theorem metered_breakerFrozen (breaker : Option Address) (p : σ × ℕ) :
    Tx.Metered (.counter σ) 1 (breakerFrozen callees.counted breaker)
      (breakerFrozen callees breaker) p := by
  cases breaker with
  | none => exact Tx.metered_pure false 1
  | some contract => exact Tx.metered_charge _ p

/-- **A pair costs one call more than its checks.** -/
theorem metered_evaluateInner (checks : List (CheckKind Address)) (op : CombineOp)
    (source target : Address) (p : State Address × σ × ℕ) :
    Tx.Metered ((Meter.counter σ).beside (State Address)) (1 + 2 * checks.length)
      (evaluateInner callees.counted checks op source target)
      (evaluateInner callees checks op source target) p := by
  refine ((Tx.metered_onFst Tx.get p).bind fun s p₁ _ ↦ ?_).mono (Nat.zero_add _).le
  refine (metered_breakerFrozen s.circuitBreaker p₁.2).onSnd.bind fun frozen p₂ _ ↦ ?_
  cases frozen with
  | true =>
    exact ((Tx.metered_onFst _ p₂).bind_pure _).mono (Nat.zero_le _)
  | false =>
    refine ((metered_combine p₂.2).onSnd.bind fun result p₃ _ ↦ ?_).mono (Nat.add_zero _).le
    exact (Tx.metered_onFst _ p₃).bind_pure _

theorem metered_batch (checks : List (CheckKind Address)) (op : CombineOp)
    (pairs : List (Address × Address)) (p : State Address × σ × ℕ) :
    Tx.Metered ((Meter.counter σ).beside (State Address)) (pairs.length * (1 + 2 * checks.length))
      (pairs.foldlM (fun results pair ↦ do
        let result ← evaluateInner callees.counted checks op pair.1 pair.2
        pure (results ++ [result.1])) [])
      (pairs.foldlM (fun results pair ↦ do
        let result ← evaluateInner callees checks op pair.1 pair.2
        pure (results ++ [result.1])) []) p :=
  Tx.metered_foldlM (fun _ pair p ↦
    (metered_evaluateInner checks op pair.1 pair.2 p).bind_pure _) pairs [] p

/-! ### What an evaluation keeps -/

theorem keeps_checks_publish (event : Event Address) : Tx.Keeps State.checks (publish event) := by
  intro s u s' h
  rw [publish, Tx.modify_eq_ok_iff] at h
  rw [h]

theorem keeps_checks_evaluateInner (callees : Callees Address τ) (checks : List (CheckKind Address))
    (op : CombineOp) (source target : Address) :
    Tx.Keeps (fun p : State Address × τ ↦ p.1.checks)
      (evaluateInner callees checks op source target) := by
  refine Tx.Keeps.bind (Tx.Keeps.onFst fun s _ s' h ↦ ?_) fun s ↦ ?_
  · rw [(Tx.get_eq_ok_iff.1 h).2]
  refine (Tx.keeps_onSnd _).bind fun frozen ↦ ?_
  have hpublish : ∀ (event : Event Address) (result : Bool × Option CheckFailure),
      Tx.Keeps (fun p : State Address × τ ↦ p.1.checks)
        (do Tx.onFst (publish event); pure result) := fun event result ↦
    (keeps_checks_publish event).onFst.bind fun _ ↦ Tx.keeps_pure _ result
  cases frozen with
  | true => exact hpublish _ _
  | false => exact (Tx.keeps_onSnd _).bind fun result ↦ hpublish _ result

/-- What the policy is loaded from. -/
theorem loadPolicy_eq_ok_iff {s s' : State Address} :
    loadPolicy s = .ok ((checks, op), s') ↔
      s.checks = some checks ∧ s.combineOp = some op ∧ s' = s := by
  simp [loadPolicy, loadChecks, and_assoc]

end

/-! ### The engine with its evaluations, as a system -/

/-- An entry point, with its arguments. -/
inductive Entry (Address : Type) where
  | govern (call : Call Address)
  | evaluate (source target : Address)
  | evaluateVerbose (source target : Address)
  | batchEvaluate (pairs : List (Address × Address))
  deriving DecidableEq

/-- What an entry point answers. -/
inductive Answer where
  | done
  | passed (passed : Bool)
  | verbose (result : Bool × Option CheckFailure)
  | results (results : List Bool)
  deriving DecidableEq, Repr

/-- An invocation: the host's view, an entry point, and what the callees do during it. -/
structure Request (Address σ : Type) where
  env : Env Address
  callees : Callees Address σ
  entry : Entry Address

variable [DecidableEq Address]

/-- Dispatch of an entry point. -/
def serve (env : Env Address) (callees : Callees Address τ) :
    Entry Address → Tx Error (State Address × τ) Answer
  | .govern call => do
    Tx.onFst (invoke env call)
    pure .done
  | .evaluate source target => do
    let passed ← PolicyEngine.evaluate callees source target
    pure (.passed passed)
  | .evaluateVerbose source target => do
    let result ← PolicyEngine.evaluateVerbose callees source target
    pure (.verbose result)
  | .batchEvaluate pairs => do
    let results ← PolicyEngine.batchEvaluate callees pairs
    pure (.results results)

/-- The engine from its deployment on, among callees in some state. A completed invocation answers
with the number of calls it made. -/
def servedSystem (liveUntil : ℕ) (t : σ) :
    System (State Address × σ) (Request Address σ) (Except (Failure Error) (Answer × ℕ)) where
  start := (deploy liveUntil, t)
  exec i p :=
    match serve i.env i.callees.counted i.entry (p.1, p.2, 0) with
    | .ok (answer, s, t, calls) => (.ok (answer, calls), s, t)
    | .error e => (.error e, p)

/-! ### What is documented -/

/-- The check list is within its limit. -/
def Listed (s : State Address) : Prop :=
  ∀ checks, s.checks = some checks → checks.length ≤ maxChecks

/-- **An invocation within the documented limits**: a batch that completes is no longer than
documented, and nothing that completes makes more calls than such a batch can. -/
structure WithinLimits
    (e : Step (State Address × σ) (Request Address σ) (Except (Failure Error) (Answer × ℕ))) :
    Prop where
  /-- A batch that is answered has at most as many pairs as documented. -/
  batch : ∀ answer calls pairs, e.result = .ok (answer, calls) →
    e.input.entry = .batchEvaluate pairs → pairs.length ≤ maxBatchSize
  /-- What is answered has called no more contracts than such a batch over a full policy can. -/
  calls : ∀ answer calls, e.result = .ok (answer, calls) →
    calls ≤ maxBatchSize * (1 + 2 * maxChecks)

/-- A batch that an initialized engine is given is no longer than documented. -/
def ShortBatch
    (e : Step (State Address × σ) (Request Address σ) (Except (Failure Error) (Answer × ℕ))) :
    Prop :=
  ∀ pairs, e.input.entry = .batchEvaluate pairs → e.pre.1.checks.isSome → e.pre.1.combineOp.isSome →
    pairs.length ≤ maxBatchSize

/-! ### The check list -/

section

variable {env : Env Address} {call : Call Address} {s s' : State Address}
  {checks : List (CheckKind Address)}

omit [DecidableEq Address] in
theorem Listed.of_eq (hs : Listed s) (h : s'.checks = s.checks) : Listed s' := by
  rwa [Listed, h]

omit [DecidableEq Address] in
theorem listed_of_some (h : s.checks = some checks) (hle : checks.length ≤ maxChecks) :
    Listed s := by
  intro checks' h'
  obtain rfl := Option.some.inj (h.symm.trans h')
  exact hle

/-- **A call that governs keeps the list within its limit**: `add_check` looks at the length, and
no other makes the list longer. -/
theorem Listed.invoke {u : Unit} (hs : Listed s)
    (h : PolicyEngine.invoke env call s = .ok (u, s')) : Listed s' := by
  cases call with
  | initialise admin op circuitBreaker =>
    have hchecks : s'.checks = some [] := by
      cases circuitBreaker <;>
        simp [PolicyEngine.invoke, initialise, extendInstanceTtl] at h <;> rw [h.2.2]
    exact listed_of_some hchecks (Nat.zero_le _)
  | setCircuitBreaker admin breaker =>
    simp [PolicyEngine.invoke, setCircuitBreaker, extendInstanceTtl, requireAdmin] at h
    exact hs.of_eq (by rw [h.2])
  | proposeUpgrade admin newWasm delayLedgers =>
    simp [PolicyEngine.invoke, proposeUpgrade, extendInstanceTtl, requireAdmin, publish] at h
    exact hs.of_eq (by rw [h.2])
  | commitUpgrade admin =>
    simp [PolicyEngine.invoke, commitUpgrade, requireAdmin, publish] at h
    obtain ⟨-, _, -, -, rfl⟩ := h
    exact hs.of_eq rfl
  | cancelUpgrade admin =>
    simp [PolicyEngine.invoke, cancelUpgrade, extendInstanceTtl, requireAdmin] at h
    exact hs.of_eq (by rw [h.2])
  -- the only one that makes it longer, and the guard is strict
  | addCheck admin check =>
    simp [PolicyEngine.invoke, addCheck, extendInstanceTtl, requireAdmin, loadChecks,
      requireNotPaused] at h
    obtain ⟨-, -, checks, -, hlt, rfl⟩ := h
    exact listed_of_some rfl (by rw [List.length_append]; exact hlt)
  | removeCheck admin index =>
    simp [PolicyEngine.invoke, removeCheck, extendInstanceTtl, requireAdmin, loadChecks,
      requireNotPaused] at h
    obtain ⟨-, -, checks, hchecks, -, rfl⟩ := h
    exact listed_of_some rfl ((List.length_eraseIdx_le checks index).trans (hs checks hchecks))
  | swapChecks admin i j =>
    by_cases hij : i = j
    · simp [PolicyEngine.invoke, swapChecks, requireAdmin, hij] at h
      exact hs.of_eq (by rw [h.2.2])
    · simp [PolicyEngine.invoke, swapChecks, requireAdmin, loadChecks, hij] at h
      obtain ⟨-, checks, hchecks, _, -, _, -, rfl⟩ := h
      exact listed_of_some rfl (by simpa using hs checks hchecks)
  | clearChecks admin =>
    simp [PolicyEngine.invoke, clearChecks, requireAdmin, requireNotPaused] at h
    exact listed_of_some (by rw [h.2.2]) (Nat.zero_le _)

end

/-! ### One invocation -/

/-- The pairs an entry point evaluates. -/
def Entry.pairs : Entry Address → List (Address × Address)
  | .govern _ => []
  | .evaluate source target => [(source, target)]
  | .evaluateVerbose source target => [(source, target)]
  | .batchEvaluate pairs => pairs

section

variable {env : Env Address} {callees : Callees Address σ} {entry : Entry Address}
  {checks : List (CheckKind Address)} {op : CombineOp} {answer : Answer}

omit [DecidableEq Address] in
/-- Loading the policy is free, and what is loaded is within the limit. -/
theorem metered_loadPolicy_bind {α : Type} {n : ℕ} {p : State Address × σ × ℕ}
    {k : List (CheckKind Address) × CombineOp → Tx Error (State Address × σ × ℕ) α}
    {l : List (CheckKind Address) × CombineOp → Tx Error (State Address × σ) α}
    (hlisted : Listed p.1)
    (hk : ∀ checks op, checks.length ≤ maxChecks →
      Tx.Metered ((Meter.counter σ).beside (State Address)) n (k (checks, op)) (l (checks, op)) p) :
    Tx.Metered ((Meter.counter σ).beside (State Address)) n (Tx.onFst loadPolicy >>= k)
      (Tx.onFst loadPolicy >>= l) p := by
  refine ((Tx.metered_onFst loadPolicy p).bind fun policy p' h ↦ ?_).mono (Nat.zero_add _).le
  obtain ⟨checks, op⟩ := policy
  obtain ⟨hload, hsnd⟩ := Tx.onFst_eq_ok_iff.1 h
  obtain ⟨hchecks, -, hfst⟩ := loadPolicy_eq_ok_iff.1 hload
  obtain rfl : p' = p := Prod.ext hfst hsnd
  exact hk checks op (hlisted checks hchecks)

/-- **An invocation costs, for each pair, one call and two for each check there can be.** -/
theorem metered_serve (env : Env Address) (callees : Callees Address σ) (entry : Entry Address)
    {p : State Address × σ × ℕ} (hlisted : Listed p.1) :
    Tx.Metered ((Meter.counter σ).beside (State Address))
      (entry.pairs.length * (1 + 2 * maxChecks)) (serve env callees.counted entry)
      (serve env callees entry) p := by
  have hlimit : ∀ {checks : List (CheckKind Address)}, checks.length ≤ maxChecks →
      1 + 2 * checks.length ≤ 1 + 2 * maxChecks := fun hle ↦ by omega
  cases entry with
  | govern call => exact ((Tx.metered_onFst _ p).bind_pure _).mono (Nat.zero_le _)
  | evaluate source target =>
    refine Tx.Metered.bind_pure ?_ _
    refine metered_loadPolicy_bind hlisted fun checks op hle ↦ Tx.Metered.bind_pure ?_ _
    exact (metered_evaluateInner checks op source target p).mono
      ((hlimit hle).trans (Nat.one_mul _).ge)
  | evaluateVerbose source target =>
    refine Tx.Metered.bind_pure ?_ _
    refine metered_loadPolicy_bind hlisted fun checks op hle ↦ ?_
    exact (metered_evaluateInner checks op source target p).mono
      ((hlimit hle).trans (Nat.one_mul _).ge)
  | batchEvaluate pairs =>
    refine Tx.Metered.bind_pure ?_ _
    refine metered_loadPolicy_bind hlisted fun checks op hle ↦ ?_
    exact (metered_batch checks op pairs p).mono (Nat.mul_le_mul_left _ (hlimit hle))

theorem keeps_checks_serve (callees : Callees Address τ) (hentry : ∀ call, entry ≠ .govern call) :
    Tx.Keeps (fun p : State Address × τ ↦ p.1.checks) (serve env callees entry) := by
  have hload : Tx.Keeps (fun p : State Address × τ ↦ p.1.checks)
      (Tx.onFst (loadPolicy : Op Address (List (CheckKind Address) × CombineOp))) :=
    Tx.Keeps.onFst fun s policy s' h ↦ congrArg State.checks (loadPolicy_eq_ok_iff.1 h).2.2
  cases entry with
  | govern call => exact absurd rfl (hentry call)
  | evaluate source target =>
    refine Tx.Keeps.bind (hload.bind fun policy ↦ ?_) fun _ ↦ Tx.keeps_pure _ _
    exact (keeps_checks_evaluateInner callees _ _ _ _).bind fun _ ↦ Tx.keeps_pure _ _
  | evaluateVerbose source target =>
    refine Tx.Keeps.bind (hload.bind fun policy ↦ ?_) fun _ ↦ Tx.keeps_pure _ _
    exact keeps_checks_evaluateInner callees _ _ _ _
  | batchEvaluate pairs =>
    refine Tx.Keeps.bind (hload.bind fun policy ↦ ?_) fun _ ↦ Tx.keeps_pure _ _
    refine Tx.keeps_foldlM (fun results pair ↦ ?_) pairs []
    exact (keeps_checks_evaluateInner callees _ _ _ _).bind fun _ ↦ Tx.keeps_pure _ _

theorem Listed.serve {p p' : State Address × τ} {callees : Callees Address τ} (hs : Listed p.1)
    (h : PolicyEngine.serve env callees entry p = .ok (answer, p')) : Listed p'.1 := by
  by_cases hentry : ∃ call, entry = .govern call
  · obtain ⟨call, rfl⟩ := hentry
    obtain ⟨_, p₁, hcall, hpure⟩ := Tx.bind_eq_ok_iff.1 h
    obtain rfl := (Tx.pure_eq_ok_iff.1 hpure).2
    exact hs.invoke (Tx.onFst_eq_ok_iff.1 hcall).1
  · exact hs.of_eq (keeps_checks_serve callees (fun call h ↦ hentry ⟨call, h⟩) h)

/-- **An invocation, with its meter and without**: the same answer and the same state, or the same
failure, and the calls it made are within what its pairs can cost. -/
theorem exec_cases (liveUntil : ℕ) (t : σ) (i : Request Address σ) {p : State Address × σ}
    (hlisted : Listed p.1) :
    (∃ answer calls p', (servedSystem liveUntil t).exec i p = (.ok (answer, calls), p') ∧
      serve i.env i.callees i.entry p = .ok (answer, p') ∧
      calls ≤ i.entry.pairs.length * (1 + 2 * maxChecks)) ∨
    ∃ e, (servedSystem liveUntil t).exec i p = (.error e, p) ∧
      serve i.env i.callees i.entry p = .error e := by
  have hmetered := metered_serve i.env i.callees i.entry (p := (p.1, p.2, 0)) hlisted
  rcases hrun : serve i.env i.callees.counted i.entry (p.1, p.2, 0) with e | ⟨answer, s, t', calls⟩
  · refine .inr ⟨e, ?_, hmetered.error hrun⟩
    rw [servedSystem]
    simp only [hrun]
  · obtain ⟨hserve, hcalls⟩ := hmetered.ok hrun
    refine .inl ⟨answer, calls, (s, t'), ?_, hserve, hcalls.trans (Nat.zero_add _).le⟩
    rw [servedSystem]
    simp only [hrun]

/-- A batch that completes was given to an initialized engine. -/
theorem initialized_of_batch {pairs : List (Address × Address)} {p p' : State Address × σ}
    (h : serve env callees (.batchEvaluate pairs) p = .ok (answer, p')) :
    p.1.checks.isSome = true ∧ p.1.combineOp.isSome = true := by
  obtain ⟨_, _, hbatch, -⟩ := Tx.bind_eq_ok_iff.1 h
  obtain ⟨⟨checks, op⟩, p₁, hload, -⟩ := Tx.bind_eq_ok_iff.1 hbatch
  obtain ⟨hchecks, hop, -⟩ := loadPolicy_eq_ok_iff.1 (Tx.onFst_eq_ok_iff.1 hload).1
  exact ⟨by rw [hchecks]; rfl, by rw [hop]; rfl⟩

/-- Of callees that answer, every batch completes. -/
theorem serve_batch_of_answers (env : Env Address) (answers : Answers Address)
    {p : State Address × σ} (hchecks : p.1.checks.isSome = true) (hop : p.1.combineOp.isSome = true)
    (pairs : List (Address × Address)) :
    ∃ answer p', serve env answers.callees (.batchEvaluate pairs) p = .ok (answer, p') := by
  obtain ⟨checks, hchecks⟩ := Option.isSome_iff_exists.1 hchecks
  obtain ⟨op, hop⟩ := Option.isSome_iff_exists.1 hop
  exact ⟨_, _, Tx.bind_of_ok (batchEvaluate_callees hchecks hop pairs p.2)⟩

end

/-! ### Runs -/

section

variable {liveUntil : ℕ} {t : σ}

theorem listed_final (liveUntil : ℕ) (t : σ) (requests : List (Request Address σ)) :
    Listed ((servedSystem liveUntil t).final requests).1 := by
  refine (servedSystem liveUntil t).final_induction (P := fun p ↦ Listed p.1) ?_ ?_ requests
  · intro checks h
    cases h
  · intro p i hlisted
    obtain ⟨answer, calls, p', hexec, hserve, -⟩ | ⟨e, hexec, -⟩ := exec_cases liveUntil t i hlisted
    · rw [hexec]
      exact hlisted.serve hserve
    · rw [hexec]
      exact hlisted

/-- A short batch, like every other invocation, stays within the limits. -/
theorem withinLimits_of_shortBatch {p : State Address × σ} {i : Request Address σ}
    (hlisted : Listed p.1) (hshort : ShortBatch ((servedSystem liveUntil t).stepFrom p i)) :
    WithinLimits ((servedSystem liveUntil t).stepFrom p i) := by
  obtain ⟨answer, calls, p', hexec, hserve, hcalls⟩ | ⟨e, hexec, -⟩ :=
    exec_cases liveUntil t i hlisted
  -- a completed invocation pays for its pairs, and a pair costs no more than a full list
  · have hbatch : ∀ pairs, i.entry = .batchEvaluate pairs → pairs.length ≤ maxBatchSize := by
      intro pairs hentry
      rw [hentry] at hserve
      obtain ⟨hchecks, hop⟩ := initialized_of_batch hserve
      exact hshort pairs hentry hchecks hop
    have hpairs : i.entry.pairs.length ≤ maxBatchSize := by
      rcases hentry : i.entry with call | ⟨source, target⟩ | ⟨source, target⟩ | pairs
      · exact Nat.zero_le _
      · exact Nat.le_of_ble_eq_true rfl
      · exact Nat.le_of_ble_eq_true rfl
      · exact hbatch pairs hentry
    refine ⟨fun _ _ pairs _ ↦ hbatch pairs, fun answer' calls' hresult ↦ ?_⟩
    have hsame : (answer', calls') = (answer, calls) :=
      Except.ok.inj (hresult.symm.trans (congrArg Prod.fst hexec))
    rw [(Prod.mk.inj hsame).2]
    exact hcalls.trans (Nat.mul_le_mul_right _ hpairs)
  · have hfailed : ((servedSystem liveUntil t).stepFrom p i).result = .error e :=
      congrArg Prod.fst hexec
    refine ⟨fun _ _ _ hresult ↦ ?_, fun _ _ hresult ↦ ?_⟩
    · rw [hfailed] at hresult
      cases hresult
    · rw [hfailed] at hresult
      cases hresult

/-- A batch that callees answer completes, however long it is. -/
theorem shortBatch_of_withinLimits {p : State Address × σ} {i : Request Address σ}
    (hlisted : Listed p.1) {answers : Answers Address} (hanswers : i.callees = answers.callees)
    (hwithin : WithinLimits ((servedSystem liveUntil t).stepFrom p i)) :
    ShortBatch ((servedSystem liveUntil t).stepFrom p i) := by
  intro pairs hentry hchecks hop
  obtain ⟨answer, p', hserve⟩ :=
    serve_batch_of_answers i.env answers hchecks hop pairs
  obtain ⟨answer', calls, p'', hexec, -⟩ | ⟨e, -, herror⟩ := exec_cases liveUntil t i hlisted
  · exact hwithin.batch answer' calls pairs (congrArg Prod.fst hexec) hentry
  · rw [hanswers, show i.entry = .batchEvaluate pairs from hentry] at herror
    have hboth := hserve.symm.trans herror
    cases hboth

end

/-- **The fan-out is bounded where batches are short.** In every state of a run the check list is
within its limit. If no batch is given to an initialized engine that is longer than documented,
then whatever the callees do no invocation completes outside the documented limits; and among
callees that answer, that is the only case in which none does. -/
theorem fanOut_bounded_iff (liveUntil : ℕ) (t : σ) (requests : List (Request Address σ)) :
    Listed ((servedSystem liveUntil t).final requests).1 ∧
    ((∀ e ∈ (servedSystem liveUntil t).history requests, ShortBatch e) →
      ∀ e ∈ (servedSystem liveUntil t).history requests, WithinLimits e) ∧
    ((∀ i ∈ requests, ∃ answers : Answers Address, i.callees = answers.callees) →
      (∀ e ∈ (servedSystem liveUntil t).history requests, WithinLimits e) →
      ∀ e ∈ (servedSystem liveUntil t).history requests, ShortBatch e) := by
  refine ⟨listed_final liveUntil t requests, fun hshort e he ↦ ?_, fun hanswers hwithin e he ↦ ?_⟩
  · obtain ⟨before, hstep, -⟩ := (servedSystem liveUntil t).exists_of_mem_history he
    have hshort := hshort e he
    rw [hstep] at hshort ⊢
    exact withinLimits_of_shortBatch (listed_final liveUntil t before) hshort
  · obtain ⟨before, hstep, hsuffix⟩ := (servedSystem liveUntil t).exists_of_mem_history he
    obtain ⟨answers, hcallees⟩ := hanswers e.input (hsuffix.subset List.mem_cons_self)
    have hwithin := hwithin e he
    rw [hstep] at hwithin ⊢
    exact shortBatch_of_withinLimits (listed_final liveUntil t before) hcallees hwithin

/-! ### A batch that is too long -/

/-- A request that address 1 authorizes, among callees that nobody fails. -/
def asked (entry : Entry ℕ) : Request ℕ Unit where
  env := ⟨0, 0, fun a ↦ decide (a = 1)⟩
  callees := Answers.callees ⟨fun _ _ ↦ true, fun _ _ _ ↦ some true, fun _ _ ↦ true, fun _ ↦ false⟩
  entry := entry

/-- A policy with a breaker and one check, the latest request first. -/
def singleCheck : List (Request ℕ Unit) :=
  [asked (.govern (.addCheck 1 (.allowlist 3))), asked (.govern (.initialise 1 .all (some 2)))]

/-- A batch of 21 pairs. -/
def longBatch : Request ℕ Unit := asked (.batchEvaluate (List.replicate 21 (5, 6)))

/-- **The batch goes through**, with a result for each of its pairs. -/
theorem longBatch_not_withinLimits :
    ¬∀ e ∈ (servedSystem 0 ()).history (longBatch :: singleCheck), WithinLimits e := by
  intro hwithin
  have hlast : WithinLimits
      ((servedSystem 0 ()).stepFrom ((servedSystem 0 ()).final singleCheck) longBatch) :=
    hwithin _ List.mem_cons_self
  have hresult :
      ((servedSystem 0 ()).stepFrom ((servedSystem 0 ()).final singleCheck) longBatch).result =
        .ok (.results (List.replicate 21 true), 63) := by
    decide +kernel
  have hlength := hlast.batch _ _ _ hresult rfl
  rw [List.length_replicate, maxBatchSize] at hlength
  omega

end PolicyEngine
