import CompliancePrimitives.Contracts.ComplianceAggregator.Model

/-!
# `compliance-aggregator`: one address against many

`Cleared` is what the registered gate and flag say about an address, and the three entry points are
read off it: `check_address` answers it unless a frozen breaker denies first, `batch_check` answers
it whatever the breaker says. So the two agree exactly as far as the breaker does not come into
play, which is `batchCheck_agrees_iff`.

`BatchAgrees` compares the answers address by address, failures included. With neither a gate nor a
flag registered `batch_check` refuses, while `check_address` still answers for a breaker alone. With
one of them, the breaker is all that is left to differ in, and a frozen one makes a difference
exactly if some address of the list would pass without it. So the condition is on the configuration,
the callees and the list, and does not run either entry point.
-/

namespace ComplianceAggregator

open Soroban

variable {Address : Type}
variable (callees : Callees Address) (s : State Address) (allowedJurisdictions : List Bytes)

/-! ### What the registered checks say -/

/-- Neither the registered gate nor the registered flag objects to the address. -/
structure Cleared (address : Address) : Prop where
  /-- The gate, if one is registered, clears the address. -/
  gate : ∀ gate, s.denylistGate = some gate → callees.check gate address = true
  /-- The flag, if one is registered, answers, and permits it. -/
  flag : ∀ flag, s.jurisdictionFlag = some flag →
    callees.isPermittedJurisdiction flag address allowedJurisdictions = some true

/-- There is a gate or a flag to ask. -/
def HasCheck : Prop := s.denylistGate.isSome = true ∨ s.jurisdictionFlag.isSome = true

/-- The registered breaker, if there is one, is frozen. -/
def Frozen : Prop := ∃ breaker, s.circuitBreaker = some breaker ∧ callees.isFrozen breaker = true

instance : Decidable (Frozen callees s) :=
  decidable_of_iff (s.circuitBreaker.any callees.isFrozen = true) (by
    cases h : s.circuitBreaker <;> simp [Frozen, h])

variable {callees s allowedJurisdictions}

theorem jurisdictionPassed_eq_true_iff {flag address : Address} :
    jurisdictionPassed callees flag address allowedJurisdictions = true ↔
      callees.isPermittedJurisdiction flag address allowedJurisdictions = some true :=
  decide_eq_true_iff

/-- **The batch loop asks the gate and the flag**, and nobody else. -/
theorem batchCheckEntry_eq_true_iff {address : Address} :
    batchCheckEntry callees s.denylistGate s.jurisdictionFlag allowedJurisdictions address = true ↔
      Cleared callees s allowedJurisdictions address := by
  have hcleared : Cleared callees s allowedJurisdictions address ↔
      (∀ gate, s.denylistGate = some gate → callees.check gate address = true) ∧
        ∀ flag, s.jurisdictionFlag = some flag →
          jurisdictionPassed callees flag address allowedJurisdictions = true := by
    simp only [jurisdictionPassed_eq_true_iff]
    exact ⟨fun h ↦ ⟨h.gate, h.flag⟩, fun h ↦ ⟨h.1, h.2⟩⟩
  rw [hcleared]
  cases hgate : s.denylistGate <;> cases hflag : s.jurisdictionFlag <;> simp [batchCheckEntry]

/-! ### One address -/

/-- A frozen breaker denies before anything else is asked. -/
theorem checkAddress_of_frozen (hfrozen : Frozen callees s) (address : Address) :
    checkAddress callees s address allowedJurisdictions =
      .ok (false, [{ check := .circuitBreaker, passed := false }]) := by
  obtain ⟨breaker, hbreaker, hanswer⟩ := hfrozen
  simp [checkAddress, circuitBreakerResult, hbreaker, hanswer, pure, Except.pure]

/-- Otherwise the answer is that of the gate and the flag. -/
theorem checkAddress_of_not_frozen (hfrozen : ¬Frozen callees s)
    (hregistered : s.circuitBreaker.isSome = true ∨ HasCheck s) (address : Address) :
    ∃ results, checkAddress callees s address allowedJurisdictions =
      .ok (batchCheckEntry callees s.denylistGate s.jurisdictionFlag allowedJurisdictions address,
        results) := by
  have hbreaker : ∀ breaker, s.circuitBreaker = some breaker →
      callees.isFrozen breaker = false := by
    intro breaker hsome
    by_contra hanswer
    exact hfrozen ⟨breaker, hsome, by simpa using hanswer⟩
  cases hb : s.circuitBreaker <;> cases hgate : s.denylistGate <;>
    cases hflag : s.jurisdictionFlag <;>
    simp_all [checkAddress, circuitBreakerResult, batchCheckEntry, HasCheck] <;>
    exact ⟨_, rfl⟩

/-- With nothing registered there is no answer. -/
theorem checkAddress_of_unregistered (hbreaker : s.circuitBreaker = none) (hcheck : ¬HasCheck s)
    (address : Address) :
    checkAddress callees s address allowedJurisdictions = .error .noChecksRegistered := by
  simp only [HasCheck, not_or, Bool.not_eq_true, Option.isSome_eq_false_iff,
    Option.isNone_iff_eq_none] at hcheck
  simp [checkAddress, circuitBreakerResult, hbreaker, hcheck, throw, throwThe, MonadExceptOf.throw]

/-! ### Many addresses -/

/-- A loop that appends one result per element is a map. -/
theorem foldl_append_singleton {α β : Type} (f : α → β) (l : List α) (acc : List β) :
    l.foldl (fun results a ↦ results ++ [f a]) acc = acc ++ l.map f := by
  induction l generalizing acc with
  | nil => simp
  | cons a l ih => simp [ih]

theorem batchCheck_of_hasCheck {addresses : List Address} (hne : addresses ≠ [])
    (hlen : addresses.length ≤ maxBatchSize) (hcheck : HasCheck s) :
    batchCheck callees s addresses allowedJurisdictions =
      .ok (addresses.map
        (batchCheckEntry callees s.denylistGate s.jurisdictionFlag allowedJurisdictions)) := by
  have hsome : ¬(s.denylistGate = none ∧ s.jurisdictionFlag = none) := by
    rintro ⟨hgate, hflag⟩
    simp [HasCheck, hgate, hflag] at hcheck
  simp only [batchCheck, foldl_append_singleton]
  simp [hne, Nat.not_lt.2 hlen, hsome, pure, Except.pure]

theorem batchCheck_of_not_hasCheck {addresses : List Address} (hne : addresses ≠ [])
    (hlen : addresses.length ≤ maxBatchSize) (hcheck : ¬HasCheck s) :
    batchCheck callees s addresses allowedJurisdictions = .error .noChecksRegistered := by
  simp only [HasCheck, not_or, Bool.not_eq_true, Option.isSome_eq_false_iff,
    Option.isNone_iff_eq_none] at hcheck
  simp [batchCheck, hne, Nat.not_lt.2 hlen, hcheck, throw, throwThe, MonadExceptOf.throw]

/-- **Agreement of the two paths** on a list of addresses: one answers exactly when the other does
for each address, and then element by element the same. -/
structure BatchAgrees (callees : Callees Address) (s : State Address)
    (addresses : List Address) (allowedJurisdictions : List Bytes) : Prop where
  /-- The batch is answered exactly if each address is by itself. -/
  ok_iff : (∃ results, batchCheck callees s addresses allowedJurisdictions = .ok results) ↔
    ∀ a ∈ addresses, ∃ b checks,
      checkAddress callees s a allowedJurisdictions = .ok (b, checks)
  /-- Its answers are then those of the addresses, in order. -/
  same : ∀ results, batchCheck callees s addresses allowedJurisdictions = .ok results →
    List.Forall₂ (fun b a ↦ ∃ checks,
      checkAddress callees s a allowedJurisdictions = .ok (b, checks)) results addresses

/-- Pointwise agreement along the results the batch loop produces. -/
theorem forall₂_entry_iff {addresses : List Address} :
    List.Forall₂ (fun b a ↦ ∃ checks,
        checkAddress callees s a allowedJurisdictions = .ok (b, checks))
      (addresses.map
        (batchCheckEntry callees s.denylistGate s.jurisdictionFlag allowedJurisdictions))
      addresses ↔
    ∀ a ∈ addresses, ∃ checks, checkAddress callees s a allowedJurisdictions =
      .ok (batchCheckEntry callees s.denylistGate s.jurisdictionFlag allowedJurisdictions a,
        checks) := by
  rw [List.forall₂_map_left_iff, List.forall₂_same]

section

variable {addresses : List Address}

/-- With a frozen breaker every single answer is `false`, so the paths agree when every batch answer
is. -/
theorem batchAgrees_iff_of_frozen (hne : addresses ≠ []) (hlen : addresses.length ≤ maxBatchSize)
    (hcheck : HasCheck s) (hfrozen : Frozen callees s) :
    BatchAgrees callees s addresses allowedJurisdictions ↔
      ∀ a ∈ addresses, ¬Cleared callees s allowedJurisdictions a := by
  have hbatch : batchCheck callees s addresses allowedJurisdictions = .ok (addresses.map _) :=
    batchCheck_of_hasCheck hne hlen hcheck
  constructor
  · intro hagree a ha hcleared
    obtain ⟨checks, hok⟩ := forall₂_entry_iff.1 (hagree.same _ hbatch) a ha
    rw [checkAddress_of_frozen hfrozen, batchCheckEntry_eq_true_iff.2 hcleared] at hok
    cases hok
  · intro hdenied
    refine ⟨⟨fun _ a _ ↦ ⟨_, _, checkAddress_of_frozen hfrozen a⟩, fun _ ↦ ⟨_, hbatch⟩⟩, ?_⟩
    intro results hresults
    obtain rfl := Except.ok.inj (hbatch.symm.trans hresults)
    refine forall₂_entry_iff.2 fun a ha ↦ ⟨[{ check := .circuitBreaker, passed := false }], ?_⟩
    rw [checkAddress_of_frozen hfrozen,
      Bool.eq_false_iff.2 (mt batchCheckEntry_eq_true_iff.1 (hdenied a ha))]

/-- Without a frozen breaker both paths answer, and the same. -/
theorem batchAgrees_of_not_frozen (hne : addresses ≠ []) (hlen : addresses.length ≤ maxBatchSize)
    (hcheck : HasCheck s) (hfrozen : ¬Frozen callees s) :
    BatchAgrees callees s addresses allowedJurisdictions := by
  have hbatch : batchCheck callees s addresses allowedJurisdictions = .ok (addresses.map _) :=
    batchCheck_of_hasCheck hne hlen hcheck
  have hsingle : ∀ a, ∃ checks, checkAddress callees s a allowedJurisdictions =
      .ok (batchCheckEntry callees s.denylistGate s.jurisdictionFlag allowedJurisdictions a,
        checks) :=
    checkAddress_of_not_frozen hfrozen (.inr hcheck)
  refine ⟨⟨fun _ a _ ↦ ⟨_, hsingle a⟩, fun _ ↦ ⟨_, hbatch⟩⟩, fun results hresults ↦ ?_⟩
  obtain rfl := Except.ok.inj (hbatch.symm.trans hresults)
  exact forall₂_entry_iff.2 fun a _ ↦ hsingle a

/-- Without a gate and a flag the batch path refuses, so the paths agree when the single path
refuses too. -/
theorem batchAgrees_iff_of_not_hasCheck (hne : addresses ≠ [])
    (hlen : addresses.length ≤ maxBatchSize) (hcheck : ¬HasCheck s) :
    BatchAgrees callees s addresses allowedJurisdictions ↔ s.circuitBreaker = none := by
  have hbatch : batchCheck callees s addresses allowedJurisdictions = .error .noChecksRegistered :=
    batchCheck_of_not_hasCheck hne hlen hcheck
  have hnever : ∀ results, batchCheck callees s addresses allowedJurisdictions ≠ .ok results := by
    intro results hok
    rw [hbatch] at hok
    cases hok
  constructor
  · intro hagree
    by_contra hsome
    have hsingle : ∀ a ∈ addresses, ∃ b checks,
        checkAddress callees s a allowedJurisdictions = .ok (b, checks) := by
      intro a _
      by_cases hfrozen : Frozen callees s
      · exact ⟨_, _, checkAddress_of_frozen hfrozen a⟩
      · exact ⟨_, checkAddress_of_not_frozen hfrozen (.inl (Option.isSome_iff_ne_none.2 hsome)) a⟩
    obtain ⟨results, hok⟩ := hagree.ok_iff.2 hsingle
    exact hnever results hok
  -- the list is not empty, so its first address witnesses that the single path refuses
  · intro hnone
    obtain ⟨a₀, ha₀⟩ := List.exists_mem_of_ne_nil addresses hne
    refine ⟨⟨fun ⟨results, hok⟩ ↦ absurd hok (hnever results), fun hsingle ↦ ?_⟩,
      fun results hok ↦ absurd hok (hnever results)⟩
    obtain ⟨b, checks, hok⟩ := hsingle a₀ ha₀
    rw [checkAddress_of_unregistered hnone hcheck] at hok
    cases hok

end

/-- **Exactly when the batch path agrees with the single path.** Without a breaker, always. With
one, when a gate or a flag is registered too, and the breaker is not frozen or every listed address
fails the gate or the flag anyway. -/
theorem batchCheck_agrees_iff (callees : Callees Address) (s : State Address)
    (allowedJurisdictions : List Bytes) (addresses : List Address) (hne : addresses ≠ [])
    (hlen : addresses.length ≤ maxBatchSize) :
    BatchAgrees callees s addresses allowedJurisdictions ↔
      s.circuitBreaker = none ∨
        (HasCheck s ∧ (¬Frozen callees s ∨
          ∀ a ∈ addresses, ¬Cleared callees s allowedJurisdictions a)) := by
  by_cases hcheck : HasCheck s
  · by_cases hfrozen : Frozen callees s
    · have hsome : s.circuitBreaker ≠ none := by
        obtain ⟨breaker, hbreaker, -⟩ := hfrozen
        rw [hbreaker]
        exact Option.some_ne_none breaker
      rw [batchAgrees_iff_of_frozen hne hlen hcheck hfrozen]
      exact ⟨fun h ↦ .inr ⟨hcheck, .inr h⟩,
        fun h ↦ h.elim (absurd · hsome) fun h ↦ h.2.resolve_left (not_not.2 hfrozen)⟩
    · exact iff_of_true (batchAgrees_of_not_frozen hne hlen hcheck hfrozen)
        (.inr ⟨hcheck, .inl hfrozen⟩)
  · rw [batchAgrees_iff_of_not_hasCheck hne hlen hcheck]
    exact ⟨.inl, fun h ↦ h.elim id fun h ↦ absurd h.1 hcheck⟩

/-- A host which grants every authorization it is asked for. -/
def grantingEnv : Soroban.Env ℕ where
  sequence := 1
  timestamp := 0
  auths := fun _ ↦ true

/-- An instance set up with the gate 10 and the breaker 20, and no flag. -/
def guarded : State ℕ :=
  (system 0).final [⟨grantingEnv, .initialise 0 (some 10) none (some 20)⟩]

/-- Callees which object to address 8 only, with a breaker that is frozen or not. -/
def objectingTo8 (frozen : Bool) : Callees ℕ where
  check := fun _ address ↦ decide (address ≠ 8)
  isPermittedJurisdiction := fun _ _ _ ↦ none
  isFrozen := fun _ ↦ frozen

/-- While the breaker is not frozen the two paths agree on a mixed list. -/
theorem batchCheck_agrees_unfrozen : BatchAgrees (objectingTo8 false) guarded [7, 8] [] :=
  (batchCheck_agrees_iff (objectingTo8 false) guarded [] [7, 8] (by decide) (by decide)).2
    (.inr ⟨.inl rfl, .inl (by decide)⟩)

/-- **The batch path does not see a frozen breaker.** It reports address 7 as passing, which the
single path denies. -/
theorem batchCheck_passes_frozen :
    batchCheck (objectingTo8 true) guarded [7] [] = .ok [true] ∧
      checkAddress (objectingTo8 true) guarded 7 [] =
        .ok (false, [{ check := .circuitBreaker, passed := false }]) ∧
      ¬BatchAgrees (objectingTo8 true) guarded [7] [] := by
  have hbatch : batchCheck (objectingTo8 true) guarded [7] [] = .ok [true] := by decide
  have hsingle : checkAddress (objectingTo8 true) guarded 7 [] =
      .ok (false, [{ check := .circuitBreaker, passed := false }]) := by decide
  refine ⟨hbatch, hsingle, fun hagree ↦ ?_⟩
  obtain ⟨⟨checks, hok⟩, -⟩ := List.forall₂_cons.1 (hagree.same _ hbatch)
  rw [hsingle] at hok
  cases hok

end ComplianceAggregator
