import CompliancePrimitives.Contracts.ComplianceAggregator.Batch

/-!
# `compliance-aggregator`: the batch with a breakdown

`check_all` looks up the breaker and the registered contracts once, and puts what `check_address`
does by an early return into a condition inside its loop. Both come to one list, the `breakdown` of
an address: a frozen breaker alone, or else the breaker, the gate and the flag as far as they are
registered. So `check_all` is `check_address` mapped over the list (`checkAll_maps_checkAddress`),
in every configuration and for a list of any length.

The breakdown is a list of checks with verdicts, in the order in which the contracts are asked, and
the overall verdict is their conjunction. It is empty only if nothing is registered
(`breakdown_eq_nil_iff`), and then both entry points refuse.
-/

namespace ComplianceAggregator

open Soroban

variable {Address : Type} {callees : Callees Address} {s : State Address}
  {allowedJurisdictions : List Bytes}

/-- Neither a breaker, nor a gate, nor a flag is registered. -/
def Unregistered (s : State Address) : Prop := s.circuitBreaker = none ∧ ¬HasCheck s

/-- **What the registered checks say about an address**, one by one. -/
def breakdown (callees : Callees Address) (s : State Address) (allowedJurisdictions : List Bytes)
    (address : Address) : List CheckResult :=
  if Frozen callees s then [{ check := .circuitBreaker, passed := false }]
  else
    (circuitBreakerResult callees s).toList ++
      (s.denylistGate.map fun gate ↦
        { check := .denylist, passed := callees.check gate address }).toList ++
      (s.jurisdictionFlag.map fun flag ↦
        { check := .jurisdiction,
          passed := jurisdictionPassed callees flag address allowedJurisdictions }).toList

/-- The round of the loop for an address, with what is looked up before the loop. -/
abbrev roundOf (callees : Callees Address) (s : State Address) (allowedJurisdictions : List Bytes)
    (address : Address) : AddressCheckResult Address :=
  checkAllEntry callees (circuitBreakerResult callees s) s.denylistGate s.jurisdictionFlag
    allowedJurisdictions address

theorem frozen_iff {breaker : Address} (hbreaker : s.circuitBreaker = some breaker) :
    Frozen callees s ↔ callees.isFrozen breaker = true := by
  simp [Frozen, hbreaker]

theorem not_frozen_of_none (hnone : s.circuitBreaker = none) : ¬Frozen callees s := by
  simp [Frozen, hnone]

/-- **A round of the loop** gives the breakdown, and its conjunction. -/
theorem roundOf_eq (address : Address) :
    roundOf callees s allowedJurisdictions address =
      { address
        allPassed := (breakdown callees s allowedJurisdictions address).all CheckResult.passed
        checks := breakdown callees s allowedJurisdictions address } := by
  rcases hbreaker : s.circuitBreaker with _ | breaker
  · cases hgate : s.denylistGate <;> cases hflag : s.jurisdictionFlag <;>
      simp [roundOf, checkAllEntry, breakdown, not_frozen_of_none hbreaker, circuitBreakerResult,
        hbreaker, hgate, hflag]
  · cases hfrozen : callees.isFrozen breaker <;> cases hgate : s.denylistGate <;>
      cases hflag : s.jurisdictionFlag <;>
      simp [roundOf, checkAllEntry, breakdown, frozen_iff hbreaker, circuitBreakerResult, hbreaker,
        hfrozen, hgate, hflag]

/-- **A single check** gives the same, unless there is nothing to break down. -/
theorem checkAddress_eq (address : Address) :
    checkAddress callees s address allowedJurisdictions =
      if breakdown callees s allowedJurisdictions address = [] then .error .noChecksRegistered
      else
        .ok ((breakdown callees s allowedJurisdictions address).all CheckResult.passed,
          breakdown callees s allowedJurisdictions address) := by
  rcases hbreaker : s.circuitBreaker with _ | breaker
  · cases hgate : s.denylistGate <;> cases hflag : s.jurisdictionFlag <;>
      simp [checkAddress, breakdown, not_frozen_of_none hbreaker, circuitBreakerResult, hbreaker,
        hgate, hflag] <;> rfl
  · cases hfrozen : callees.isFrozen breaker <;> cases hgate : s.denylistGate <;>
      cases hflag : s.jurisdictionFlag <;>
      simp [checkAddress, breakdown, frozen_iff hbreaker, circuitBreakerResult, hbreaker,
        hfrozen, hgate, hflag] <;> rfl

theorem breakdown_eq_nil_iff (address : Address) :
    breakdown callees s allowedJurisdictions address = [] ↔ Unregistered s := by
  rcases hbreaker : s.circuitBreaker with _ | breaker
  · rw [breakdown, if_neg (not_frozen_of_none hbreaker)]
    simp [circuitBreakerResult, Unregistered, HasCheck, hbreaker]
  · refine iff_of_false ?_ fun h ↦ ?_
    · rw [breakdown]
      split_ifs <;> simp [circuitBreakerResult, hbreaker]
    · cases hbreaker.symm.trans h.1

/-! ### Many addresses -/

theorem checkAddress_of_registered (h : ¬Unregistered s) (address : Address) :
    checkAddress callees s address allowedJurisdictions =
      .ok ((roundOf callees s allowedJurisdictions address).allPassed,
        (roundOf callees s allowedJurisdictions address).checks) := by
  rw [checkAddress_eq, if_neg (mt (breakdown_eq_nil_iff address).1 h), roundOf_eq]

theorem checkAll_of_unregistered {addresses : List Address} (hne : addresses ≠ [])
    (h : Unregistered s) :
    checkAll callees s addresses allowedJurisdictions = .error .noChecksRegistered := by
  obtain ⟨hbreaker, hcheck⟩ := h
  simp only [HasCheck, not_or, Bool.not_eq_true, Option.isSome_eq_false_iff,
    Option.isNone_iff_eq_none] at hcheck
  simp [checkAll, hne, circuitBreakerResult, hbreaker, hcheck, throw, throwThe, MonadExceptOf.throw]

theorem checkAll_of_registered {addresses : List Address} (hne : addresses ≠ [])
    (h : ¬Unregistered s) :
    checkAll callees s addresses allowedJurisdictions =
      .ok (addresses.map (roundOf callees s allowedJurisdictions)) := by
  have hsome : ¬((s.circuitBreaker = none ∧ s.denylistGate = none) ∧
      s.jurisdictionFlag = none) := by
    rintro ⟨⟨hbreaker, hgate⟩, hflag⟩
    exact h ⟨hbreaker, by simp [HasCheck, hgate, hflag]⟩
  simp only [checkAll, foldl_append_singleton]
  simp [hne, circuitBreakerResult, hsome, roundOf, pure, Except.pure]

/-- **`check_all` is `check_address` mapped over the list.** On a list that is not empty it refuses
for want of checks exactly when `check_address` does for every address of the list, and otherwise
answers for each address, in order, what `check_address` answers: the same verdict with the same
breakdown, of which the verdict is the conjunction. -/
theorem checkAll_maps_checkAddress (callees : Callees Address) (s : State Address)
    (allowedJurisdictions : List Bytes) {addresses : List Address} (hne : addresses ≠ []) :
    (checkAll callees s addresses allowedJurisdictions = .error .noChecksRegistered ↔
      ∀ a ∈ addresses,
        checkAddress callees s a allowedJurisdictions = .error .noChecksRegistered) ∧
    (checkAll callees s addresses allowedJurisdictions ≠ .error .noChecksRegistered →
      ∃ batch, checkAll callees s addresses allowedJurisdictions = .ok batch ∧
        List.Forall₂ (fun result a ↦ result.address = a ∧
          checkAddress callees s a allowedJurisdictions = .ok (result.allPassed, result.checks) ∧
          result.allPassed = result.checks.all CheckResult.passed) batch addresses) := by
  by_cases hregistered : Unregistered s
  · have hbatch : checkAll callees s addresses allowedJurisdictions = .error .noChecksRegistered :=
      checkAll_of_unregistered hne hregistered
    exact ⟨iff_of_true hbatch fun a _ ↦
      checkAddress_of_unregistered hregistered.1 hregistered.2 a, fun h ↦ absurd hbatch h⟩
  · have hbatch : checkAll callees s addresses allowedJurisdictions =
        .ok (addresses.map (roundOf callees s allowedJurisdictions)) :=
      checkAll_of_registered hne hregistered
    refine ⟨iff_of_false (by rw [hbatch]; exact nofun) fun hrefused ↦ ?_, fun _ ↦
      ⟨_, hbatch, ?_⟩⟩
    · obtain ⟨a, ha⟩ := List.exists_mem_of_ne_nil addresses hne
      cases (checkAddress_of_registered hregistered a).symm.trans (hrefused a ha)
    · rw [List.forall₂_map_left_iff, List.forall₂_same]
      intro a _
      refine ⟨?_, checkAddress_of_registered hregistered a, ?_⟩ <;> rw [roundOf_eq]

/-- Both addresses of a batch are broken down, while the breaker is not frozen. -/
theorem checkAll_maps_checkAddress_guarded :
    (checkAll (objectingTo8 false) guarded [7, 8] [] = .error .noChecksRegistered ↔
      ∀ a ∈ [7, 8], checkAddress (objectingTo8 false) guarded a [] = .error .noChecksRegistered) ∧
    (checkAll (objectingTo8 false) guarded [7, 8] [] ≠ .error .noChecksRegistered →
      ∃ batch, checkAll (objectingTo8 false) guarded [7, 8] [] = .ok batch ∧
        List.Forall₂ (fun result a ↦ result.address = a ∧
          checkAddress (objectingTo8 false) guarded a [] = .ok (result.allPassed, result.checks) ∧
          result.allPassed = result.checks.all CheckResult.passed) batch [7, 8]) :=
  checkAll_maps_checkAddress (objectingTo8 false) guarded [] (by decide)

end ComplianceAggregator
