import CompliancePrimitives.Contracts.DenylistGate.SignerSet

/-!
# `denylist-gate`: the order of approvals

Signers approve an action one after the other, and one of the calls finds enough approvals and
applies it. Which call that is depends on the order, and so does what the later ones do: they may
be refused, their callers may no longer be signers, or they may begin a new round under a new
threshold. The signer set they end with does not depend on it.

Two facts carry that. Up to the application, the stored approvals are the votes cast so far
(`castAll`), and how many of them count is a matter of who has called, not of when. From the
application on nothing more can happen (`settled_call`): an `Add` or a `Remove` is not admissible
any more for the set it has made, and a `SetThreshold` sets the threshold the set has already.
`signerSet_after_approvals` says what the set is in the end, and by whom it was approved.
-/

namespace DenylistGate

open Soroban

variable {Address : Type}

/-- Each caller calls the entry point of the action, in the view of the host it has. Runs are
written latest first. -/
def approvalCalls (env : Address → Env Address) (a : SignerAction Address)
    (callers : List Address) : List (Input Address) :=
  callers.map fun x ↦ ⟨env x, a.callBy x⟩

variable [DecidableEq Address] {env : Address → Env Address} {s t : State Address}
  {set : SignerSet Address} {a : SignerAction Address} {callers : List Address} {x : Address}

/-- The callers whose calls are theirs to make: authorized, and by a signer. -/
def eligible (env : Address → Env Address) (set : SignerSet Address) (callers : List Address) :
    List Address :=
  callers.filter fun x ↦ decide ((env x).auths x = true ∧ x ∈ set.signers)

/-- The approvals of an action that are stored. -/
def approvals (s : State Address) (a : SignerAction Address) : List Address :=
  (s.pendingSignerAction a).getD []

theorem collect_eq_castAll (h : approvals t a = castAll (approvals s a) callers) :
    collect t a x = castAll (approvals s a) (x :: callers) := by
  rw [castAll_cons, ← h]
  rfl

theorem approvals_recorded : approvals (recorded t a x) a = collect t a x :=
  congrArg (Option.getD · []) (Function.update_self a _ t.pendingSignerAction)

/-! ### One call -/

/-- The call is its caller's to make, and the action fits the set. -/
def Accepted (env : Env Address) (set : SignerSet Address) (a : SignerAction Address)
    (x : Address) : Prop :=
  env.auths x = true ∧ x ∈ set.signers ∧ a.Admissible set

/-- A call that is not accepted changes nothing. -/
theorem refused_call {env : Env Address} (ht : t.signerSet = some set)
    (hrefused : ¬Accepted env set a x) : (system.exec ⟨env, a.callBy x⟩ t).2 = t := by
  rcases Tx.commit_answer (invoke env (a.callBy x)) t with ⟨_, -, hok⟩ | ⟨-, hkept⟩
  · obtain ⟨hauth, set', ht', hmem, hadm, -⟩ := signerCall_eq_ok_iff.1 hok
    obtain rfl : set = set' := Option.some.inj (ht.symm.trans ht')
    exact absurd ⟨hauth, hmem, hadm⟩ hrefused
  · exact hkept

/-- An accepted call that finds too few approvals stores its own. -/
theorem recorded_call {env : Env Address} (ht : t.signerSet = some set)
    (haccepted : Accepted env set a x) (hshort : valid set (collect t a x) < set.threshold) :
    (system.exec ⟨env, a.callBy x⟩ t).2 = recorded t a x := by
  obtain ⟨hauth, hmem, hadm⟩ := haccepted
  have hok : invoke env (a.callBy x) t = .ok ((), recorded t a x) :=
    signerCall_eq_ok_iff.2 ⟨hauth, set, ht, hmem, hadm, approve_eq_ok_iff.2 (.inl ⟨hshort, rfl⟩)⟩
  exact congrArg Prod.snd (Tx.commit_of_ok hok)

/-- An accepted call that finds enough applies the action, if it is in bounds. -/
theorem applied_call {env : Env Address} (ht : t.signerSet = some set)
    (haccepted : Accepted env set a x) (hbounds : a.InBounds set)
    (hreached : set.threshold ≤ valid set (collect t a x)) :
    (system.exec ⟨env, a.callBy x⟩ t).2 = applied t a x set := by
  obtain ⟨hauth, hmem, hadm⟩ := haccepted
  have hok : invoke env (a.callBy x) t = .ok ((), applied t a x set) :=
    signerCall_eq_ok_iff.2
      ⟨hauth, set, ht, hmem, hadm, approve_eq_ok_iff.2 (.inr ⟨hreached, hbounds, rfl⟩)⟩
  exact congrArg Prod.snd (Tx.commit_of_ok hok)

/-- **An action that does not fit the set leaves it alone**, however often it is approved. -/
theorem unfit_call {env : Env Address} (ht : t.signerSet = some set)
    (hunfit : ¬(a.Admissible set ∧ a.InBounds set)) :
    (system.exec ⟨env, a.callBy x⟩ t).2.signerSet = some set := by
  rcases Tx.commit_answer (invoke env (a.callBy x)) t with ⟨_, -, hok⟩ | ⟨-, hkept⟩
  · obtain ⟨-, set', ht', -, hadm, happrove⟩ := signerCall_eq_ok_iff.1 hok
    obtain rfl : set = set' := Option.some.inj (ht.symm.trans ht')
    rcases approve_eq_ok_iff.1 happrove with ⟨-, hpost⟩ | ⟨-, hbounds, -⟩
    · exact (congrArg State.signerSet hpost).trans ht
    · exact absurd ⟨hadm, hbounds⟩ hunfit
  · exact (congrArg State.signerSet hkept).trans ht

/-- Applying an action a second time, where that is possible at all, makes no difference. -/
theorem SignerAction.applyTo_applyTo (hadm : a.Admissible (a.applyTo set)) :
    a.applyTo (a.applyTo set) = a.applyTo set := by
  cases a with
  | add newSigner => simp [Admissible, applyTo] at hadm
  | remove removed => simp [Admissible, applyTo] at hadm
  | setThreshold newThreshold => rfl

/-- **Once the action is applied, its further approvals do not change the set.** -/
theorem settled_call {env : Env Address} (ht : t.signerSet = some (a.applyTo set)) :
    (system.exec ⟨env, a.callBy x⟩ t).2.signerSet = some (a.applyTo set) := by
  rcases Tx.commit_answer (invoke env (a.callBy x)) t with ⟨_, -, hok⟩ | ⟨-, hkept⟩
  · obtain ⟨-, set', ht', -, hadm, happrove⟩ := signerCall_eq_ok_iff.1 hok
    obtain rfl : a.applyTo set = set' := Option.some.inj (ht.symm.trans ht')
    rcases approve_eq_ok_iff.1 happrove with ⟨-, hpost⟩ | ⟨-, -, hpost⟩
    · exact (congrArg State.signerSet hpost).trans ht
    · have happlied := congrArg State.signerSet hpost
      exact happlied.trans (congrArg some (SignerAction.applyTo_applyTo hadm))
  · exact (congrArg State.signerSet hkept).trans ht

/-! ### The round of approvals -/

/-- The round is decided: somebody was heard, and enough approvals were there. -/
def Decided (env : Address → Env Address) (s : State Address) (set : SignerSet Address)
    (a : SignerAction Address) (callers : List Address) : Prop :=
  eligible env set callers ≠ [] ∧
    set.threshold ≤ valid set (castAll (approvals s a) (eligible env set callers))

theorem eligible_cons_of_pos (hx : (env x).auths x = true ∧ x ∈ set.signers) :
    eligible env set (x :: callers) = x :: eligible env set callers :=
  List.filter_cons_of_pos (by simpa using hx)

theorem eligible_cons_of_neg (hx : ¬((env x).auths x = true ∧ x ∈ set.signers)) :
    eligible env set (x :: callers) = eligible env set callers :=
  List.filter_cons_of_neg (by simpa using hx)

/-- Whatever comes after a decision, it stays one. -/
theorem Decided.cons (h : Decided env s set a callers) : Decided env s set a (x :: callers) := by
  by_cases hx : (env x).auths x = true ∧ x ∈ set.signers
  · rw [Decided, eligible_cons_of_pos hx]
    exact ⟨List.cons_ne_nil _ _, h.2.trans (countP_castAll_le _ x)⟩
  · rw [Decided, eligible_cons_of_neg hx]
    exact h

/-- **A round, call by call**: before the decision the set is the old one and the stored approvals
are the votes cast; after it the action has been applied. -/
theorem round_of_approvals (env : Address → Env Address) (hs : s.signerSet = some set)
    (hadm : a.Admissible set) (hbounds : a.InBounds set) (callers : List Address) :
    let t := (system.startingAt s).final (approvalCalls env a callers)
    (Decided env s set a callers → t.signerSet = some (a.applyTo set)) ∧
      (¬Decided env s set a callers → t.signerSet = some set ∧
        approvals t a = castAll (approvals s a) (eligible env set callers)) := by
  induction callers with
  | nil => exact ⟨fun h ↦ absurd rfl h.1, fun _ ↦ ⟨hs, rfl⟩⟩
  | cons x callers ih =>
    obtain ⟨ihdecided, ihopen⟩ := ih
    rw [approvalCalls, List.map_cons, System.final_cons, System.startingAt_exec, ← approvalCalls]
    by_cases hdecided : Decided env s set a callers
    · exact ⟨fun _ ↦ settled_call (ihdecided hdecided), fun hopen ↦ absurd hdecided.cons hopen⟩
    · obtain ⟨ht, hstored⟩ := ihopen hdecided
      by_cases hx : (env x).auths x = true ∧ x ∈ set.signers
      · -- the call is heard, and decides the round or is stored
        have haccepted : Accepted (env x) set a x := ⟨hx.1, hx.2, hadm⟩
        rw [Decided, eligible_cons_of_pos hx, ← collect_eq_castAll hstored]
        constructor
        · rintro ⟨-, hreached⟩
          rw [applied_call ht haccepted hbounds hreached]
          rfl
        · intro hopen
          have hshort : valid set (collect _ a x) < set.threshold :=
            Nat.lt_of_not_le fun hreached ↦ hopen ⟨List.cons_ne_nil _ _, hreached⟩
          rw [recorded_call ht haccepted hshort]
          exact ⟨ht, approvals_recorded⟩
      · rw [refused_call ht fun h ↦ hx ⟨h.1, h.2.1⟩, Decided, eligible_cons_of_neg hx]
        exact ⟨fun h ↦ absurd h hdecided, fun _ ↦ ⟨ht, hstored⟩⟩

/-- An action that does not fit the set leaves it alone throughout a round. -/
theorem round_of_unfit (hs : s.signerSet = some set)
    (hunfit : ¬(a.Admissible set ∧ a.InBounds set)) (callers : List Address) :
    ((system.startingAt s).final (approvalCalls env a callers)).signerSet = some set := by
  induction callers with
  | nil => exact hs
  | cons x callers ih =>
    rw [approvalCalls, List.map_cons, System.final_cons, System.startingAt_exec]
    exact unfit_call ih hunfit

/-- **What a round decides.** When each caller calls once, the action is applied in the end exactly
if it fits the set, some caller was heard, and the stored approvals that count together with the
new ones reach the threshold; otherwise the set is the old one. -/
theorem signerSet_after_approvals (env : Address → Env Address) (a : SignerAction Address)
    (hs : s.signerSet = some set) (hnodup : callers.Nodup) :
    let t := (system.startingAt s).final (approvalCalls env a callers)
    let applies := (a.Admissible set ∧ a.InBounds set) ∧ eligible env set callers ≠ [] ∧
      set.threshold ≤ valid set (approvals s a) +
        (eligible env set callers).countP fun x ↦
          decide (x ∈ set.signers) && decide (x ∉ approvals s a)
    (applies → t.signerSet = some (a.applyTo set)) ∧ (¬applies → t.signerSet = some set) := by
  have hcount : valid set (castAll (approvals s a) (eligible env set callers)) = _ :=
    countP_castAll _ (hnodup.filter _)
  by_cases hfits : a.Admissible set ∧ a.InBounds set
  · have hround := round_of_approvals env hs hfits.1 hfits.2 callers
    rw [Decided, hcount] at hround
    exact ⟨fun happlies ↦ hround.1 happlies.2, fun hnot ↦ (hround.2 fun h ↦ hnot ⟨hfits, h⟩).1⟩
  · exact ⟨fun happlies ↦ absurd happlies.1 hfits, fun _ ↦ round_of_unfit hs hfits callers⟩

/-- **The order of approvals does not matter.** From any state a run reaches with a signer set, for
every action and every list of callers without repetition, signers or not, who each call its entry
point once, every permutation of the list ends with the same signer set. -/
theorem approvals_order_irrelevant (inputs : List (Input Address)) (env : Address → Env Address)
    (a : SignerAction Address) {set : SignerSet Address}
    (hset : (system.final inputs).signerSet = some set) {callers callers' : List Address}
    (hnodup : callers.Nodup) (hperm : callers'.Perm callers) :
    (system.final (approvalCalls env a callers' ++ inputs)).signerSet =
      (system.final (approvalCalls env a callers ++ inputs)).signerSet := by
  rw [System.final_append, System.final_append]
  have heligible : (eligible env set callers').Perm (eligible env set callers) := hperm.filter _
  have hnil : eligible env set callers' = [] ↔ eligible env set callers = [] := by
    rw [← List.length_eq_zero_iff, heligible.length_eq, List.length_eq_zero_iff]
  obtain ⟨happlied, hkept⟩ := signerSet_after_approvals env a hset hnodup
  obtain ⟨happlied', hkept'⟩ :=
    signerSet_after_approvals env a hset (hperm.nodup_iff.2 hnodup)
  -- what decides the round is the same for both
  rw [heligible.countP_eq, Ne, hnil] at happlied' hkept'
  by_cases happlies : (a.Admissible set ∧ a.InBounds set) ∧ eligible env set callers ≠ [] ∧
      set.threshold ≤ valid set (approvals (system.final inputs) a) +
        (eligible env set callers).countP fun x ↦
          decide (x ∈ set.signers) && decide (x ∉ approvals (system.final inputs) a)
  · rw [happlied happlies, happlied' happlies]
  · rw [hkept happlies, hkept' happlies]

/-- Three signers, two of whom are a quorum. -/
def threeSigners : List (Input ℕ) :=
  [⟨.granting, .initializeMultisig 0 [1, 2, 3] 2⟩, ⟨.granting, .initialise 0⟩]

/-- A signer is removed, and is one of the three who approve that: heard before the others, or too
late. -/
theorem approvals_order_irrelevant_removed :
    (system.final (approvalCalls (fun _ ↦ .granting) (.remove 3) [2, 1, 3] ++
        threeSigners)).signerSet =
      (system.final (approvalCalls (fun _ ↦ .granting) (.remove 3) [3, 2, 1] ++
        threeSigners)).signerSet :=
  approvals_order_irrelevant threeSigners _ _
    (by decide : (system.final threeSigners).signerSet = some ⟨[1, 2, 3], 2⟩) (by decide)
    (by decide)

end DenylistGate
