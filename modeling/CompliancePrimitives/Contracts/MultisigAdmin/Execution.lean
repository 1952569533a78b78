import CompliancePrimitives.Contracts.MultisigAdmin.Governance

/-!
# `multisig-admin`: what the answer of `approve` says about `execute`

`Executable` is what `execute` decides: an unexpired proposal with enough approvals of current
signers. `approve` answers whether there are now enough approvals to execute, but counts
differently: it takes the length of the stored list, in which the approvals of removed signers still
stand. The answer is the truth exactly as long as those do not make the difference
(`approve_truthful_iff`).

The difference is a condition on the state before the call, `RemovedIdle`: as many approvals as the
threshold asks for are stored only if as many of them are of current signers. It fails in the window
between the removal of a signer and the execution of what the signer had approved, and there the
answer `true` is followed by an `execute` that refuses.
-/

namespace MultisigAdmin

open Soroban

variable {Address : Type} [DecidableEq Address]
variable {env env' : Env Address} {s s' : State Address} {id : ℕ}

/-- The proposal is stored, has not expired at `sequence`, and is approved by enough current
signers. -/
def Executable (sequence : ℕ) (s : State Address) (id : ℕ) : Prop :=
  ∃ proposal signers threshold, s.proposals id = some proposal ∧ sequence < proposal.expiry ∧
    s.signers = some signers ∧ s.threshold = some threshold ∧
    threshold ≤ validApprovalCount signers proposal

/-- **This is all that `execute` asks for.** -/
theorem execute_commit_eq_ok_iff :
    ((execute env id).commit s).1 = .ok () ↔ Executable env.sequence s id := by
  constructor
  · intro h
    obtain ⟨proposal, signers, threshold, hp, hexp, hs, ht, hcount, -⟩ :=
      execute_ok (Tx.ok_of_commit_fst h)
    exact ⟨proposal, signers, threshold, hp, hexp, hs, ht, hcount⟩
  · rintro ⟨proposal, signers, threshold, hp, hexp, hs, ht, hcount⟩
    have hok : ∃ s', execute env id s = .ok ((), s') := by
      simp only [execute, extendInstanceTtl, publish, Tx.bind_eq_ok_iff, Tx.get_eq_ok_iff,
        Tx.okOr_eq_ok_iff, Tx.ensure_eq_ok_iff, Tx.modify_eq_ok_iff, and_assoc, exists_and_left,
        exists_eq_left, exists_const]
      exact ⟨_, proposal, hp, by omega, threshold, ht, signers, hs, by omega, rfl⟩
    obtain ⟨s', hok⟩ := hok
    exact congrArg Prod.fst (Tx.commit_of_ok hok)

/-- One more approval, of a current signer. -/
theorem validApprovalCount_concat {signers : List Address} {proposal : Proposal Address}
    {approver : Address} (h : approver ∈ signers) :
    validApprovalCount signers { proposal with approvals := proposal.approvals ++ [approver] } =
      validApprovalCount signers proposal + 1 := by
  rw [validApprovalCount, List.countP_append, validApprovalCount]
  simp [h]

/-- **Approvals of removed signers do not make the difference**: with one approval more there are
too few in any case, or enough of current signers. -/
def RemovedIdle (s : State Address) (id : ℕ) : Prop :=
  ∀ proposal signers threshold, s.proposals id = some proposal → s.signers = some signers →
    s.threshold = some threshold →
    proposal.approvals.length + 1 < threshold ∨ threshold ≤ validApprovalCount signers proposal + 1

/-- **When `approve` tells the truth.** In every state, the answer of a completed `approve` says
whether `execute` then succeeds in the same ledger if and only if the approvals of removed signers
do not make the difference. -/
theorem approve_truthful_iff {approver : Address} {b : Bool}
    (h : ((approve env id approver).commit s).1 = .ok b) (hledger : env'.sequence = env.sequence) :
    (b = true ↔ ((execute env' id).commit ((approve env id approver).commit s).2).1 = .ok ()) ↔
      RemovedIdle s id := by
  obtain ⟨-, -, proposal, signers, threshold, hp, hexp, hs, ht, hmem, -, rfl, hpost⟩ :=
    approve_ok (Tx.ok_of_commit_fst h)
  have hstored : ((approve env id approver).commit s).2.proposals id =
      some { proposal with approvals := proposal.approvals ++ [approver] } := by
    rw [hpost]
    exact Function.update_self ..
  have hsigners : ((approve env id approver).commit s).2.signers = some signers := by
    rw [hpost]
    exact hs
  have hthreshold : ((approve env id approver).commit s).2.threshold = some threshold := by
    rw [hpost]
    exact ht
  -- `execute` looks at the proposal, the signers and the threshold `approve` has left behind
  have hexecute : Executable env'.sequence ((approve env id approver).commit s).2 id ↔
      threshold ≤ validApprovalCount signers proposal + 1 := by
    rw [← validApprovalCount_concat hmem]
    constructor
    · rintro ⟨p, l, n, hp', -, hs', ht', hcount⟩
      rw [hstored] at hp'
      rw [hsigners] at hs'
      rw [hthreshold] at ht'
      cases hp'
      cases hs'
      cases ht'
      exact hcount
    · intro hcount
      exact ⟨_, signers, threshold, hstored, hledger ▸ hexp, hsigners, hthreshold, hcount⟩
  have hidle : RemovedIdle s id ↔
      (proposal.approvals.length + 1 < threshold ∨
        threshold ≤ validApprovalCount signers proposal + 1) := by
    constructor
    · exact fun hidle ↦ hidle proposal signers threshold hp hs ht
    · intro hcases p l n hp' hs' ht'
      cases hp.symm.trans hp'
      cases hs.symm.trans hs'
      cases ht.symm.trans ht'
      exact hcases
  have hvalid : validApprovalCount signers proposal ≤ proposal.approvals.length :=
    List.countP_le_length
  rw [execute_commit_eq_ok_iff, hexecute, hidle, decide_eq_true_iff, List.length_append,
    List.length_singleton]
  omega

/-- With all earlier approvers still signers, the answer is the truth. -/
theorem removedIdle_of_current
    (h : ∀ proposal signers, s.proposals id = some proposal → s.signers = some signers →
      ∀ x ∈ proposal.approvals, x ∈ signers) : RemovedIdle s id := by
  intro proposal signers threshold hp hs _
  have hall : validApprovalCount signers proposal = proposal.approvals.length :=
    List.countP_eq_length.2 fun x hx ↦ decide_eq_true (h proposal signers hp hs x hx)
  omega

/-- Signer 1 of three has approved a proposal, and is removed. -/
def approverRemoved : List (Input ℕ) :=
  [⟨.granting [2, 3], .removeSigner 1⟩, ⟨.granting [], .approve 0 1⟩,
    ⟨.granting [], .propose [] 100⟩, ⟨.granting [], .initialise [1, 2, 3] 2⟩]

/-- Before the removal, the approval of signer 2 is the second one, and the proposal can be
executed. -/
theorem approve_truthful_twoSigners :
    true = true ↔
      ((execute (.granting []) 0).commit
        ((approve (.granting []) 0 2).commit
          ((system 0).final (approverRemoved.drop 1))).2).1 = .ok () :=
  (approve_truthful_iff (b := true) (by decide) rfl).2
    (removedIdle_of_current fun proposal signers hp hs ↦ by
      have hp' : ((system 0).final (approverRemoved.drop 1)).proposals 0 =
          some { payload := [], expiry := 100, approvals := [1] } := by decide
      have hs' : ((system 0).final (approverRemoved.drop 1)).signers = some [1, 2, 3] := by decide
      cases hp'.symm.trans hp
      cases hs'.symm.trans hs
      decide)

/-- **After it, `approve` answers that there are enough approvals**, and `execute` refuses. -/
theorem approve_misleads_approverRemoved :
    ((approve (.granting []) 0 2).commit ((system 0).final approverRemoved)).1 = .ok true ∧
      ((execute (.granting []) 0).commit
        ((approve (.granting []) 0 2).commit ((system 0).final approverRemoved)).2).1 =
          .error (.error .thresholdNotMet) ∧
      ¬(true = true ↔
        ((execute (.granting []) 0).commit
          ((approve (.granting []) 0 2).commit ((system 0).final approverRemoved)).2).1 =
            .ok ()) := by
  have hrefused : ((execute (.granting []) 0).commit
      ((approve (.granting []) 0 2).commit ((system 0).final approverRemoved)).2).1 =
        .error (.error .thresholdNotMet) := by decide
  refine ⟨by decide, hrefused, fun htruth ↦ ?_⟩
  have hok := htruth.1 rfl
  rw [hrefused] at hok
  cases hok

end MultisigAdmin
