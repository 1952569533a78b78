import CompliancePrimitives.Contracts.AllowlistToken.Roles
import CompliancePrimitives.Contracts.CircuitBreaker.Roles
import CompliancePrimitives.Contracts.DenylistGate.Roles
import CompliancePrimitives.Contracts.JurisdictionFlag.Roles
import CompliancePrimitives.Foundation.Handover

/-!
# Two-step hand-over, in four contracts

The denylist gate, the allowlist token, the jurisdiction flag and the circuit breaker each have a
role with a proposed successor, written four times: the token cannot take a proposal back, and the
breaker cannot hand over at once. What a completed call does to the role is a move in all four
(`RoleStep.moves`, `BreakerStep.moves`), and that is all it takes for a hand-over to take two steps
(`handover_twoStep`).

So the four differ in what they offer and not in what they guarantee. An acceptance finds in the
pending slot whom the holder of the moment proposed, and finds it only if nothing was done to the
role since; a proposal of a former holder is gone, or was never made. The guards of the entry points
say less: they compare an address with a slot.
-/

namespace Composition

open Soroban Handover

variable {Address σ ι ε α : Type}

/-- How the role of a contract is read off it. A call completes when it returns a value. -/
def roleView (roles : σ → Roles Address) (move : ι → Move Address) (auths : ι → Address → Bool) :
    View Address σ ι (Except ε α) where
  roles := roles
  move := move
  auths := auths
  completed r := ∃ v, r = .ok v

/-- **A contract follows the moves** if its role is vacant when it is deployed and every call that
completes in a run is a move. -/
theorem follows_of_commit {roles : σ → Roles Address} {move : ι → Move Address}
    {auths : ι → Address → Bool} {M : System σ ι (Except (Failure ε) α)} {invoke : ι → Tx ε σ α}
    (hexec : ∀ i s, M.exec i s = (invoke i).commit s) (hstart : roles M.start = .vacant)
    (hmoves : ∀ inputs i v s', invoke i (M.final inputs) = .ok (v, s') →
      Moves (auths i) (move i) (roles (M.final inputs)) (roles s')) :
    (roleView roles move auths).Follows M where
  start := hstart
  step inputs i := by
    rw [hexec]
    rcases Tx.commit_answer (invoke i) (M.final inputs) with ⟨v, hresult, hok⟩ | ⟨⟨f, hfail⟩, hpost⟩
    · exact .inl ⟨⟨v, hresult⟩, hmoves inputs i v _ hok⟩
    · refine .inr ⟨?_, congrArg roles hpost⟩
      rintro ⟨_, hok⟩
      cases hfail.symm.trans hok

section

variable (Address)

/-- The admin of a denylist gate. -/
def gateAdmin : View Address (DenylistGate.State Address) (DenylistGate.Input Address)
    (Except (Failure DenylistGate.Error) Unit) :=
  roleView DenylistGate.State.roles (fun i ↦ i.call.move) fun i ↦ i.env.auths

/-- The admin of an allowlist token. -/
def tokenAdmin : View Address (AllowlistToken.State Address) (AllowlistToken.Input Address)
    (Except (Failure AllowlistToken.Error) AllowlistToken.Value) :=
  roleView AllowlistToken.State.roles (fun i ↦ i.call.move) fun i ↦ i.env.auths

/-- The issuer of a jurisdiction flag. -/
def flagIssuer : View Address (JurisdictionFlag.State Address) (JurisdictionFlag.Input Address)
    (Except (Failure JurisdictionFlag.Error) JurisdictionFlag.Value) :=
  roleView JurisdictionFlag.State.roles (fun i ↦ i.call.move) fun i ↦ i.env.auths

/-- The admin of a circuit breaker. -/
def breakerAdmin : View Address (CircuitBreaker.State Address) (CircuitBreaker.Input Address)
    (Except (Failure CircuitBreaker.Error) Unit) :=
  roleView CircuitBreaker.State.roles (fun i ↦ i.call.move) fun i ↦ i.env.auths

variable [DecidableEq Address]

/-- **Hand-over takes two steps**, in every run of each of the four contracts. -/
theorem handover_twoStep :
    (gateAdmin Address).TwoStep DenylistGate.system ∧
      (∀ ext, (tokenAdmin Address).TwoStep (AllowlistToken.system ext)) ∧
      (∀ start, start.roles = .vacant →
        (flagIssuer Address).TwoStep (JurisdictionFlag.system start)) ∧
      ∀ liveUntil, (breakerAdmin Address).TwoStep (CircuitBreaker.system liveUntil) := by
  refine ⟨?_, fun ext ↦ ?_, fun start hstart ↦ ?_, fun liveUntil ↦ ?_⟩
  · exact (follows_of_commit (fun _ _ ↦ rfl) rfl
      fun _ _ _ _ h ↦ (DenylistGate.invoke_roleStep h).moves).twoStep
  · exact (follows_of_commit (fun _ _ ↦ rfl) rfl
      fun _ _ _ _ h ↦ (AllowlistToken.invoke_roleStep h).moves).twoStep
  · exact (follows_of_commit (fun _ _ ↦ rfl) hstart
      fun _ _ _ _ h ↦ (JurisdictionFlag.invoke_roleStep h).moves).twoStep
  · exact (follows_of_commit (fun _ _ ↦ rfl) rfl fun inputs _ _ _ h ↦
      (CircuitBreaker.invoke_breakerStep (CircuitBreaker.auditLog_final liveUntil inputs)
        h).moves).twoStep

end

end Composition
