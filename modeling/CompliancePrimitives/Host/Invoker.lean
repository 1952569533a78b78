import CompliancePrimitives.Host.Env

/-!
# Contracts that authorize

A contract that calls another is authorized there as the invoker. A contract without a
`__check_auth` is authorized in no other way, so an invocation that does not come from it never
carries its authorization; and while a contract is deciding in its `__check_auth` whether it
authorizes, it has not.

Both are facts about the host, and both are changes to what an invocation is given: `Env.invokedBy`
adds the authorization of the invoker, and `Env.outside` takes that of a contract away. A single
contract never asks which of them it runs under; they come into play where several contracts share a
world, and in what is said about every run that one of them has no part in.
-/

namespace Soroban

variable {Address : Type} [DecidableEq Address]

/-- What a contract sees that `self` calls: the invoker is authorized. -/
def Env.invokedBy (self : Address) (env : Env Address) : Env Address :=
  { env with auths := fun a ↦ decide (a = self) || env.auths a }

/-- What is seen where `self` has not authorized. -/
def Env.outside (self : Address) (env : Env Address) : Env Address :=
  { env with auths := fun a ↦ !decide (a = self) && env.auths a }

@[simp]
theorem Env.auths_outside (self : Address) (env : Env Address) :
    (env.outside self).auths self = false := by
  simp [Env.outside]

end Soroban
