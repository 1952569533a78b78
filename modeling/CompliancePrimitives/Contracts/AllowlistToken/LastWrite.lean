import CompliancePrimitives.Contracts.AllowlistToken.Roles
import CompliancePrimitives.Foundation.Replay

/-!
# `allowlist-token`: the last write wins

Five entry points write entries, two of them for a list of addresses that may repeat. A completed
call **touches** the addresses it writes, one after the other, with an entry or with none; a call
that fails touches nothing. The entries are what all touches of a run make of them, so `is_allowed`
is decided by the last touch of an address, and by the ledger in which it is asked
(`isAllowed_iff_lastTouch`).

Nothing has to be assumed of a batch, not even that its addresses differ: it touches them in order,
so the last occurrence of an address in it counts. An expiry is not a touch. It is stored with the
entry, and an answer compares it with the ledger of the question, so the same run may allow an
address in one ledger and not in the next.
-/

namespace AllowlistToken

open Soroban

variable {Address : Type}

/-- What a call is to write, address by address. -/
def Call.touches (call : Call Address) : List (Write Address AllowlistEntry) :=
  call.write.elim [] fun write ↦ write.1.map fun address ↦ ⟨address, write.2⟩

/-- **The touches of a step**: a call that fails has none. -/
def touches (e : Moment Address) : List (Write Address AllowlistEntry) :=
  match e.result with
  | .ok _ => e.input.call.touches
  | .error _ => []

/-- An entry allows in a ledger if it has no expiration ledger, or one that is not yet over. -/
def AllowlistEntry.AllowsIn (sequence : ℕ) (entry : AllowlistEntry) : Prop :=
  entry.expirationLedger = none ∨ ∃ exp, entry.expirationLedger = some exp ∧ sequence ≤ exp

section

variable [DecidableEq Address] {ext : Externals Address} {env : Env Address}
  {s s' : State Address} {call : Call Address}

omit [DecidableEq Address] in
/-- A call that is about the admin role writes no entry. -/
theorem Call.write_eq_none_of_move (h : call.move ≠ .other) : call.write = none := by
  cases call <;> first | rfl | exact absurd rfl h

/-- An entry for each of some addresses. -/
theorem State.allowed_write (addresses : List Address) (entry : Option AllowlistEntry) :
    (s.write addresses entry).allowed =
      replay s.allowed (addresses.map fun address ↦ ⟨address, entry⟩) := by
  rw [replay_map]
  rfl

/-- **A completed call writes its touches**, and nothing else. -/
theorem RoleStep.allowed_eq (h : RoleStep ext env call s s') :
    s'.allowed = replay s.allowed call.touches := by
  cases h with
  -- what is not about entries touches none
  | handedOver _ hne _ _ hs' =>
    rw [Call.touches, Call.write_eq_none_of_move hne, hs']
    rfl
  | governed _ _ _ _ hwrite _ _ hs' =>
    rw [Call.touches, hwrite, hs']
    rfl
  -- the writes are the touches, in the order of the list
  | granted _ addresses entry _ _ _ hwrite _ hs' =>
    rw [Call.touches, hwrite, hs', State.allowed_write]
    rfl
  | delegated sub hcall _ hs' =>
    rw [hcall, hs', State.allowed_write]
    rfl
  | revoked _ addresses _ _ hwrite _ hs' =>
    rw [Call.touches, hwrite, hs', State.allowed_write]
    rfl
  | blocked _ _ _ hcall _ hs' =>
    rw [hcall, hs']
    rfl
  | forwarded _ _ _ hcall _ hs' =>
    rw [hcall, hs']
    rfl

/-- One step of a run writes its touches. -/
theorem exec_allowed (ext : Externals Address) (s : State Address) (i : Input Address) :
    ((system ext).exec i s).2.allowed =
      replay s.allowed (touches ((system ext).stepFrom s i)) := by
  rcases exec_roleStep ext i s with ⟨⟨v, hok⟩, hstep⟩ | ⟨⟨f, hfail⟩, hpost⟩
  · have hresult : ((system ext).stepFrom s i).result = .ok v := hok
    rw [hstep.allowed_eq, touches, hresult]
    rfl
  · have hresult : ((system ext).stepFrom s i).result = .error f := hfail
    rw [hpost, touches, hresult]
    rfl

omit [DecidableEq Address] in
/-- What `is_allowed` reads off an entry. -/
theorem isAllowed_eq_true_iff {sequence : ℕ} {a : Address} :
    isAllowed sequence s a = true ↔
      ∃ entry, s.allowed a = some entry ∧ entry.AllowsIn sequence := by
  rw [isAllowed]
  rcases s.allowed a with _ | ⟨_ | exp⟩
  · simp
  · simp [AllowlistEntry.AllowsIn]
  · simp [AllowlistEntry.AllowsIn]

/-- **The last write wins, with expiry.** After every run an address is allowed in a ledger if and
only if it was touched, and last with an entry that has no expiration ledger or one not before that
ledger. -/
theorem isAllowed_iff_lastTouch (ext : Externals Address) (inputs : List (Input Address))
    (sequence : ℕ) (a : Address) :
    isAllowed sequence ((system ext).final inputs) a = true ↔
      ∃ w entry, lastWrite (runWrites touches ((system ext).history inputs)) a = some w ∧
        w.value = some entry ∧ entry.AllowsIn sequence := by
  have hallowed : ((system ext).final inputs).allowed a =
      (lastWrite (runWrites touches ((system ext).history inputs)) a).bind Write.value := by
    have hreplay := (system ext).replay_history (exec_allowed ext) inputs
    rw [hreplay]
    exact replay_empty _ a
  rw [isAllowed_eq_true_iff, hallowed]
  constructor
  · rintro ⟨entry, hentry, hallows⟩
    obtain ⟨w, hw, hvalue⟩ := Option.bind_eq_some_iff.1 hentry
    exact ⟨w, entry, hw, hvalue, hallows⟩
  · rintro ⟨w, entry, hw, hvalue, hallows⟩
    exact ⟨entry, Option.bind_eq_some_iff.2 ⟨w, hw, hvalue⟩, hallows⟩

end

end AllowlistToken
