import CompliancePrimitives.Foundation.Transaction

/-!
# The Soroban host, as far as a contract can see it

One invocation sees a ledger sequence number, a ledger timestamp and the authorization entries of
its transaction. `require_auth` either lets the invocation go on or traps it: a contract cannot
catch a missing authorization, and so it is never a typed contract error.

Integers of the ledger are naturals here. Where the Rust type bounds matter — a counter that may
not wrap, an addition that saturates — the model states the bound at the operation itself.

The time-to-live arithmetic of `extend_ttl` is `extendTtl`. It speaks of the ledger an entry is
live until, so that the remaining time to live falls by one per ledger without anything being
rewritten.
-/

namespace Soroban

/-- Byte strings: the host's `Bytes` and `String` are both plain bytes. -/
abbrev Bytes := List UInt8

/-- Byte strings are compared byte by byte. -/
instance : LawfulBEq Bytes := inferInstanceAs (LawfulBEq (List UInt8))

/-- `BytesN<32>`: a Wasm hash or an ed25519 public key. -/
abbrev Bytes32 := Vector UInt8 32

/-- `BytesN<64>`: an ed25519 signature. -/
abbrev Bytes64 := Vector UInt8 64

/-- `Symbol`: a short name. -/
abbrev Symbol := String

/-- What the host tells one invocation. -/
structure Env (Address : Type) where
  /-- `env.ledger().sequence()`. -/
  sequence : ℕ
  /-- `env.ledger().timestamp()`, in seconds. -/
  timestamp : ℕ
  /-- Whether `require_auth` of an address is granted to this invocation. -/
  auths : Address → Bool

section

variable {Address ε σ : Type}

/-- `Address::require_auth`: the host traps an invocation that lacks the authorization. -/
def requireAuth (env : Env Address) (a : Address) : Tx ε σ Unit :=
  Tx.orTrap (env.auths a = true)

@[simp]
theorem requireAuth_eq_ok_iff {env : Env Address} {a : Address} {s s' : σ} {u : Unit} :
    (requireAuth env a : Tx ε σ Unit) s = .ok (u, s') ↔ env.auths a = true ∧ s' = s :=
  Tx.orTrap_eq_ok_iff

/-- The guard every contract here puts before its administrative entry points: the caller must
authorize, and must be the address stored in `slot`. A missing authorization traps before the slot
is looked at. -/
def requireStored [DecidableEq Address] (env : Env Address) (slot : σ → Option Address)
    (absent other : ε) (caller : Address) : Tx ε σ Unit := do
  requireAuth env caller
  let s ← Tx.get
  let stored ← Tx.okOr (slot s) absent
  Tx.ensure (stored = caller) other

@[simp]
theorem requireStored_eq_ok_iff [DecidableEq Address] {env : Env Address}
    {slot : σ → Option Address} {absent other : ε} {caller : Address} {s s' : σ} {u : Unit} :
    requireStored env slot absent other caller s = .ok (u, s') ↔
      env.auths caller = true ∧ slot s = some caller ∧ s' = s := by
  simp only [requireStored, Tx.bind_eq_ok_iff, requireAuth_eq_ok_iff, Tx.get_eq_ok_iff,
    Tx.okOr_eq_ok_iff, Tx.ensure_eq_ok_iff, and_assoc, exists_and_left, exists_eq_left,
    exists_const]
  constructor
  · rintro ⟨hauth, stored, hslot, rfl, rfl⟩
    exact ⟨hauth, hslot, rfl⟩
  · rintro ⟨hauth, hslot, rfl⟩
    exact ⟨hauth, caller, hslot, rfl, rfl⟩

theorem commutes_requireAuth {f : σ → σ} (env : Env Address) (a : Address) :
    Tx.Commutes f (requireAuth env a : Tx ε σ Unit) :=
  Tx.commutes_orTrap _

/-- The guard is blind to what leaves its slot alone. -/
theorem commutes_requireStored [DecidableEq Address] {f : σ → σ} {slot : σ → Option Address}
    (hslot : ∀ s, slot (f s) = slot s) (env : Env Address) (absent other : ε)
    (caller : Address) : Tx.Commutes f (requireStored env slot absent other caller) := by
  refine (commutes_requireAuth env caller).bind fun _ ↦
    Tx.commutes_get_bind (fun s ↦ by rw [hslot]) fun s ↦ ?_
  exact (Tx.commutes_okOr _ _).bind fun _ ↦ Tx.commutes_ensure _ _

end

/-! ### Time to live -/

/-- The ledger an entry is live until, after `extend_ttl(threshold, target)` at `sequence`: a
remaining time to live below `threshold` is raised to `target`, any other is left alone. That the
comparison is strict is an assumption on the host: what is proved of it is exact for a strict one,
and no counterexample rests on the case of equality. -/
def extendTtl (threshold target sequence liveUntil : ℕ) : ℕ :=
  if liveUntil - sequence < threshold then sequence + target else liveUntil

/-- The largest `u64`. -/
def u64Max : ℕ := 2 ^ 64 - 1

/-- `u64::saturating_add`. -/
def saturatingAdd (a b : ℕ) : ℕ := min (a + b) u64Max

end Soroban
