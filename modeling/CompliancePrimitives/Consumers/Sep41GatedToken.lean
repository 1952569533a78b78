import CompliancePrimitives.Consumers.GatedToken
import CompliancePrimitives.Contracts.PolicyEngine

/-!
# The SEP-41 token behind a denylist gate

The token of `examples/denylist-gate-sep41`: the standard token interface, its two transfers gated
by a denylist on both parties, its two burns gated by nothing. Balances and the end of a transfer
are those of the other example tokens. What comes on top is the allowances: `approve` stores an
amount, and `transfer_from` and `burn_from` take from it what they move. The expiration that
`approve` is given is not kept.

No entry point looks at the sign of an amount. The event `gate_check` publishes when it refuses is
taken back with the invocation.

`spend` and `destroy` are what the two calls with an allowance and the two burns have in common: the
source has their lines once in every entry point, with the same checks in the same order. A missing
allowance and a missing balance count as zero, and a difference that does not fit into an `i128`
traps.
-/

namespace Sep41GatedToken

open Soroban Bookkeeping
open PolicyEngine (Callees)
open GatedToken (balance holdings setBalance settle)

/-- What `initialize` stores. -/
structure Config (Address : Type) where
  admin : Address
  gate : Address
  decimals : ℕ
  name : String
  symbol : String

/-- The contract's only event. -/
inductive Event (Address : Type) where
  | transferDenied (source target : Address)
  deriving DecidableEq

/-- `Error`. -/
inductive Error where
  | notInitialized
  | alreadyInitialized
  | notAuthorized
  | insufficientBalance
  | insufficientAllowance
  | deniedByGate
  deriving DecidableEq, Repr

/-- Storage, with the events published so far. The configuration is the wiring of the token. -/
structure State (Address : Type) where
  /-- What it shares with the other tokens: the wiring and the balances. -/
  token : GatedToken.State (Config Address) Address
  /-- `Allowance(from, spender)`. What is absent counts as 0. -/
  allowances : Address → Address → Option I128
  /-- What was published, first to last. -/
  events : List (Event Address)

/-- The storage of a fresh deployment. -/
def deploy {Address : Type} : State Address where
  token := GatedToken.deploy
  allowances := fun _ _ ↦ none
  events := []

section Operations

variable {Address σ : Type}

/-- An operation of the contract on its own state. -/
abbrev Op (Address α : Type) := Tx Error (State Address) α

/-! ### Reads -/

/-- `decimals`. -/
def decimals (s : State Address) : ℕ := (s.token.wiring.map Config.decimals).getD 7

/-- `name`. -/
def name (s : State Address) : String := (s.token.wiring.map Config.name).getD ""

/-- `symbol`. -/
def symbol (s : State Address) : String := (s.token.wiring.map Config.symbol).getD ""

/-- `allowance`. -/
def allowance (s : State Address) (owner spender : Address) : I128 :=
  (s.allowances owner spender).getD .zero

variable [DecidableEq Address]

/-! ### Private helpers -/

/-- Work on what the token shares with the other example tokens. -/
def onToken {α : Type} (x : Tx Error (GatedToken.State (Config Address) Address) α) :
    Op Address α :=
  Tx.within (fun s ↦ some s.token) (fun t s ↦ { s with token := t }) x

def publish (e : Event Address) : Op Address Unit :=
  Tx.modify fun s ↦ { s with events := s.events ++ [e] }

/-- `require_admin`. -/
def requireAdmin (env : Env Address) (admin : Address) : Op Address Unit :=
  requireStored env (fun s ↦ s.token.wiring.map Config.admin) .notInitialized .notAuthorized admin

/-- `gate_check`. -/
def gateCheck (callees : Callees Address σ) (source target : Address) :
    Tx Error (State Address × σ) Unit := do
  let s ← Tx.onFst Tx.get
  let config ← Tx.okOr s.token.wiring .notInitialized
  let cleared ← Tx.onSnd (Tx.both (fun a ↦ Tx.call (callees.check config.gate a)) source target)
  if cleared then pure ()
  else do
    -- the error takes the event back
    Tx.onFst (publish (.transferDenied source target))
    Tx.fail .deniedByGate

/-- `do_transfer`. -/
def doTransfer (source target : Address) (amount : I128) : Op Address Unit :=
  onToken (settle .insufficientBalance source target amount)

/-- Write one allowance. -/
def setAllowance (owner spender : Address) (amount : I128) : Op Address Unit :=
  Tx.modify fun s ↦
    { s with
      allowances := Function.update s.allowances owner
        (Function.update (s.allowances owner) spender (some amount)) }

/-- The middle of `transfer_from` and the beginning of `burn_from`: take an amount from an
allowance. -/
def spend (owner spender : Address) (amount : I128) : Op Address Unit := do
  let s ← Tx.get
  let available := allowance s owner spender
  Tx.ensure (¬(available : ℤ) < amount) .insufficientAllowance
  let left ← I128.sub available amount
  setAllowance owner spender left

/-- The end of `burn` and `burn_from`: take an amount from a balance. -/
def destroy (owner : Address) (amount : I128) : Op Address Unit := onToken do
  let s ← Tx.get
  let held := balance s owner
  Tx.ensure (¬(held : ℤ) < amount) .insufficientBalance
  let left ← I128.sub held amount
  setBalance owner left

/-! ### Entry points -/

/-- `initialize`, a reserved word here. -/
def initialise (env : Env Address) (config : Config Address) : Op Address Unit := do
  let s ← Tx.get
  Tx.ensure (s.token.wiring.isNone = true) .alreadyInitialized
  requireAuth env config.admin
  Tx.modify fun s ↦ { s with token := { s.token with wiring := some config } }

/-- `mint`. -/
def mint (env : Env Address) (admin target : Address) (amount : I128) : Op Address Unit := do
  requireAdmin env admin
  onToken (GatedToken.mint target amount)

/-- `approve`: the expiration ledger is not looked at. -/
def approve (env : Env Address) (owner spender : Address) (amount : I128)
    (_expirationLedger : ℕ) : Op Address Unit := do
  requireAuth env owner
  setAllowance owner spender amount

/-- `transfer`. -/
def transfer (callees : Callees Address σ) (env : Env Address) (source target : Address)
    (amount : I128) : Tx Error (State Address × σ) Unit := do
  requireAuth env source
  gateCheck callees source target
  Tx.onFst (doTransfer source target amount)

/-- `transfer_from`. The gate is not asked about the spender. -/
def transferFrom (callees : Callees Address σ) (env : Env Address)
    (spender source target : Address) (amount : I128) : Tx Error (State Address × σ) Unit := do
  requireAuth env spender
  gateCheck callees source target
  Tx.onFst (spend source spender amount)
  Tx.onFst (doTransfer source target amount)

/-- `burn`: not gated. -/
def burn (env : Env Address) (source : Address) (amount : I128) : Op Address Unit := do
  requireAuth env source
  destroy source amount

/-- `burn_from`: not gated. -/
def burnFrom (env : Env Address) (spender source : Address) (amount : I128) :
    Op Address Unit := do
  requireAuth env spender
  spend source spender amount
  destroy source amount

/-! ### The token as a system -/

/-- A call of an entry point that can change something. -/
inductive Call (Address : Type) where
  | initialise (config : Config Address)
  | mint (admin target : Address) (amount : I128)
  | approve (owner spender : Address) (amount : I128) (expirationLedger : ℕ)
  | transfer (source target : Address) (amount : I128)
  | transferFrom (spender source target : Address) (amount : I128)
  | burn (source : Address) (amount : I128)
  | burnFrom (spender source : Address) (amount : I128)

/-- Dispatch of a call to its entry point. -/
def invoke (callees : Callees Address σ) (env : Env Address) :
    Call Address → Tx Error (State Address × σ) Unit
  | .initialise config => Tx.onFst (initialise env config)
  | .mint admin target amount => Tx.onFst (mint env admin target amount)
  | .approve owner spender amount expirationLedger =>
    Tx.onFst (approve env owner spender amount expirationLedger)
  | .transfer source target amount => transfer callees env source target amount
  | .transferFrom spender source target amount =>
    transferFrom callees env spender source target amount
  | .burn source amount => Tx.onFst (burn env source amount)
  | .burnFrom spender source amount => Tx.onFst (burnFrom env spender source amount)

/-- What can happen next: an invocation of the token, or something on the rest of the ledger. -/
inductive Input (Address τ : Type) where
  | token (env : Env Address) (call : Call Address)
  | elsewhere (op : τ)

/-- The token from its deployment on, on a ledger where operations `τ` change the contracts it
asks. -/
def system {τ : Type} (callees : Env Address → Callees Address σ) (change : τ → σ → σ)
    (start : σ) :
    System (State Address × σ) (Input Address τ) (Except (Failure Error) Unit) where
  start := (deploy, start)
  exec
    | .token env call, p => (invoke (callees env) env call).commit p
    | .elsewhere op, p => (.ok (), (p.1, change op p.2))

end Operations

end Sep41GatedToken
