import CompliancePrimitives.Composition.FailsClosed
import CompliancePrimitives.Consumers.GatedToken

/-!
# The example tokens

Five tokens of the `examples` directory, each a `GatedToken.Consumer`: what it is wired to, what it
asks before a transfer and in which order, and its errors. What a token asks of the contracts it is
wired to is a `Policy`: a breaker to be open, checks that both parties pass, and checks that only
the sender passes. The last kind is where the two tokens with a jurisdiction flag and no allowlist
stand apart: a recipient's jurisdiction is nothing to them.

Whatever is deployed where, the questions go through exactly when the policy clears the parties
(`ExampleToken.obeys`), although a missing contract, an uninitialized breaker and a refusal end in
different ways.

Each token keeps its own error for each of its refusals, as the source has them, although none of
the results tells one refusal from another: a caller does.
-/

namespace Consumers

open Soroban Composition
open PolicyEngine (Callees CheckKind)

/-- What a token asks of the contracts it is wired to. -/
structure Policy (Address : Type) where
  breaker : Option Address
  both : List (CheckKind Address)
  sender : List (CheckKind Address)

/-- The wired contracts clear a transfer. -/
structure Policy.Clears {Address : Type} (policy : Policy Address) (sequence : ℕ)
    (w : World Address) (source target : Address) : Prop where
  /-- The breaker, if one is wired, is initialized and not frozen. -/
  breaker : ∀ b, policy.breaker = some b → BreakerOpen w b
  /-- The checks of both parties pass for both. -/
  both : ∀ check ∈ policy.both, PassesBoth sequence w source target check
  /-- The checks of the sender alone pass for the sender. -/
  sender : ∀ check ∈ policy.sender, Passes sequence w check source

/-! ### `circuit-breaker-consumer` -/

namespace CircuitBreakerConsumer

/-- `Error`. -/
inductive Error where
  | notInitialized
  | alreadyInitialized
  | insufficientBalance
  | frozenByBreaker
  deriving DecidableEq, Repr

/-- What `initialize` stores. -/
structure Wiring (Address : Type) where
  breaker : Address

variable {Address σ : Type}

/-- What `transfer` asks. -/
def clear (callees : Callees Address σ) (wiring : Wiring Address) (_source _target : Address) :
    Tx Error σ Unit := do
  let frozen ← Tx.call (callees.isFrozen wiring.breaker)
  Tx.ensure (frozen = false) .frozenByBreaker

/-- The token. -/
def token (callees : Env Address → Callees Address σ) :
    GatedToken.Consumer Error (Wiring Address) Address σ where
  clear env := clear (callees env)
  notInitialized := .notInitialized
  alreadyInitialized := .alreadyInitialized
  insufficientBalance := .insufficientBalance

def policy (wiring : Wiring Address) : Policy Address := ⟨some wiring.breaker, [], []⟩

end CircuitBreakerConsumer

/-! ### `denylist-gate-consumer` -/

namespace DenylistGateConsumer

/-- `Error`. -/
inductive Error where
  | notInitialized
  | alreadyInitialized
  | insufficientBalance
  | deniedByGate
  | frozenByBreaker
  deriving DecidableEq, Repr

/-- What `initialize` stores. -/
structure Wiring (Address : Type) where
  gate : Address
  breaker : Address

variable {Address σ : Type}

/-- What `transfer` asks. -/
def clear (callees : Callees Address σ) (wiring : Wiring Address) (source target : Address) :
    Tx Error σ Unit := do
  let frozen ← Tx.call (callees.isFrozen wiring.breaker)
  Tx.ensure (frozen = false) .frozenByBreaker
  let cleared ← Tx.both (fun a ↦ Tx.call (callees.check wiring.gate a)) source target
  Tx.ensure (cleared = true) .deniedByGate

/-- The token. -/
def token (callees : Env Address → Callees Address σ) :
    GatedToken.Consumer Error (Wiring Address) Address σ where
  clear env := clear (callees env)
  notInitialized := .notInitialized
  alreadyInitialized := .alreadyInitialized
  insufficientBalance := .insufficientBalance

def policy (wiring : Wiring Address) : Policy Address :=
  ⟨some wiring.breaker, [.denylist wiring.gate], []⟩

end DenylistGateConsumer

/-! ### `jurisdiction-flag-consumer` -/

namespace JurisdictionFlagConsumer

/-- `Error`. -/
inductive Error where
  | notInitialized
  | alreadyInitialized
  | insufficientBalance
  | jurisdictionNotPermitted
  deriving DecidableEq, Repr

/-- What `initialize` stores. -/
structure Wiring (Address : Type) where
  flag : Address
  allowedCodes : List Bytes

variable {Address σ : Type}

/-- What `transfer` asks: nothing about the recipient. -/
def clear (callees : Callees Address σ) (wiring : Wiring Address) (source _target : Address) :
    Tx Error σ Unit := do
  let permitted ← Tx.call
    (callees.tryIsPermittedJurisdiction wiring.flag source wiring.allowedCodes)
  Tx.ensure (permitted = some true) .jurisdictionNotPermitted

/-- The token. -/
def token (callees : Env Address → Callees Address σ) :
    GatedToken.Consumer Error (Wiring Address) Address σ where
  clear env := clear (callees env)
  notInitialized := .notInitialized
  alreadyInitialized := .alreadyInitialized
  insufficientBalance := .insufficientBalance

def policy (wiring : Wiring Address) : Policy Address :=
  ⟨none, [], [.jurisdiction wiring.flag wiring.allowedCodes]⟩

end JurisdictionFlagConsumer

/-! ### `jurisdiction-denylist-consumer` -/

namespace JurisdictionDenylistConsumer

/-- `Error`. -/
inductive Error where
  | notInitialized
  | alreadyInitialized
  | insufficientBalance
  | deniedByGate
  | deniedByJurisdiction
  deriving DecidableEq, Repr

/-- What `initialize` stores. -/
structure Wiring (Address : Type) where
  gate : Address
  jurisdiction : Address
  allowedJurisdictions : List Bytes

variable {Address σ : Type}

/-- What `transfer` asks: the gate about both parties, the flag about the sender. -/
def clear (callees : Callees Address σ) (wiring : Wiring Address) (source target : Address) :
    Tx Error σ Unit := do
  let cleared ← Tx.both (fun a ↦ Tx.call (callees.check wiring.gate a)) source target
  Tx.ensure (cleared = true) .deniedByGate
  let permitted ← Tx.call
    (callees.tryIsPermittedJurisdiction wiring.jurisdiction source wiring.allowedJurisdictions)
  Tx.ensure (permitted = some true) .deniedByJurisdiction

/-- The token. -/
def token (callees : Env Address → Callees Address σ) :
    GatedToken.Consumer Error (Wiring Address) Address σ where
  clear env := clear (callees env)
  notInitialized := .notInitialized
  alreadyInitialized := .alreadyInitialized
  insufficientBalance := .insufficientBalance

def policy (wiring : Wiring Address) : Policy Address :=
  ⟨none, [.denylist wiring.gate],
    [.jurisdiction wiring.jurisdiction wiring.allowedJurisdictions]⟩

end JurisdictionDenylistConsumer

/-! ### `rwa-token` -/

namespace RwaToken

/-- `Error`. -/
inductive Error where
  | notInitialized
  | alreadyInitialized
  | insufficientBalance
  | notAllowlisted
  | deniedByGate
  | jurisdictionNotPermitted
  | circuitBreakerFrozen
  deriving DecidableEq, Repr

/-- What `initialize` stores. -/
structure Wiring (Address : Type) where
  allowlist : Address
  gate : Address
  jurisdiction : Address
  circuitBreaker : Address
  allowedCodes : List Bytes

variable {Address σ : Type}

/-- What `transfer` asks. The flag is asked about both parties, whatever it answers for the
first. -/
def clear (callees : Callees Address σ) (wiring : Wiring Address) (source target : Address) :
    Tx Error σ Unit := do
  let frozen ← Tx.call (callees.isFrozen wiring.circuitBreaker)
  Tx.ensure (frozen = false) .circuitBreakerFrozen
  let allowed ← Tx.both (fun a ↦ Tx.call (callees.isAllowed wiring.allowlist a)) source target
  Tx.ensure (allowed = true) .notAllowlisted
  let cleared ← Tx.both (fun a ↦ Tx.call (callees.check wiring.gate a)) source target
  Tx.ensure (cleared = true) .deniedByGate
  let sourcePermitted ← Tx.call
    (callees.tryIsPermittedJurisdiction wiring.jurisdiction source wiring.allowedCodes)
  let targetPermitted ← Tx.call
    (callees.tryIsPermittedJurisdiction wiring.jurisdiction target wiring.allowedCodes)
  Tx.ensure (sourcePermitted = some true ∧ targetPermitted = some true) .jurisdictionNotPermitted

/-- The token. -/
def token (callees : Env Address → Callees Address σ) :
    GatedToken.Consumer Error (Wiring Address) Address σ where
  clear env := clear (callees env)
  notInitialized := .notInitialized
  alreadyInitialized := .alreadyInitialized
  insufficientBalance := .insufficientBalance

def policy (wiring : Wiring Address) : Policy Address :=
  ⟨some wiring.circuitBreaker,
    [.allowlist wiring.allowlist, .denylist wiring.gate,
      .jurisdiction wiring.jurisdiction wiring.allowedCodes], []⟩

end RwaToken

/-! ### The questions against the deployed contracts -/

section

variable {Address : Type} [DecidableEq Address] (env : Env Address) (w : World Address)
  (source target : Address)

/-- A breaker asked by a token. -/
theorem failsClosed_breaker {ε : Type} (b : Address) (w : World Address) :
    Tx.FailsClosed World.silent (!·) (Tx.call ((callees env).isFrozen b) : Tx ε _ Bool)
      (BreakerOpen w b) w :=
  (failsClosed_isFrozen env b w).call

/-- A gate asked by a token about both parties. -/
theorem failsClosed_gate {ε : Type} (gate : Address) :
    Tx.FailsClosed World.silent id
      (Tx.both (fun a ↦ Tx.call ((callees env).check gate a)) source target : Tx ε _ Bool)
      (PassesBoth env.sequence w source target (.denylist gate)) w :=
  Tx.FailsClosed.both (fun a w' hw' ↦
    ((failsClosed_runCheck env (.denylist gate) a w').congr (passes_congr hw')).call) source target

/-- An allowlist asked by a token about both parties. -/
theorem failsClosed_allowlist {ε : Type} (allowlist : Address) :
    Tx.FailsClosed World.silent id
      (Tx.both (fun a ↦ Tx.call ((callees env).isAllowed allowlist a)) source target : Tx ε _ Bool)
      (PassesBoth env.sequence w source target (.allowlist allowlist)) w :=
  Tx.FailsClosed.both (fun a w' hw' ↦
    ((failsClosed_runCheck env (.allowlist allowlist) a w').congr (passes_congr hw')).call)
    source target

/-- A flag asked by a token about one party. -/
theorem failsClosed_flag {ε : Type} (flag : Address) (codes : List Bytes) (a : Address) :
    Tx.FailsClosed World.silent (fun answer ↦ decide (answer = some true))
      (Tx.call ((callees env).tryIsPermittedJurisdiction flag a codes) : Tx ε _ (Option Bool))
      (Passes env.sequence w (.jurisdiction flag codes) a) w :=
  (failsClosed_tryIsPermittedJurisdiction env flag a codes w).call

theorem CircuitBreakerConsumer.goesThrough_clear (wiring : CircuitBreakerConsumer.Wiring Address) :
    Tx.GoesThrough World.silent
      (CircuitBreakerConsumer.clear (callees env) wiring source target)
      ((CircuitBreakerConsumer.policy wiring).Clears env.sequence w source target) w := by
  refine ((failsClosed_breaker env wiring.breaker w).guard_last (by simp)).congr ?_
  exact ⟨fun h ↦ ⟨by rintro _ ⟨⟩; exact h, by simp [policy], by simp [policy]⟩,
    fun h ↦ h.breaker _ rfl⟩

theorem DenylistGateConsumer.goesThrough_clear (wiring : DenylistGateConsumer.Wiring Address) :
    Tx.GoesThrough World.silent
      (DenylistGateConsumer.clear (callees env) wiring source target)
      ((DenylistGateConsumer.policy wiring).Clears env.sequence w source target) w := by
  refine ((failsClosed_breaker env wiring.breaker w).guard (by simp) fun w' hw' ↦
    ((failsClosed_gate env w' source target wiring.gate).guard_last (by simp)).congr
      (passesBoth_congr hw')).congr ?_
  constructor
  · rintro ⟨hbreaker, hgate⟩
    exact ⟨by rintro _ ⟨⟩; exact hbreaker, by simpa [policy] using hgate, by simp [policy]⟩
  · rintro ⟨hbreaker, hboth, -⟩
    exact ⟨hbreaker _ rfl, hboth _ List.mem_cons_self⟩

theorem JurisdictionFlagConsumer.goesThrough_clear
    (wiring : JurisdictionFlagConsumer.Wiring Address) :
    Tx.GoesThrough World.silent
      (JurisdictionFlagConsumer.clear (callees env) wiring source target)
      ((JurisdictionFlagConsumer.policy wiring).Clears env.sequence w source target) w := by
  refine ((failsClosed_flag env w wiring.flag wiring.allowedCodes source).guard_last
    (by simp)).congr ?_
  constructor
  · exact fun h ↦ ⟨by rintro _ ⟨⟩, by simp [policy], by simpa [policy] using h⟩
  · exact fun h ↦ h.sender _ List.mem_cons_self

theorem JurisdictionDenylistConsumer.goesThrough_clear
    (wiring : JurisdictionDenylistConsumer.Wiring Address) :
    Tx.GoesThrough World.silent
      (JurisdictionDenylistConsumer.clear (callees env) wiring source target)
      ((JurisdictionDenylistConsumer.policy wiring).Clears env.sequence w source target) w := by
  refine ((failsClosed_gate env w source target wiring.gate).guard (by simp) fun w' hw' ↦
    ((failsClosed_flag env w' wiring.jurisdiction wiring.allowedJurisdictions source).guard_last
      (by simp)).congr (passes_congr hw')).congr ?_
  constructor
  · rintro ⟨hgate, hflag⟩
    exact ⟨by rintro _ ⟨⟩, by simpa [policy] using hgate, by simpa [policy] using hflag⟩
  · rintro ⟨-, hboth, hsender⟩
    exact ⟨hboth _ List.mem_cons_self, hsender _ List.mem_cons_self⟩

/-- The flag asked about both parties: a refusal of the first does not spare the second. -/
theorem RwaToken.goesThrough_permitted (flag : Address) (codes : List Bytes) (w : World Address) :
    Tx.GoesThrough World.silent
      (do
        let sourcePermitted ← Tx.call ((callees env).tryIsPermittedJurisdiction flag source codes)
        let targetPermitted ← Tx.call ((callees env).tryIsPermittedJurisdiction flag target codes)
        Tx.ensure (sourcePermitted = some true ∧ targetPermitted = some true)
          Error.jurisdictionNotPermitted)
      (PassesBoth env.sequence w source target (.jurisdiction flag codes)) w := by
  refine (failsClosed_flag env w flag codes source).bind ?_ ?_
  · intro answer w' hyes hw'
    obtain rfl : answer = some true := by simpa using hyes
    exact ((failsClosed_flag env w' flag codes target).guard_last (by simp)).congr
      (passes_congr hw')
  · intro answer w' hno hw'
    have hne : answer ≠ some true := by simpa using hno
    refine ((failsClosed_flag env w' flag codes target).bind (Q := False) ?_ ?_).congr
      ⟨And.right, False.elim⟩
    all_goals exact fun _ _ _ _ ↦
      Tx.failsClosed_of_error (Tx.ensure_of_not fun h ↦ hne h.1) not_false

theorem RwaToken.goesThrough_clear (wiring : RwaToken.Wiring Address) :
    Tx.GoesThrough World.silent
      (RwaToken.clear (callees env) wiring source target)
      ((RwaToken.policy wiring).Clears env.sequence w source target) w := by
  refine ((failsClosed_breaker env wiring.circuitBreaker w).guard (by simp) fun w₁ hw₁ ↦
    ((failsClosed_allowlist env w₁ source target wiring.allowlist).guard (by simp) fun w₂ hw₂ ↦
      ((failsClosed_gate env w₂ source target wiring.gate).guard (by simp) fun w₃ hw₃ ↦
        (goesThrough_permitted env source target wiring.jurisdiction wiring.allowedCodes w₃).congr
          (passesBoth_congr (hw₃.trans (hw₂.trans hw₁)))).congr
        (and_congr_left fun _ ↦ passesBoth_congr (hw₂.trans hw₁))).congr
      (and_congr_left fun _ ↦ passesBoth_congr hw₁)).congr ?_
  constructor
  · rintro ⟨hbreaker, hallowlist, hgate, hflag⟩
    refine ⟨by rintro _ ⟨⟩; exact hbreaker, ?_, by simp [policy]⟩
    simp only [policy, List.forall_mem_cons]
    exact ⟨hallowlist, hgate, hflag, by simp⟩
  · rintro ⟨hbreaker, hboth, -⟩
    simp only [policy, List.forall_mem_cons] at hboth
    exact ⟨hbreaker _ rfl, hboth.1, hboth.2.1, hboth.2.2.1⟩

end

end Consumers
