import CompliancePrimitives.Contracts.PolicyEngine.Reordering
import CompliancePrimitives.Foundation.Lease

/-!
# `policy-engine`: what a write does to the time to live

All of the policy shares one time to live, and the writes are meant to keep it up: each is to end by
extending it, so that at least the threshold remains. Six of them do. `swap_checks` and
`clear_checks` store a new check list and extend nothing, and so the time to live is decided by the
ledgers of the others (`liveUntil_final`). A run keeps its policy alive if and only if these two are
only called while the others still leave the threshold (`keptAlive_iff`).

`commit_upgrade` extends nothing either. It leaves the policy to other code, and is not counted
among the writes here.
-/

namespace PolicyEngine

open Soroban

variable {Address : Type}

/-- One step of a run. -/
abbrev Moment (Address : Type) :=
  Step (State Address) (Input Address) (Except (Failure Error) Unit)

/-- What an extension does to the time to live. -/
def lease : Lease where
  threshold := instanceTtlThreshold
  target := instanceTtlExtendTo
  threshold_pos := by decide
  threshold_le_target := by decide

/-- The remaining time to live at a ledger. It falls by one per ledger. -/
def remainingTtl (s : State Address) (ledger : ℕ) : ℕ := s.liveUntil - ledger

/-- The calls that extend the time to live. -/
def Call.extends : Call Address → Bool
  | .initialise _ _ _ | .setCircuitBreaker _ _ | .proposeUpgrade _ _ _ | .cancelUpgrade _
  | .addCheck _ _ | .removeCheck _ _ => true
  | .commitUpgrade _ | .swapChecks _ _ _ | .clearChecks _ => false

/-- The calls that maintain the policy. To swap equal indices writes nothing. -/
def Call.writes : Call Address → Bool
  | .initialise _ _ _ | .setCircuitBreaker _ _ | .proposeUpgrade _ _ _ | .cancelUpgrade _
  | .addCheck _ _ | .removeCheck _ _ | .clearChecks _ => true
  | .swapChecks _ i j => decide (i ≠ j)
  | .commitUpgrade _ => false

/-- A write that completes. -/
def Writes (e : Moment Address) : Prop := e.input.call.writes = true ∧ e.result = .ok ()

/-- The ledger of a call that completes and extends. -/
def extensionLedger (e : Moment Address) : Option ℕ :=
  Lease.touchedAt e.input.call.extends e.input.env.sequence e.result

/-- The ledgers of the extensions, latest first. -/
def extensionLedgers (h : List (Moment Address)) : List ℕ := h.filterMap extensionLedger

variable [DecidableEq Address]

/-- **The writes keep the policy alive**: right after each, at least the threshold remains. -/
def KeptAlive (liveUntil : ℕ) (inputs : List (Input Address)) : Prop :=
  ∀ i before, i :: before <:+ inputs →
    Writes ((system liveUntil).stepFrom ((system liveUntil).final before) i) →
      instanceTtlThreshold ≤ remainingTtl ((system liveUntil).final (i :: before)) i.env.sequence

/-- **The writes that do not extend come early enough**: the extensions before each of them still
leave the threshold. -/
def SwappedInTime (liveUntil : ℕ) (inputs : List (Input Address)) : Prop :=
  ∀ i before, i :: before <:+ inputs →
    Writes ((system liveUntil).stepFrom ((system liveUntil).final before) i) →
      i.call.extends = false →
        i.env.sequence + instanceTtlThreshold ≤
          lease.ending liveUntil (extensionLedgers ((system liveUntil).history before))

section

variable {env : Env Address} {s s' : State Address} {call : Call Address} {u : Unit}

/-- **What a completed call does to the time to live.** -/
theorem invoke_liveUntil (h : invoke env call s = .ok (u, s')) :
    s'.liveUntil =
      if call.extends then lease.touch env.sequence s.liveUntil else s.liveUntil := by
  cases call with
  -- whether a call extends is a matter of its entry point alone
  | initialise admin op circuitBreaker =>
    cases circuitBreaker <;>
      simp [invoke, initialise, extendInstanceTtl] at h <;> rw [h.2.2] <;> rfl
  | setCircuitBreaker admin breaker =>
    simp [invoke, setCircuitBreaker, extendInstanceTtl, requireAdmin] at h
    rw [h.2]
    rfl
  | proposeUpgrade admin newWasm delayLedgers =>
    simp [invoke, proposeUpgrade, extendInstanceTtl, requireAdmin, publish] at h
    rw [h.2]
    rfl
  | commitUpgrade admin =>
    simp [invoke, commitUpgrade, requireAdmin, publish] at h
    obtain ⟨-, _, -, -, rfl⟩ := h
    rfl
  | cancelUpgrade admin =>
    simp [invoke, cancelUpgrade, extendInstanceTtl, requireAdmin] at h
    rw [h.2]
    rfl
  | addCheck admin check =>
    simp [invoke, addCheck, extendInstanceTtl, requireAdmin, loadChecks, requireNotPaused] at h
    obtain ⟨-, -, checks, -, -, rfl⟩ := h
    rfl
  | removeCheck admin index =>
    simp [invoke, removeCheck, extendInstanceTtl, requireAdmin, loadChecks, requireNotPaused] at h
    obtain ⟨-, -, checks, -, -, rfl⟩ := h
    rfl
  | swapChecks admin i j =>
    obtain ⟨checks, rfl, -⟩ := swapped_of_ok h
    rfl
  | clearChecks admin =>
    simp [invoke, clearChecks, requireAdmin, requireNotPaused] at h
    rw [h.2.2]
    rfl

end

variable (liveUntil : ℕ)

/-- **Every step extends at its ledger**, or leaves the time to live alone. -/
theorem exec_liveUntil (i : Input Address) (s : State Address) :
    ((system liveUntil).exec i s).2.liveUntil =
      (extensionLedger ((system liveUntil).stepFrom s i)).elim s.liveUntil
        (lease.touch · s.liveUntil) :=
  lease.expiry_commit (fun _ _ _ h ↦ invoke_liveUntil h) s

/-- **The ledger the policy lives until**, as a function of the ledgers of the extensions. -/
theorem liveUntil_final (inputs : List (Input Address)) :
    ((system liveUntil).final inputs).liveUntil =
      lease.ending liveUntil (extensionLedgers ((system liveUntil).history inputs)) :=
  lease.expiry_final (M := system liveUntil) (exec_liveUntil liveUntil) inputs

/-- **One write.** It leaves the threshold if it extends, and otherwise only if the extensions
before it still did. -/
theorem threshold_le_remainingTtl_iff {i : Input Address} {before : List (Input Address)}
    (h : Writes ((system liveUntil).stepFrom ((system liveUntil).final before) i)) :
    instanceTtlThreshold ≤ remainingTtl ((system liveUntil).final (i :: before)) i.env.sequence ↔
      (i.call.extends = false → i.env.sequence + instanceTtlThreshold ≤
        lease.ending liveUntil (extensionLedgers ((system liveUntil).history before))) := by
  have hledger : extensionLedger ((system liveUntil).stepFrom ((system liveUntil).final before) i) =
      if i.call.extends then some i.env.sequence else none := by
    rw [extensionLedger, h.2]
    rfl
  have hexec := exec_liveUntil liveUntil i ((system liveUntil).final before)
  rw [hledger] at hexec
  rw [remainingTtl, System.final_cons, hexec]
  cases hextends : i.call.extends with
  | true =>
    refine iff_of_true (Nat.le_sub_of_add_le' (lease.threshold_le_touch _ _)) fun hfalse ↦ ?_
    cases hfalse
  | false =>
    have hpos : 0 < instanceTtlThreshold := lease.threshold_pos
    rw [← liveUntil_final]
    show instanceTtlThreshold ≤ ((system liveUntil).final before).liveUntil - i.env.sequence ↔ _
    constructor
    · intro hleft _
      omega
    · intro htime
      exact Nat.le_sub_of_add_le' (htime rfl)

/-- **When the writes keep the policy alive.** -/
theorem keptAlive_iff (inputs : List (Input Address)) :
    KeptAlive liveUntil inputs ↔ SwappedInTime liveUntil inputs := by
  constructor
  · intro hkept i before hrun hwrites
    exact (threshold_le_remainingTtl_iff liveUntil hwrites).1 (hkept i before hrun hwrites)
  · intro htime i before hrun hwrites
    exact (threshold_le_remainingTtl_iff liveUntil hwrites).2 (htime i before hrun hwrites)

/-- An invocation at a ledger that every address authorizes. -/
def granted (ledger : ℕ) (call : Call ℕ) : Input ℕ :=
  ⟨{ sequence := ledger, timestamp := 0, auths := fun _ ↦ true }, call⟩

/-- A policy of two checks. -/
def founded : List (Input ℕ) :=
  [granted 1 (.addCheck 0 (.allowlist 20)), granted 1 (.addCheck 0 (.denylist 10)),
    granted 1 (.initialise 0 .all none)]

/-- **A policy can be maintained and lose its time to live**: with one ledger less than the
threshold left, its checks are swapped, or all removed, and nothing is extended. -/
theorem not_keptAlive_swapped :
    let swap := granted 1434242 (.swapChecks 0 0 1)
    let clear := granted 1434242 (.clearChecks 0)
    ¬KeptAlive 4096 (swap :: founded) ∧ ¬KeptAlive 4096 (clear :: founded) ∧
      remainingTtl ((system 4096).final (swap :: founded)) 1434242 = 120959 ∧
      remainingTtl ((system 4096).final (clear :: founded)) 1434242 = 120959 := by
  intro swap clear
  have hswap : remainingTtl ((system 4096).final (swap :: founded)) 1434242 = 120959 := by decide
  have hclear : remainingTtl ((system 4096).final (clear :: founded)) 1434242 = 120959 := by decide
  refine ⟨fun hkept ↦ ?_, fun hkept ↦ ?_, hswap, hclear⟩
  · have hleft := hkept swap founded List.suffix_rfl ⟨rfl, rfl⟩
    exact absurd (hleft.trans_eq hswap) (by decide)
  · have hleft := hkept clear founded List.suffix_rfl ⟨rfl, rfl⟩
    exact absurd (hleft.trans_eq hclear) (by decide)

end PolicyEngine
