import CompliancePrimitives.Contracts.ComplianceAggregator.Configuration
import CompliancePrimitives.Foundation.Lease

/-!
# `compliance-aggregator`: how long the instance lives

Everything the contract stores shares one time to live, and every write but `upgrade` ends by
extending it. The extension is a touch of a lease (`Foundation/Lease.lean`): it renews only what is
below the threshold. So the ledger the instance lives until is a function of the ledgers of the
completed writes (`liveUntil_stateAfter`), and the instance is never archived if and only if each of
its terms is renewed in time (`alwaysLive_iff_renewedInTime`).

The source promises more: that a write every `EXTEND_TO - THRESHOLD` ledgers, about 83 days, is
enough. It is not (`not_alwaysLive_late`): a write with just the threshold left extends nothing,
and the next one may then be as late as the promise allows. What is enough is a write in fewer
than `THRESHOLD` ledgers, about 7 days (`Lifetime.SpacedBy.alwaysLive`).
-/

namespace ComplianceAggregator

open Soroban

variable {Address : Type}

/-- What a write does to the time to live. -/
def lease : Lease where
  threshold := instanceTtlThreshold
  target := instanceTtlExtendTo
  threshold_pos := by decide
  threshold_le_target := by decide

/-- The remaining time to live at a ledger. It falls by one per ledger. -/
def remainingTtl (s : State Address) (ledger : ℕ) : ℕ := s.liveUntil - ledger

/-- The calls that write the configuration or the pause switch. -/
def Call.writes : Call Address → Bool
  | .initialise _ _ _ _ | .pause _ | .unpause _ | .setAdmin _ _ | .setDenylistGate _ _
  | .setJurisdictionFlag _ _ | .setCircuitBreaker _ _ | .clearDenylistGate _
  | .clearJurisdictionFlag _ => true
  | .upgrade _ _ => false

/-- The ledger of a write that completes. -/
def writeLedger (e : Moment Address) : Option ℕ :=
  Lease.touchedAt e.input.call.writes e.input.env.sequence e.result

/-- The ledgers of the completed writes, latest first. -/
def writeLedgers (h : List (Moment Address)) : List ℕ := h.filterMap writeLedger

/-- **A run from `initialize` on**, looked at from the ledger `now`. Ledgers only go forward. -/
structure Lifetime (Address : Type) [DecidableEq Address] where
  /-- What the instance was deployed to live until. -/
  deployedUntil : ℕ
  /-- The call that sets the instance up. -/
  founding : Input Address
  /-- The calls made since, latest first. -/
  later : List (Input Address)
  /-- The ledger of the moment. -/
  now : ℕ
  /-- It is an `initialize`, -/
  isInitialise : ∃ admin gate flag breaker, founding.call = .initialise admin gate flag breaker
  /-- and it completes. -/
  completes : ((system deployedUntil).exec founding (deploy deployedUntil)).1 = .ok ()
  /-- No ledger in the run comes before that of an earlier call. -/
  chronological : (now :: (later.map (·.env.sequence) ++ [founding.env.sequence])).Pairwise (· ≥ ·)

variable [DecidableEq Address]

namespace Lifetime

variable (r : Lifetime Address)

/-- The contract from its completed `initialize` on. -/
def initialised : System (State Address) (Input Address) (Except (Failure Error) Unit) :=
  (system r.deployedUntil).startingAt ((system r.deployedUntil).final [r.founding])

/-- The state after the calls `is`. -/
def stateAfter (is : List (Input Address)) : State Address := r.initialised.final is

/-- The ledgers of the writes `is` completed. -/
def writesIn (is : List (Input Address)) : List ℕ := writeLedgers (r.initialised.history is)

/-- After the calls `is`, the remaining time to live is positive from one ledger to another. -/
def LiveBetween (is : List (Input Address)) (first last : ℕ) : Prop :=
  ∀ ledger, first ≤ ledger → ledger ≤ last → 0 < remainingTtl (r.stateAfter is) ledger

/-- The remaining time to live is positive from `initialize` to `last`, when the calls `is` were
made. -/
def LiveUpTo : ℕ → List (Input Address) → Prop
  | last, [] => r.LiveBetween [] r.founding.env.sequence last
  | last, i :: is => r.LiveBetween (i :: is) i.env.sequence last ∧ LiveUpTo i.env.sequence is

/-- **Never archived**: the remaining time to live is positive at every ledger. -/
def AlwaysLive : Prop := r.LiveUpTo r.now r.later

/-- From one completed write to the next, and from the last to the present, no more than `gap`
ledgers pass. -/
def SpacedBy (gap : ℕ) : Prop :=
  Lease.Spaced gap r.founding.env.sequence r.now (r.writesIn r.later)

/-- What `initialize` leaves the instance to live until. -/
def foundedUntil : ℕ := lease.touch r.founding.env.sequence r.deployedUntil

/-- **Every term is renewed in time.** The terms are read off the ledgers of the writes: each ends
`EXTEND_TO` ledgers after the first write that finds less than `THRESHOLD` of the last one left. Of
each term that is over, some write has to fall into the last `THRESHOLD - 1` ledgers. -/
def RenewedInTime : Prop := lease.RenewedInTime r.foundedUntil r.now (r.writesIn r.later)

end Lifetime

section

variable {env : Env Address} {s s' : State Address} {call : Call Address} {u : Unit}

/-! ### What one call does to the time to live -/

omit [DecidableEq Address] in
theorem register_liveUntil {store : Address → State Address → State Address}
    {event : Address → Event Address} {registered : Option Address}
    (h : register store event registered s = .ok (u, s'))
    (hstore : ∀ address, (store address s).liveUntil = s.liveUntil) :
    s'.liveUntil = s.liveUntil := by
  rw [register_eq_ok_iff] at h
  cases registered with
  | none =>
    rw [h]
    rfl
  | some address =>
    rw [h]
    exact hstore address

/-- The configuration setters extend, whatever they write. -/
theorem configure_liveUntil {admin : Address} {write : State Address → State Address}
    {announce : Op Address Unit} (hwrite : (write s).liveUntil = s.liveUntil)
    (hannounce : Tx.Keeps State.liveUntil announce)
    (h : configure env admin write announce s = .ok (u, s')) :
    s'.liveUntil = lease.touch env.sequence s.liveUntil := by
  obtain ⟨-, h⟩ := configure_eq_ok_iff.1 h
  rw [hannounce h, ← hwrite]
  rfl

omit [DecidableEq Address] in
theorem keeps_liveUntil_publish (e : Event Address) :
    Tx.Keeps State.liveUntil (publish e) := by
  intro s u s' h
  rw [publish_eq_ok_iff] at h
  rw [h]

/-- **Every completed write is a touch**, and `upgrade` is none. -/
theorem invoke_liveUntil (h : invoke env call s = .ok (u, s')) :
    s'.liveUntil =
      if call.writes then lease.touch env.sequence s.liveUntil else s.liveUntil := by
  cases call with
  -- three registrations come before the extension, and none of them touches it
  | initialise admin gate flag breaker =>
    simp only [invoke, initialise, Tx.bind_eq_ok_iff, Tx.get_eq_ok_iff, Tx.ensure_eq_ok_iff,
      requireAuth_eq_ok_iff, Tx.modify_eq_ok_iff, publish_eq_ok_iff,
      extendInstanceTtl_eq_ok_iff] at h
    obtain ⟨_, _, ⟨rfl, rfl⟩, _, _, ⟨-, rfl⟩, _, s, ⟨-, rfl⟩, _, s₁, rfl, _, s₂, rfl, _, s₃,
      hgate, _, s₄, hflag, _, s₅, hbreaker, rfl⟩ := h
    have hsame : s₅.liveUntil = s.liveUntil := by
      rw [register_liveUntil hbreaker fun _ ↦ rfl, register_liveUntil hflag fun _ ↦ rfl,
        register_liveUntil hgate fun _ ↦ rfl]
    rw [← hsame]
    rfl
  | pause admin =>
    simp only [invoke, pause, requireAdmin, Tx.bind_eq_ok_iff, requireStored_eq_ok_iff,
      Tx.modify_eq_ok_iff, extendInstanceTtl_eq_ok_iff, publish_eq_ok_iff, and_assoc,
      exists_and_left, exists_eq_left, exists_const] at h
    obtain ⟨-, -, rfl⟩ := h
    rfl
  | unpause admin =>
    simp only [invoke, unpause, requireAdmin, Tx.bind_eq_ok_iff, requireStored_eq_ok_iff,
      Tx.modify_eq_ok_iff, extendInstanceTtl_eq_ok_iff, publish_eq_ok_iff, and_assoc,
      exists_and_left, exists_eq_left, exists_const] at h
    obtain ⟨-, -, rfl⟩ := h
    rfl
  -- the one write that does not extend
  | upgrade admin newWasmHash =>
    simp only [invoke, upgrade, requireAdmin, Tx.bind_eq_ok_iff, requireStored_eq_ok_iff,
      Tx.modify_eq_ok_iff, publish_eq_ok_iff, and_assoc, exists_and_left, exists_eq_left,
      exists_const] at h
    obtain ⟨-, -, rfl⟩ := h
    rfl
  | setAdmin admin newAdmin => exact configure_liveUntil rfl (keeps_liveUntil_publish _) h
  | setDenylistGate admin gate => exact configure_liveUntil rfl (keeps_liveUntil_publish _) h
  | setJurisdictionFlag admin flag => exact configure_liveUntil rfl (keeps_liveUntil_publish _) h
  | setCircuitBreaker admin breaker => exact configure_liveUntil rfl (keeps_liveUntil_publish _) h
  | clearDenylistGate admin => exact configure_liveUntil rfl (Tx.keeps_pure _ _) h
  | clearJurisdictionFlag admin => exact configure_liveUntil rfl (Tx.keeps_pure _ _) h

end

/-! ### What a run does to it -/

omit [DecidableEq Address] in
theorem writeLedgers_sublist (h : List (Moment Address)) :
    (writeLedgers h).Sublist (h.map (·.input.env.sequence)) := by
  induction h with
  | nil => exact List.Sublist.slnil
  | cons e h ih =>
    rw [writeLedgers, List.map_cons]
    cases hwrite : writeLedger e with
    | none =>
      rw [List.filterMap_cons_none hwrite]
      exact ih.cons _
    | some ledger =>
      rw [List.filterMap_cons_some hwrite, Lease.eq_of_touchedAt hwrite]
      exact ih.cons_cons _

/-- **Every step is a touch**, or leaves the time to live alone. -/
theorem exec_liveUntil (liveUntil : ℕ) (i : Input Address) (s : State Address) :
    ((system liveUntil).exec i s).2.liveUntil =
      (writeLedger ((system liveUntil).stepFrom s i)).elim s.liveUntil
        (lease.touch · s.liveUntil) :=
  lease.expiry_commit (fun _ _ _ h ↦ invoke_liveUntil h) s

namespace Lifetime

variable (r : Lifetime Address) {first last : ℕ} {is : List (Input Address)}

theorem writesIn_cons (i : Input Address) (is : List (Input Address)) :
    r.writesIn (i :: is) =
      (writeLedger (r.initialised.stepFrom (r.stateAfter is) i)).elim (r.writesIn is)
        (· :: r.writesIn is) := by
  rw [writesIn, System.history_cons, writeLedgers]
  cases hwrite : writeLedger (r.initialised.stepFrom (r.initialised.final is) i) with
  | none =>
    rw [List.filterMap_cons_none hwrite, stateAfter, hwrite]
    rfl
  | some ledger =>
    rw [List.filterMap_cons_some hwrite, stateAfter, hwrite]
    rfl

/-- `initialize` is the first write. -/
theorem liveUntil_founded : (r.stateAfter []).liveUntil = r.foundedUntil := by
  have hwrite : writeLedger ((system r.deployedUntil).stepFrom (deploy r.deployedUntil)
      r.founding) = some r.founding.env.sequence := by
    obtain ⟨admin, gate, flag, breaker, hcall⟩ := r.isInitialise
    rw [writeLedger, System.stepFrom_result, r.completes, System.stepFrom_input, hcall]
    rfl
  have hexec := exec_liveUntil r.deployedUntil r.founding (deploy r.deployedUntil)
  rw [hwrite] at hexec
  exact hexec

/-- **The ledger the instance lives until**, as a function of the ledgers of the writes. -/
theorem liveUntil_stateAfter (is : List (Input Address)) :
    (r.stateAfter is).liveUntil = lease.ending r.foundedUntil (r.writesIn is) := by
  rw [← liveUntil_founded]
  exact lease.expiry_final (M := r.initialised) (exec_liveUntil r.deployedUntil) is

theorem liveBetween_iff (h : first ≤ last) :
    r.LiveBetween is first last ↔ last < (r.stateAfter is).liveUntil := by
  constructor
  · exact fun hlive ↦ Nat.lt_of_sub_pos (hlive last h le_rfl)
  · exact fun hlast ledger _ hledger ↦ Nat.sub_pos_of_lt (hledger.trans_lt hlast)

/-- The contract is live as long as its lease is unbroken. -/
theorem liveUpTo_iff_unbroken
    (h : (last :: (is.map (·.env.sequence) ++ [r.founding.env.sequence])).Pairwise (· ≥ ·)) :
    r.LiveUpTo last is ↔ lease.Unbroken r.foundedUntil last (r.writesIn is) := by
  induction is generalizing last with
  | nil =>
    rw [LiveUpTo, liveBetween_iff _ ((List.pairwise_cons.1 h).1 _ List.mem_cons_self),
      liveUntil_founded]
    rfl
  | cons i is ih =>
    obtain ⟨hlast, hpast⟩ := List.pairwise_cons.1 h
    have hle : i.env.sequence ≤ last := hlast _ List.mem_cons_self
    rw [LiveUpTo, liveBetween_iff _ hle, ih hpast, liveUntil_stateAfter, writesIn_cons]
    cases hwrite : writeLedger (r.initialised.stepFrom (r.stateAfter is) i) with
    | none =>
      -- a call that writes nothing is no more than a look on the way
      exact (lease.unbroken_iff_of_le hle).symm
    | some ledger =>
      obtain rfl : ledger = i.env.sequence := Lease.eq_of_touchedAt hwrite
      rfl

/-- The writes are in the order of their ledgers. -/
theorem pairwise_writesIn : (r.now :: r.writesIn r.later).Pairwise (· ≥ ·) := by
  have hsub := writeLedgers_sublist (r.initialised.history r.later)
  have hledgers : (r.initialised.history r.later).map (·.input.env.sequence) =
      r.later.map (·.env.sequence) := by
    conv_rhs => rw [← r.initialised.map_input_history r.later, List.map_map]
    rfl
  rw [hledgers] at hsub
  exact r.chronological.sublist ((hsub.trans (List.sublist_append_left _ _)).cons_cons _)

/-- **A write in fewer than `THRESHOLD` ledgers is enough.** -/
theorem SpacedBy.alwaysLive {r : Lifetime Address} {gap : ℕ} (h : r.SpacedBy gap)
    (hgap : gap < instanceTtlThreshold) : r.AlwaysLive := by
  rw [AlwaysLive, liveUpTo_iff_unbroken r r.chronological]
  exact Lease.Spaced.unbroken lease hgap (lease.threshold_le_touch _ _) h

end Lifetime

/-- **When the contract is never archived.** In every run from `initialize` on, the remaining time
to live is positive at every ledger if and only if each of its terms is renewed in time. -/
theorem alwaysLive_iff_renewedInTime (r : Lifetime Address) : r.AlwaysLive ↔ r.RenewedInTime := by
  rw [Lifetime.AlwaysLive, r.liveUpTo_iff_unbroken r.chronological,
    lease.unbroken_iff_renewedInTime r.pairwise_writesIn]
  rfl

/-- A gate is registered with one ledger more than the threshold left. The present is as many
ledgers later. -/
def late : Lifetime ℕ where
  deployedUntil := 4096
  founding := ⟨{ grantingEnv with sequence := 1 }, .initialise 0 none none none⟩
  later := [⟨{ grantingEnv with sequence := 1434240 }, .setDenylistGate 0 10⟩]
  now := 1555201
  isInitialise := ⟨0, none, none, none, rfl⟩
  completes := rfl
  chronological := by decide

/-- **The documented interval is not enough.** -/
theorem not_alwaysLive_late :
    late.SpacedBy (instanceTtlExtendTo - instanceTtlThreshold) ∧
      remainingTtl (late.stateAfter late.later) late.now = 0 ∧ ¬late.AlwaysLive := by
  have hwrites : late.writesIn late.later = [1434240] := by decide
  have hzero : remainingTtl (late.stateAfter late.later) late.now = 0 := by decide
  refine ⟨?_, hzero, fun hlive ↦ ?_⟩
  · rw [Lifetime.SpacedBy, hwrites, Lease.spaced_cons, Lease.spaced_nil]
    decide
  · have hnow := hlive.1 late.now (by decide) le_rfl
    exact absurd hzero hnow.ne'

end ComplianceAggregator
