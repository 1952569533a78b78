import CompliancePrimitives.Contracts.CircuitBreaker.Roles

/-!
# `circuit-breaker`: what the events say about the flag

A monitor that follows `Frozen` and `Unfrozen` sees the flag when the two alternate. `unfreeze`
announces nothing on a breaker that is not frozen, and so never breaks the alternation. `freeze`
announces whatever the flag says: a second freeze is announced a second time. That is the only way
the events stop mirroring the flag (`eventsMirror_iff`).

`EventsMirror` is what a monitor relies on: the announcements alternate, and the last one is the
flag. `Announced` is the invariant that carries it through a run, and it holds as long as nobody who
may freeze does so while the breaker is frozen (`Refreezes`). Once one does, two announcements of a
freeze stand next to each other for good, since nothing takes an event back.
-/

namespace CircuitBreaker

open Soroban

variable {Address : Type}

/-- **The events mirror the flag**: they alternate, beginning with `Frozen`, and there is one
`Frozen` more than `Unfrozen` exactly while the breaker is frozen. -/
structure EventsMirror (s : State Address) : Prop where
  /-- No two events in a row say the same, and the first is a freeze. -/
  alternates : (false :: s.freezeLog).IsChain (· ≠ ·)
  /-- There is a freeze without its unfreezing exactly while the flag is set. -/
  counted : s.freezeLog.count true = s.freezeLog.count false + (s.frozen.getD false).toNat

/-- Whoever may freeze does so, though the breaker is frozen. -/
def Refreezes (e : Moment Address) : Prop :=
  ∃ caller, e.input.call = .freeze caller ∧ e.input.env.auths caller = true ∧
    MayFreeze e.pre caller ∧ e.pre.frozen.getD false = true

/-- The invariant behind it: the latest event says what the flag says. -/
structure Announced (s : State Address) : Prop extends EventsMirror s where
  /-- The latest event says what the flag says; if there is none, it is not set. -/
  latest : (false :: s.freezeLog).getLast? = some (s.frozen.getD false)
  /-- The flag is not set before there is an admin. -/
  uninitialized : s.admin = none → s.frozen.getD false = false

section

variable [DecidableEq Address] {env : Env Address} {s s' : State Address} {call : Call Address}

omit [DecidableEq Address] in
/-- An announcement of a change is in turn. -/
theorem Announced.announce {b : Bool} (h : Announced s) (hwas : s.frozen.getD false = !b)
    (hfrozen : s'.frozen = some b) (hlog : s'.freezeLog = s.freezeLog ++ [b])
    (hadmin : s'.admin = none → b = false) : Announced s' := by
  refine ⟨⟨?_, ?_⟩, ?_, fun hnone ↦ ?_⟩
  · rw [hlog, ← List.cons_append, List.isChain_append]
    refine ⟨h.alternates, .singleton b, fun x hx y hy ↦ ?_⟩
    rw [h.latest, hwas] at hx
    cases hx
    cases hy
    exact Bool.not_ne_self b
  · rw [hlog, hfrozen, List.count_append, List.count_append, h.counted, hwas]
    cases b <;> simp
  · rw [hlog, hfrozen, ← List.cons_append, List.getLast?_concat]
    rfl
  · rw [hfrozen, hadmin hnone]
    rfl

omit [DecidableEq Address] in
/-- What neither changes the flag nor announces anything keeps the invariant. -/
theorem Announced.keep (h : Announced s) (hfrozen : s'.frozen.getD false = s.frozen.getD false)
    (hlog : s'.freezeLog = s.freezeLog) (hadmin : s'.admin = none → s.admin = none) :
    Announced s' := by
  refine ⟨⟨?_, ?_⟩, ?_, fun hnone ↦ ?_⟩
  · rw [hlog]
    exact h.alternates
  · rw [hlog, hfrozen]
    exact h.counted
  · rw [hlog, hfrozen]
    exact h.latest
  · rw [hfrozen]
    exact h.uninitialized (hadmin hnone)

/-- Every completed call keeps it, except a second freeze. -/
theorem BreakerStep.announced (h : BreakerStep env call s s') (hs : Announced s)
    (hfirst : ∀ caller, call = .freeze caller → env.auths caller = true → MayFreeze s caller →
      s.frozen.getD false = false) : Announced s' := by
  have hadmin : s'.admin = none → s.admin = none := by
    intro hnone
    by_contra hsome
    have hsome' : s'.admin.isSome = true :=
      h.moves.isSome_holder (Option.isSome_iff_ne_none.2 hsome)
    rw [hnone] at hsome'
    cases hsome'
  cases h.flag with
  | founded _ _ hnone hfrozen hlog =>
    refine hs.keep ?_ hlog hadmin
    rw [hfrozen, hs.uninitialized hnone]
    rfl
  | froze caller hcall hauth hmay hfrozen hlog =>
    refine hs.announce (b := true) (hfirst caller hcall hauth hmay) hfrozen hlog fun hnone ↦ ?_
    rcases hmay with hsome | ⟨hsome, -⟩ <;> rw [hadmin hnone] at hsome <;> cases hsome
  | unfroze _ _ _ _ hwas hfrozen hlog =>
    exact hs.announce (b := false) hwas hfrozen hlog fun _ ↦ rfl
  | kept _ hfrozen hlog => exact hs.keep (by rw [hfrozen]) hlog hadmin

/-- A run without a second freeze keeps it. -/
theorem announced_final (liveUntil : ℕ) {inputs : List (Input Address)}
    (hfirst : ∀ e ∈ (system liveUntil).history inputs, ¬Refreezes e) :
    Announced ((system liveUntil).final inputs) := by
  refine ((system liveUntil).stretch_induction (C := fun e ↦ ¬Refreezes e)
    (P := fun t ↦ t.auditLog = none ∧ Announced t)
    ⟨rfl, ⟨.singleton false, rfl⟩, rfl, fun _ ↦ rfl⟩ (fun t i ht hi ↦ ?_) hfirst).1.2
  rcases exec_breakerStep liveUntil i ht.1 with ⟨-, hstep⟩ | ⟨-, hpost⟩
  · refine ⟨hstep.auditLog.trans ht.1, hstep.announced ht.2 fun caller hcall hauth hmay ↦ ?_⟩
    exact Bool.eq_false_of_not_eq_true fun hfrozen ↦ hi ⟨caller, hcall, hauth, hmay, hfrozen⟩
  · rwa [hpost]

omit [DecidableEq Address] in
/-- After a second freeze there is a `Frozen` too many. -/
theorem EventsMirror.not_after_second (hs : EventsMirror s) (hwas : s.frozen.getD false = true)
    (hfrozen : s'.frozen = some true) (hlog : s'.freezeLog = s.freezeLog ++ [true]) :
    ¬EventsMirror s' := by
  intro hmirror
  have hbefore := hs.counted
  have hafter := hmirror.counted
  rw [hwas, Bool.toNat_true] at hbefore
  rw [hlog, hfrozen, List.count_append, List.count_append, hbefore] at hafter
  simp at hafter

/-- What a second freeze does. -/
theorem exec_of_refreezes {liveUntil : ℕ} {i : Input Address} (hlog : s.auditLog = none)
    (hi : Refreezes ((system liveUntil).stepFrom s i)) :
    ((system liveUntil).exec i s).2.frozen = some true ∧
      ((system liveUntil).exec i s).2.freezeLog = s.freezeLog ++ [true] := by
  obtain ⟨env, call⟩ := i
  obtain ⟨caller, hcall, hauth, hmay, -⟩ := hi
  obtain rfl : call = .freeze caller := hcall
  have hok := (freeze_eq_ok_iff (u := ()) hlog).2 ⟨hauth, hmay, rfl⟩
  have hpost := congrArg Prod.snd (Tx.commit_of_ok hok)
  exact ⟨congrArg State.frozen hpost,
    freezeLog_of_events (.frozen caller) (congrArg State.events hpost)⟩

/-- **Exactly when the events mirror the flag.** They do in every state of a run if and only if
nobody who may freeze does so while the breaker is frozen. -/
theorem eventsMirror_iff (liveUntil : ℕ) (inputs : List (Input Address)) :
    (∀ past, past <:+ inputs → EventsMirror ((system liveUntil).final past)) ↔
      ∀ e ∈ (system liveUntil).history inputs, ¬Refreezes e := by
  constructor
  · intro hmirror e he hrefreezes
    obtain ⟨past, hstep, hpast⟩ := (system liveUntil).exists_of_mem_history he
    rw [hstep] at hrefreezes
    obtain ⟨hfrozen, hlog⟩ := exec_of_refreezes (auditLog_final liveUntil past) hrefreezes
    obtain ⟨_, _, _, _, hwas⟩ := hrefreezes
    exact (hmirror past ((List.suffix_cons _ _).trans hpast)).not_after_second hwas hfrozen hlog
      (hmirror _ hpast)
  · intro hfirst past hpast
    have hpast' := ((system liveUntil).history_suffix hpast).subset
    exact (announced_final liveUntil fun e he ↦ hfirst e (hpast' he)).toEventsMirror

end

/-- A host on which everybody authorizes. -/
def grantingHost : Env ℕ where
  sequence := 1
  timestamp := 0
  auths := fun _ ↦ true
  auditAnswer := fun _ ↦ true

/-- **Two freezes.** The admin freezes twice, and two `Frozen` stand in a row. -/
theorem frozen_announced_twice :
    ((system 0).final [⟨grantingHost, .freeze 0⟩, ⟨grantingHost, .freeze 0⟩,
        ⟨grantingHost, .initialise 0⟩]).freezeLog = [true, true] ∧
      ¬EventsMirror ((system 0).final [⟨grantingHost, .freeze 0⟩, ⟨grantingHost, .freeze 0⟩,
        ⟨grantingHost, .initialise 0⟩]) :=
  ⟨by decide, fun h ↦ absurd h.counted (by decide)⟩

end CircuitBreaker
