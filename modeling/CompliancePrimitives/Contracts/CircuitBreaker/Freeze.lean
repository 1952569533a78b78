import CompliancePrimitives.Contracts.CircuitBreaker.Roles

/-!
# `circuit-breaker`: a freeze holds

Freezing and unfreezing have different guards: the admin and every guardian may freeze, and only the
admin may unfreeze. So whatever guardians, former admins and proposed ones do, a freeze ends with a
call of `unfreeze` which the admin **at that time** authorizes, and with nothing else.

Who the guardians are is what the admins' calls so far have made of them: an address is in the
stored list exactly when an admin added it and none has removed it since (`guardians_final`).

`freeze_holds` starts at a completed freeze and follows an arbitrary run from there. As long as no
step of it is an `unfreeze` of the admin of that step (`ByAdmin`), the breaker is frozen in every
state reached; and a completed `unfreeze` is always such a step.
-/

namespace CircuitBreaker

open Soroban

variable {Address : Type}

/-- A call which the admin at that time has completed, with his authorization. -/
def ByAdmin (call : Address → Call Address) (e : Moment Address) : Prop :=
  ∃ admin, e.input.call = call admin ∧ e.result = .ok () ∧ e.pre.admin = some admin ∧
    e.input.env.auths admin = true

/-- An admin added `guardian`. -/
def AddsGuardian (guardian : Address) : Moment Address → Prop := ByAdmin (.addGuardian · guardian)

/-- An admin removed `guardian`. -/
def RemovesGuardian (guardian : Address) : Moment Address → Prop :=
  ByAdmin (.removeGuardian · guardian)

section

variable [DecidableEq Address] {env : Env Address} {s s' : State Address} {call : Call Address}

/-! ### The guardians -/

/-- Whoever is a guardian after a call was not removed by it, and was one before or was added. -/
theorem mem_guardiansAfter {g : Address} {gs : List Address} :
    g ∈ call.guardiansAfter gs ↔
      (¬∃ admin, call = .removeGuardian admin g) ∧
        ((∃ admin, call = .addGuardian admin g) ∨ g ∈ gs) := by
  cases call with
  | addGuardian admin guardian =>
    by_cases hmem : guardian ∈ gs
    · simp only [Call.guardiansAfter, if_pos hmem]
      constructor
      · exact fun hg ↦ ⟨by simp, .inr hg⟩
      · rintro ⟨-, ⟨_, ⟨⟩⟩ | hg⟩
        · exact hmem
        · exact hg
    · simp [Call.guardiansAfter, hmem, or_comm, @eq_comm _ guardian]
  | removeGuardian admin guardian => simp [Call.guardiansAfter, and_comm, @eq_comm _ guardian]
  | _ => simp [Call.guardiansAfter]

theorem nodup_guardiansAfter {gs : List Address} (hgs : gs.Nodup) :
    (call.guardiansAfter gs).Nodup := by
  cases call with
  | addGuardian admin guardian =>
    by_cases hmem : guardian ∈ gs
    · simpa only [Call.guardiansAfter, if_pos hmem]
    · simp only [Call.guardiansAfter, if_neg hmem]
      exact List.nodup_append.2 ⟨hgs, List.nodup_singleton _, fun g hg _ hguardian hsame ↦
        hmem (List.mem_singleton.1 hguardian ▸ hsame ▸ hg)⟩
  | removeGuardian admin guardian => exact hgs.filter _
  | _ => exact hgs

/-- **The guardians are what the admins made of them**, without repetitions. -/
theorem guardians_final (liveUntil : ℕ) (inputs : List (Input Address)) :
    (guardians ((system liveUntil).final inputs)).Nodup ∧
      ∀ g, g ∈ guardians ((system liveUntil).final inputs) ↔
        Since (RemovesGuardian g) (AddsGuardian g) ((system liveUntil).history inputs) := by
  induction inputs with
  | nil => exact ⟨List.nodup_nil, fun g ↦ by simp [guardians, system, deploy]⟩
  | cons i inputs ih =>
    obtain ⟨hnodup, hmem⟩ := ih
    rw [System.history_cons]
    rcases exec_breakerStep liveUntil i (auditLog_final liveUntil inputs) with
      ⟨hok, hstep⟩ | ⟨⟨f, hfail⟩, hpost⟩
    · refine ⟨hstep.guardians ▸ nodup_guardiansAfter hnodup, fun g ↦ ?_⟩
      rw [System.final_cons, hstep.guardians, mem_guardiansAfter, since_cons, ← hmem]
      -- a completed call about the guardians is the admin's
      have hby : ∀ call : Address → Call Address, (∀ a, (call a).setsGuardians = some a) →
          (ByAdmin call ((system liveUntil).stepFrom ((system liveUntil).final inputs) i) ↔
            ∃ admin, i.call = call admin) := by
        intro call hsets
        constructor
        · rintro ⟨admin, hcall, -⟩
          exact ⟨admin, hcall⟩
        · rintro ⟨admin, hcall⟩
          obtain ⟨hauth, hadmin⟩ := hstep.governed admin (hcall ▸ hsets admin)
          exact ⟨admin, hcall, hok, hadmin, hauth⟩
      rw [RemovesGuardian, AddsGuardian, hby _ fun _ ↦ rfl, hby _ fun _ ↦ rfl]
    · have hno : ∀ call, ¬ByAdmin call
          ((system liveUntil).stepFrom ((system liveUntil).final inputs) i) := by
        rintro call ⟨_, -, hok, -⟩
        cases hok.symm.trans hfail
      rw [System.final_cons, hpost]
      refine ⟨hnodup, fun g ↦ (hmem g).trans ?_⟩
      rw [since_cons]
      exact ⟨fun h ↦ ⟨hno _, .inr h⟩, fun h ↦ h.2.resolve_left (hno _)⟩

/-! ### A freeze holds -/

/-- Consumers are told that the breaker is frozen. -/
def IsFrozen (s : State Address) : Prop := isFrozen s = .ok (true, s)

omit [DecidableEq Address] in
theorem isFrozen_iff : IsFrozen s ↔ s.admin.isSome = true ∧ s.frozen.getD false = true := by
  simp only [IsFrozen, isFrozen, Tx.bind_eq_ok_iff, Tx.get_eq_ok_iff, Tx.ensure_eq_ok_iff,
    Tx.pure_eq_ok_iff, and_assoc, exists_and_left, exists_eq_left, exists_const]
  constructor
  · rintro ⟨hadmin, hfrozen, -⟩
    exact ⟨hadmin, hfrozen.symm⟩
  · rintro ⟨hadmin, hfrozen⟩
    exact ⟨hadmin, hfrozen.symm, trivial⟩

/-- A completed freeze freezes. -/
theorem BreakerStep.isFrozen_of_freeze {caller : Address} (h : BreakerStep env call s s')
    (hcall : call = .freeze caller) :
    env.auths caller = true ∧ MayFreeze s caller ∧ IsFrozen s' := by
  cases h.flag with
  | founded _ hcall' => cases hcall.symm.trans hcall'
  | froze caller' hcall' hauth hmay hfrozen =>
    cases hcall.symm.trans hcall'
    have hadmin : s.admin.isSome = true := by
      rcases hmay with hadmin | ⟨hadmin, -⟩
      · rw [hadmin]
        rfl
      · exact hadmin
    exact ⟨hauth, hmay, isFrozen_iff.2 ⟨h.moves.isSome_holder hadmin, by rw [hfrozen]; rfl⟩⟩
  | unfroze _ hcall' => cases hcall.symm.trans hcall'
  | kept hcall' => exact absurd hcall (hcall' caller)

/-- **Only the admin's own call unfreezes.** -/
theorem BreakerStep.isFrozen_or_unfroze (h : BreakerStep env call s s') (hs : IsFrozen s) :
    IsFrozen s' ∨ ∃ admin, call = .unfreeze admin ∧ s.admin = some admin ∧
      env.auths admin = true := by
  obtain ⟨hadmin, hwas⟩ := isFrozen_iff.1 hs
  have hadmin' := h.moves.isSome_holder hadmin
  cases h.flag with
  | founded _ _ hnone =>
    rw [hnone] at hadmin
    cases hadmin
  | froze _ _ _ _ hfrozen => exact .inl (isFrozen_iff.2 ⟨hadmin', by rw [hfrozen]; rfl⟩)
  | unfroze admin hcall hauth hstored => exact .inr ⟨admin, hcall, hstored, hauth⟩
  | kept _ hfrozen => exact .inl (isFrozen_iff.2 ⟨hadmin', by rw [hfrozen]; exact hwas⟩)

/-- Every completed `unfreeze` is the admin's. -/
theorem byAdmin_of_unfreeze {liveUntil : ℕ} {i : Input Address} {admin : Address}
    (hlog : s.auditLog = none) (hcall : i.call = .unfreeze admin)
    (hok : ((system liveUntil).exec i s).1 = .ok ()) :
    ByAdmin .unfreeze ((system liveUntil).stepFrom s i) := by
  have hrun := Tx.ok_of_commit_fst hok
  rw [hcall] at hrun
  obtain ⟨hauth, hadmin, -⟩ := (unfreeze_eq_ok_iff hlog).1 hrun
  exact ⟨admin, hcall, hok, hadmin, hauth⟩

/-- **A freeze holds.** In every run: whoever completes a freeze authorizes it, and is the admin or
a guardian as the admins have left them; from then on consumers are told that the breaker is frozen,
as long as no admin has completed an `unfreeze` he authorized while he was the admin. Every
completed `unfreeze` is of that kind. -/
theorem freeze_holds (liveUntil : ℕ) (before : List (Input Address)) :
    (∀ i caller, i.call = .freeze caller →
        ((system liveUntil).exec i ((system liveUntil).final before)).1 = .ok () →
      i.env.auths caller = true ∧
        (((system liveUntil).final before).admin = some caller ∨
          Since (RemovesGuardian caller) (AddsGuardian caller)
            ((system liveUntil).history before)) ∧
        ∀ during,
          (∀ e ∈ ((system liveUntil).startingAt
              ((system liveUntil).final (i :: before))).history during, ¬ByAdmin .unfreeze e) →
            IsFrozen ((system liveUntil).final (during ++ i :: before))) ∧
      (∀ i admin, i.call = .unfreeze admin →
        ((system liveUntil).exec i ((system liveUntil).final before)).1 = .ok () →
          ByAdmin .unfreeze ((system liveUntil).stepFrom ((system liveUntil).final before) i)) ∧
      (guardians ((system liveUntil).final before)).Nodup ∧
      ∀ g, g ∈ guardians ((system liveUntil).final before) ↔
        Since (RemovesGuardian g) (AddsGuardian g) ((system liveUntil).history before) := by
  obtain ⟨hnodup, hmem⟩ := guardians_final liveUntil before
  have hlog := auditLog_final liveUntil before
  refine ⟨fun i caller hcall hok ↦ ?_, fun i admin ↦ byAdmin_of_unfreeze hlog, hnodup, hmem⟩
  obtain ⟨hauth, hmay, hfrozen⟩ := (breakerStep_of_completed hok).isFrozen_of_freeze hcall
  refine ⟨hauth, hmay.imp_right fun h ↦ (hmem caller).1 h.2, fun during hduring ↦ ?_⟩
  rw [System.final_append]
  refine ((system liveUntil).stretch_induction
    (P := fun t ↦ t.auditLog = none ∧ IsFrozen t) ⟨auditLog_final liveUntil _, hfrozen⟩
    (fun t j ht hj ↦ ?_) hduring).1.2
  rcases exec_breakerStep liveUntil j ht.1 with ⟨hcompleted, hstep⟩ | ⟨-, hpost⟩
  · refine ⟨hstep.auditLog.trans ht.1, (hstep.isFrozen_or_unfroze ht.2).resolve_right ?_⟩
    rintro ⟨admin, hunfreeze, hadmin, hauthorized⟩
    exact hj ⟨admin, hunfreeze, hcompleted, hadmin, hauthorized⟩
  · rwa [hpost]

end

end CircuitBreaker
