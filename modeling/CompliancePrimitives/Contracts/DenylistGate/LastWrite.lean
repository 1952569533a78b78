import CompliancePrimitives.Contracts.DenylistGate.AuditTrail
import CompliancePrimitives.Contracts.DenylistGate.Roles
import CompliancePrimitives.Foundation.Replay

/-!
# `denylist-gate`: the last write wins, and a pause holds

Three of the entry points write denylist entries. A completed call **touches** the addresses it
writes, a batch one after the other; the other entry points touch nothing, and neither does a call
that fails. So `check` rejects an address exactly if its last touch was an addition. All three look
at the pause flag first, and nothing but `unpause` takes the flag back, so nothing is touched
between a pause and the next `unpause` (`denylist_lastTouch`).
-/

namespace DenylistGate

open Soroban

variable {Address : Type}

/-- What a call is to write, address by address. -/
def Call.touches : Call Address → List (Write Address Bool)
  | .addToDenylist _ address => [⟨address, some true⟩]
  | .removeFromDenylist _ address => [⟨address, none⟩]
  | .removeMultipleFromDenylist _ addresses => addresses.map fun address ↦ ⟨address, none⟩
  | _ => []

/-- **The touches of a step**: a call that fails has none. -/
def touches (e : Moment Address) : List (Write Address Bool) :=
  match e.result with
  | .ok _ => e.input.call.touches
  | .error _ => []

/-- The step is a completed `pause`. -/
def Pauses (e : Moment Address) : Prop := (∃ admin, e.input.call = .pause admin) ∧ e.result = .ok ()

/-- The step is a completed `unpause`. -/
def Resumes (e : Moment Address) : Prop :=
  (∃ admin, e.input.call = .unpause admin) ∧ e.result = .ok ()

section

variable [DecidableEq Address] {env : Env Address} {s s' : State Address} {call : Call Address}
  {u : Unit}

omit [DecidableEq Address] in
/-- The calls that do not edit the denylist touch nothing. -/
theorem Call.touches_eq_nil (h : call.editsDenylist = false) : call.touches = [] := by
  cases call <;> first | rfl | cases h

/-- **A completed call writes its touches**, and nothing else. -/
theorem DenylistStep.denied_eq (h : DenylistStep env call s s') :
    s'.denied = replay s.denied call.touches := by
  cases h with
  | kept hcall hdenied => rw [Call.touches_eq_nil hcall, hdenied, replay_nil]
  | added _ address hcall hs' =>
    rw [hcall, hs', audited_eq]
    rfl
  | removed _ address hcall hs' =>
    rw [hcall, hs', audited_eq]
    rfl
  | removedAll _ addresses hcall _ _ _ _ hs' =>
    rw [hcall, hs', Call.touches, replay_map]
    rfl

/-- One step of a run writes its touches. -/
theorem exec_denied (s : State Address) (i : Input Address) :
    (system.exec i s).2.denied = replay s.denied (touches (system.stepFrom s i)) := by
  rcases Tx.commit_answer (invoke i.env i.call) s with ⟨_, hresult, hok⟩ | ⟨⟨f, hfail⟩, hpost⟩
  · have hresult' : (system.stepFrom s i).result = .ok () := hresult
    rw [touches, hresult']
    exact (invoke_denylistStep hok).denied_eq
  · have hresult : (system.stepFrom s i).result = .error f := hfail
    rw [touches, hresult]
    exact congrArg State.denied hpost

/-! ### The pause flag -/

/-- The calls of the three signer entry points leave the flag alone. -/
theorem paused_of_callBy {a : SignerAction Address} {caller : Address}
    (h : invoke env (a.callBy caller) s = .ok (u, s')) : s'.paused = s.paused := by
  obtain ⟨-, set, -, -, -, happrove⟩ := signerCall_eq_ok_iff.1 h
  rcases approve_eq_ok_iff.1 happrove with ⟨-, rfl⟩ | ⟨-, -, rfl⟩
  · rfl
  · rfl

/-- **What a completed call can do to the flag**, once there is an admin. -/
theorem paused_of_invoke (h : invoke env call s = .ok (u, s')) (hsome : s.admin.isSome = true) :
    s'.paused = s.paused ∨ s'.paused = some true ∨ ∃ admin, call = .unpause admin := by
  cases call with
  -- a second initialisation fails, and it alone could set the flag back
  | initialise admin =>
    obtain ⟨hnone, -⟩ := initialise_eq_ok_iff.1 h
    rw [hnone] at hsome
    cases hsome
  -- the administration does not look at the flag, nor writes it
  | setComplianceOfficer admin officer =>
    obtain ⟨-, -, rfl⟩ := setComplianceOfficer_eq_ok_iff.1 h
    exact .inl rfl
  | revokeComplianceOfficer admin =>
    obtain ⟨-, -, rfl⟩ := revokeComplianceOfficer_eq_ok_iff.1 h
    rw [revoked_eq]
    exact .inl rfl
  | setAuditLog admin auditLog =>
    obtain ⟨-, -, rfl⟩ := setAuditLog_eq_ok_iff.1 h
    exact .inl rfl
  | clearAuditLog admin =>
    obtain ⟨-, -, rfl⟩ := clearAuditLog_eq_ok_iff.1 h
    exact .inl rfl
  | proposeAdmin currentAdmin newAdmin =>
    obtain ⟨-, -, rfl⟩ := proposeAdmin_eq_ok_iff.1 h
    exact .inl rfl
  | acceptAdmin newAdmin =>
    obtain ⟨-, -, _, -, rfl⟩ := acceptAdmin_eq_ok_iff.1 h
    exact .inl rfl
  | cancelAdminProposal currentAdmin =>
    obtain ⟨-, -, -, rfl⟩ := cancelAdminProposal_eq_ok_iff.1 h
    exact .inl rfl
  | transferAdmin currentAdmin newAdmin =>
    obtain ⟨-, -, rfl⟩ := transferAdmin_eq_ok_iff.1 h
    exact .inl rfl
  | proposeUpgrade admin newWasm delayLedgers =>
    obtain ⟨-, -, -, rfl⟩ := proposeUpgrade_eq_ok_iff.1 h
    exact .inl rfl
  | commitUpgrade admin =>
    obtain ⟨-, -, _, -, -, rfl⟩ := commitUpgrade_eq_ok_iff.1 h
    exact .inl rfl
  | cancelUpgrade admin =>
    obtain ⟨-, -, rfl⟩ := cancelUpgrade_eq_ok_iff.1 h
    exact .inl rfl
  | pause admin =>
    obtain ⟨-, -, rfl⟩ := pause_eq_ok_iff.1 h
    exact .inr (.inl rfl)
  | unpause admin => exact .inr (.inr ⟨admin, rfl⟩)
  | addToDenylist admin address =>
    obtain ⟨-, -, -, rfl⟩ := addToDenylist_eq_ok_iff.1 h
    rw [audited_eq]
    exact .inl rfl
  | removeFromDenylist admin address =>
    obtain ⟨-, -, -, rfl⟩ := removeFromDenylist_eq_ok_iff.1 h
    rw [audited_eq]
    exact .inl rfl
  | removeMultipleFromDenylist admin addresses =>
    obtain ⟨-, -, -, -, rfl⟩ := removeMultipleFromDenylist_eq_ok_iff.1 h
    exact .inl rfl
  | initializeMultisig admin signers threshold =>
    obtain ⟨-, -, -, -, rfl⟩ := initializeMultisig_eq_ok_iff.1 h
    exact .inl rfl
  | addSigner caller newSigner => exact .inl (paused_of_callBy (a := .add newSigner) h)
  | removeSigner caller removed => exact .inl (paused_of_callBy (a := .remove removed) h)
  | setThreshold caller newThreshold =>
    exact .inl (paused_of_callBy (a := .setThreshold newThreshold) h)

/-- A gate that has an admin, and is paused. -/
structure Halted (s : State Address) : Prop where
  /-- The pause flag is set. -/
  paused : s.paused.getD false = true
  /-- There is an admin, so that `initialize` fails. -/
  admin : s.admin.isSome = true

omit [DecidableEq Address] in
/-- **No entry is written while the gate is paused**, whatever is called. -/
theorem RoleStep.denied_of_halted (h : RoleStep env call s s') (hs : Halted s) :
    s'.denied = s.denied := by
  cases h with
  | edited _ hpaused =>
    rw [hs.paused] at hpaused
    cases hpaused
  | handedOver _ _ hs' => rw [hs']
  | governed _ _ _ _ hs' => rw [hs']
  | upgraded _ _ _ _ _ hs' => rw [hs']
  | signed _ _ _ _ _ _ hs' => rw [hs']

/-- A step that is no completed `unpause` leaves a paused gate paused, and its entries alone. -/
theorem exec_halted {i : Input Address} (hs : Halted s)
    (hstays : ¬Resumes (system.stepFrom s i)) :
    Halted (system.exec i s).2 ∧ (system.exec i s).2.denied = s.denied := by
  rcases Tx.commit_answer (invoke i.env i.call) s with ⟨_, hresult, hok⟩ | ⟨-, hpost⟩
  · have hstep := invoke_roleStep hok
    have hpaused : (system.exec i s).2.paused.getD false = true := by
      rcases paused_of_invoke hok hs.admin with hkept | hset | hunpause
      · exact (congrArg (Option.getD · false) hkept).trans hs.paused
      · exact congrArg (Option.getD · false) hset
      · exact absurd ⟨hunpause, hresult⟩ hstays
    exact ⟨⟨hpaused, hstep.moves.isSome_holder hs.admin⟩, hstep.denied_of_halted hs⟩
  · have hpost' : (system.exec i s).2 = s := hpost
    rw [hpost']
    exact ⟨hs, rfl⟩

/-- A completed `pause` halts the gate. -/
theorem halted_of_pauses {i : Input Address} (h : Pauses (system.stepFrom s i)) :
    Halted (system.exec i s).2 := by
  obtain ⟨⟨admin, hcall⟩, hresult⟩ := h
  have hok := Tx.ok_of_commit_fst hresult
  have hcall' : i.call = .pause admin := hcall
  rw [hcall'] at hok
  obtain ⟨-, hadmin, hpost⟩ := pause_eq_ok_iff.1 hok
  have hpost' : (system.exec i s).2 =
      { s with paused := some true, events := s.events ++ [.paused admin] } := by
    show ((invoke i.env i.call).commit s).2 = _
    rw [hcall']
    exact hpost
  rw [hpost']
  exact ⟨rfl, Option.isSome_iff_exists.2 ⟨admin, hadmin⟩⟩

/-! ### The result -/

/-- **The last write wins, and a pause holds.** After every run `check` rejects an address if and
only if its last touch was an addition, the three read-only entry points agree, and no entry has
changed since a completed `pause` that was not followed by a completed `unpause`. -/
theorem denylist_lastTouch (inputs : List (Input Address)) :
    (∀ a, check (system.final inputs) a = false ↔
      ∃ w, lastWrite (runWrites touches (system.history inputs)) a = some w ∧
        w.value = some true) ∧
    (∀ a, isCompliant (system.final inputs) a = check (system.final inputs) a ∧
      isDenylisted (system.final inputs) a = !check (system.final inputs) a) ∧
    ∀ during i before, inputs = during ++ i :: before →
      Pauses (system.stepFrom (system.final before) i) →
      (∀ e ∈ (system.startingAt (system.final (i :: before))).history during, ¬Resumes e) →
      (system.final inputs).denied = (system.final (i :: before)).denied := by
  refine ⟨fun a ↦ ?_, fun a ↦ ⟨rfl, rfl⟩, ?_⟩
  · have hreplay := system.replay_history exec_denied inputs
    have hdenied : (system.final inputs).denied a =
        (lastWrite (runWrites touches (system.history inputs)) a).bind Write.value := by
      rw [hreplay]
      exact replay_empty _ a
    rw [check, hdenied]
    cases lastWrite (runWrites touches (system.history inputs)) a with
    | none => simp
    | some w => rcases hvalue : w.value with _ | _ | _ <;> simp [hvalue]
  · rintro during i before rfl hpauses hstays
    rw [System.final_append]
    exact (system.stretch_induction
      (P := fun s ↦ Halted s ∧ s.denied = (system.final (i :: before)).denied)
      ⟨halted_of_pauses hpauses, rfl⟩
      (fun t j ht hj ↦ ⟨(exec_halted ht.1 hj).1, (exec_halted ht.1 hj).2.trans ht.2⟩)
      hstays).1.2

end

end DenylistGate
