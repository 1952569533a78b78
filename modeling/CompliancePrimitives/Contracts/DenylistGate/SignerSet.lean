import CompliancePrimitives.Contracts.DenylistGate.Spec

/-!
# `denylist-gate`: governance of the signer set

The three entry points `add_signer`, `remove_signer` and `set_threshold` differ in what they check
before `approve` and in what they do once enough approvals are there; both differences are
functions of the action here (`SignerAction.Admissible`, `SignerAction.applyTo`), so that the three
are one case in every proof (`signerCall_eq_ok_iff`).

Two results about whole runs follow from one inversion lemma, `invoke_signerSetStep`:

* an installed set is always a roster, in whatever order pending actions are completed: what an
  action needs in order to keep the set a roster is checked against the set **it is applied to**;
* an installed set changes only through an action, with a quorum of the set before the change, each
  member of which made a call for exactly that action since the action was last applied.
-/

namespace DenylistGate

open Soroban

variable {Address : Type}

/-! ### Actions -/

namespace SignerAction

/-- The call by which `caller` approves an action. -/
def callBy (caller : Address) : SignerAction Address → Call Address
  | .add newSigner => .addSigner caller newSigner
  | .remove removed => .removeSigner caller removed
  | .setThreshold newThreshold => .setThreshold caller newThreshold

/-- What the entry point of an action checks about the set before it records an approval. -/
def Admissible (set : SignerSet Address) : SignerAction Address → Prop
  | .add newSigner => newSigner ∉ set.signers
  | .remove removed =>
    removed ∈ set.signers ∧ 1 < set.signers.length ∧ set.threshold ≤ set.signers.length - 1
  | .setThreshold _ => True

/-- What is checked only when the action is applied. -/
def InBounds (set : SignerSet Address) : SignerAction Address → Prop
  | .setThreshold newThreshold => 1 ≤ newThreshold ∧ newThreshold ≤ set.signers.length
  | _ => True

/-- The set after the action. -/
def applyTo [DecidableEq Address] (set : SignerSet Address) :
    SignerAction Address → SignerSet Address
  | .add newSigner => { set with signers := set.signers ++ [newSigner] }
  | .remove removed =>
    { set with signers := set.signers.filter fun signer ↦ decide (signer ≠ removed) }
  | .setThreshold newThreshold => { set with threshold := newThreshold }

/-- The event that announces the action. -/
def event (set : SignerSet Address) : SignerAction Address → Event Address
  | .add newSigner => .signerAdded newSigner
  | .remove removed => .signerRemoved removed
  | .setThreshold newThreshold => .thresholdChanged set.threshold newThreshold

theorem callBy_injective {a b : SignerAction Address} {x y : Address}
    (h : a.callBy x = b.callBy y) : a = b ∧ x = y := by
  cases a <;> cases b <;> simp_all [callBy]

end SignerAction

/-- The calls by which some action is approved. -/
def Call.isSignerCall : Call Address → Bool
  | .addSigner .. | .removeSigner .. | .setThreshold .. => true
  | _ => false

theorem isSignerCall_callBy (a : SignerAction Address) (x : Address) :
    (a.callBy x).isSignerCall = true := by
  cases a <;> rfl

theorem ne_callBy {call : Call Address} (h : call.isSignerCall = false)
    (a : SignerAction Address) (x : Address) : call ≠ a.callBy x := by
  intro hcall
  rw [hcall, isSignerCall_callBy] at h
  cases h

section

variable [DecidableEq Address] {env : Env Address} {s s' : State Address} {u : Unit}

theorem apply_eq_ok_iff {set : SignerSet Address} {a : SignerAction Address} :
    apply set a s = .ok (u, s') ↔ a.InBounds set ∧
      s' = { s with signerSet := some (a.applyTo set), events := s.events ++ [a.event set] } := by
  cases a with
  | add newSigner =>
    simp [apply, SignerAction.InBounds, SignerAction.applyTo, SignerAction.event]
  | remove removed =>
    simp [apply, SignerAction.InBounds, SignerAction.applyTo, SignerAction.event]
  | setThreshold newThreshold =>
    have hbounds : ¬(newThreshold = 0 ∨ set.signers.length < newThreshold) ↔
        1 ≤ newThreshold ∧ newThreshold ≤ set.signers.length := by omega
    simp only [apply, SignerAction.InBounds, SignerAction.applyTo, SignerAction.event,
      Tx.bind_eq_ok_iff, Tx.ensure_eq_ok_iff, Tx.modify_eq_ok_iff, publish_eq_ok_iff, hbounds]
    simp [and_assoc]

/-- The state once an approval is recorded and still too few are there. -/
def recorded (s : State Address) (a : SignerAction Address) (caller : Address) : State Address :=
  { s with
    pendingSignerAction :=
      Function.update s.pendingSignerAction a (some (collect s a caller))
    events := s.events ++ [.signerApproved caller] }

/-- The state once an action is applied. -/
def applied (s : State Address) (a : SignerAction Address) (caller : Address)
    (set : SignerSet Address) : State Address :=
  { s with
    pendingSignerAction := Function.update s.pendingSignerAction a none
    signerSet := some (a.applyTo set)
    events := s.events ++ [.signerApproved caller, a.event set] }

theorem approve_eq_ok_iff {set : SignerSet Address} {a : SignerAction Address}
    {caller : Address} :
    approve caller a set s = .ok (u, s') ↔
      (valid set (collect s a caller) < set.threshold ∧ s' = recorded s a caller) ∨
        (set.threshold ≤ valid set (collect s a caller) ∧ a.InBounds set ∧
          s' = applied s a caller set) := by
  by_cases hvalid : valid set (collect s a caller) < set.threshold
  · simp [approve, hvalid, recorded]
  · simp only [approve, Tx.bind_eq_ok_iff, Tx.get_eq_ok_iff, publish_eq_ok_iff]
    simp [hvalid, apply_eq_ok_iff, applied, Nat.not_lt.1 hvalid]

/-- **The three signer entry points, as one.** -/
theorem signerCall_eq_ok_iff {a : SignerAction Address} {caller : Address} :
    invoke env (a.callBy caller) s = .ok (u, s') ↔
      env.auths caller = true ∧ ∃ set, s.signerSet = some set ∧ caller ∈ set.signers ∧
        a.Admissible set ∧ approve caller a set s = .ok (u, s') := by
  cases a with
  | add newSigner =>
    simp [SignerAction.callBy, invoke, addSigner, SignerAction.Admissible, and_assoc]
  | remove removed =>
    simp [SignerAction.callBy, invoke, removeSigner, SignerAction.Admissible, and_assoc]
  | setThreshold newThreshold =>
    simp [SignerAction.callBy, invoke, setThreshold, SignerAction.Admissible, and_assoc]

/-- What a completed call can do to the signer set and the pending approvals. -/
inductive SignerSetStep (env : Env Address) (call : Call Address) (s s' : State Address) : Prop
  /-- A call that is no approval leaves the set and the pending approvals alone. -/
  | kept (hcall : ∀ (a : SignerAction Address) (x : Address), call ≠ a.callBy x)
      (hset : s'.signerSet = s.signerSet)
      (hpending : s'.pendingSignerAction = s.pendingSignerAction)
  /-- `initialize_multisig`, once, with a proper roster. -/
  | founded (hcall : ∀ (a : SignerAction Address) (x : Address), call ≠ a.callBy x)
      (set : SignerSet Address) (hnone : s.signerSet = none)
      (roster : IsRoster set.signers set.threshold) (hset : s'.signerSet = some set)
      (hpending : s'.pendingSignerAction = s.pendingSignerAction)
  /-- An approval that does not reach the threshold yet is stored. -/
  | recorded (a : SignerAction Address) (caller : Address) (set : SignerSet Address)
      (hcall : call = a.callBy caller) (hauth : env.auths caller = true)
      (hs : s.signerSet = some set) (hshort : valid set (collect s a caller) < set.threshold)
      (hset : s'.signerSet = s.signerSet)
      (hpending : s'.pendingSignerAction =
        Function.update s.pendingSignerAction a (some (collect s a caller)))
  /-- One that reaches it applies the action, and nothing is pending for it any more. -/
  | applied (a : SignerAction Address) (caller : Address) (set : SignerSet Address)
      (hcall : call = a.callBy caller) (hauth : env.auths caller = true)
      (hs : s.signerSet = some set) (hadm : a.Admissible set) (hbounds : a.InBounds set)
      (hreached : set.threshold ≤ valid set (collect s a caller))
      (hset : s'.signerSet = some (a.applyTo set))
      (hpending : s'.pendingSignerAction = Function.update s.pendingSignerAction a none)

omit [DecidableEq Address] in
private theorem audited_signerSet {kind : Symbol} {subject : Address} {detail : String} :
    (audited env kind subject detail s).signerSet = s.signerSet := by
  cases h : s.auditLog <;> simp [audited, h]

omit [DecidableEq Address] in
private theorem audited_pendingSignerAction {kind : Symbol} {subject : Address}
    {detail : String} :
    (audited env kind subject detail s).pendingSignerAction = s.pendingSignerAction := by
  cases h : s.auditLog <;> simp [audited, h]

/-- The calls of the three signer entry points. -/
theorem signerSetStep_of_callBy {a : SignerAction Address} {caller : Address}
    (h : invoke env (a.callBy caller) s = .ok (u, s')) :
    SignerSetStep env (a.callBy caller) s s' := by
  obtain ⟨hauth, set, hs, -, hadm, happrove⟩ := signerCall_eq_ok_iff.1 h
  rcases approve_eq_ok_iff.1 happrove with ⟨hshort, rfl⟩ | ⟨hreached, hbounds, rfl⟩
  · exact .recorded a caller set rfl hauth hs hshort rfl rfl
  · exact .applied a caller set rfl hauth hs hadm hbounds hreached rfl rfl

/-- **Every completed call is one of these.** -/
theorem invoke_signerSetStep {call : Call Address} (h : invoke env call s = .ok (u, s')) :
    SignerSetStep env call s s' := by
  cases call with
  -- all but four entry points write other slots
  | initialise admin =>
    obtain ⟨-, -, rfl⟩ := initialise_eq_ok_iff.1 h
    exact .kept (ne_callBy rfl) rfl rfl
  | setComplianceOfficer admin officer =>
    obtain ⟨-, -, rfl⟩ := setComplianceOfficer_eq_ok_iff.1 h
    exact .kept (ne_callBy rfl) rfl rfl
  | revokeComplianceOfficer admin =>
    obtain ⟨-, -, rfl⟩ := revokeComplianceOfficer_eq_ok_iff.1 h
    refine .kept (ne_callBy rfl) ?_ ?_ <;>
      cases hofficer : s.complianceOfficer <;> simp [revoked, hofficer]
  | setAuditLog admin auditLog =>
    obtain ⟨-, -, rfl⟩ := setAuditLog_eq_ok_iff.1 h
    exact .kept (ne_callBy rfl) rfl rfl
  | clearAuditLog admin =>
    obtain ⟨-, -, rfl⟩ := clearAuditLog_eq_ok_iff.1 h
    exact .kept (ne_callBy rfl) rfl rfl
  | proposeAdmin currentAdmin newAdmin =>
    obtain ⟨-, -, rfl⟩ := proposeAdmin_eq_ok_iff.1 h
    exact .kept (ne_callBy rfl) rfl rfl
  | acceptAdmin newAdmin =>
    obtain ⟨-, -, _, -, rfl⟩ := acceptAdmin_eq_ok_iff.1 h
    exact .kept (ne_callBy rfl) rfl rfl
  | cancelAdminProposal currentAdmin =>
    obtain ⟨-, -, -, rfl⟩ := cancelAdminProposal_eq_ok_iff.1 h
    exact .kept (ne_callBy rfl) rfl rfl
  | transferAdmin currentAdmin newAdmin =>
    obtain ⟨-, -, rfl⟩ := transferAdmin_eq_ok_iff.1 h
    exact .kept (ne_callBy rfl) rfl rfl
  | proposeUpgrade admin newWasm delayLedgers =>
    obtain ⟨-, -, -, rfl⟩ := proposeUpgrade_eq_ok_iff.1 h
    exact .kept (ne_callBy rfl) rfl rfl
  | commitUpgrade admin =>
    obtain ⟨-, -, _, -, -, rfl⟩ := commitUpgrade_eq_ok_iff.1 h
    exact .kept (ne_callBy rfl) rfl rfl
  | cancelUpgrade admin =>
    obtain ⟨-, -, rfl⟩ := cancelUpgrade_eq_ok_iff.1 h
    exact .kept (ne_callBy rfl) rfl rfl
  | pause admin =>
    obtain ⟨-, -, rfl⟩ := pause_eq_ok_iff.1 h
    exact .kept (ne_callBy rfl) rfl rfl
  | unpause admin =>
    obtain ⟨-, -, rfl⟩ := unpause_eq_ok_iff.1 h
    exact .kept (ne_callBy rfl) rfl rfl
  | addToDenylist admin address =>
    obtain ⟨-, -, -, rfl⟩ := addToDenylist_eq_ok_iff.1 h
    exact .kept (ne_callBy rfl) audited_signerSet audited_pendingSignerAction
  | removeFromDenylist admin address =>
    obtain ⟨-, -, -, rfl⟩ := removeFromDenylist_eq_ok_iff.1 h
    exact .kept (ne_callBy rfl) audited_signerSet audited_pendingSignerAction
  | removeMultipleFromDenylist admin addresses =>
    obtain ⟨-, -, -, -, rfl⟩ := removeMultipleFromDenylist_eq_ok_iff.1 h
    exact .kept (ne_callBy rfl) rfl rfl
  | initializeMultisig admin signers threshold =>
    obtain ⟨-, -, hnone, hroster, rfl⟩ := initializeMultisig_eq_ok_iff.1 h
    exact .founded (ne_callBy rfl) ⟨signers, threshold⟩ hnone hroster rfl rfl
  | addSigner caller newSigner => exact signerSetStep_of_callBy (a := .add newSigner) h
  | removeSigner caller removed => exact signerSetStep_of_callBy (a := .remove removed) h
  | setThreshold caller newThreshold =>
    exact signerSetStep_of_callBy (a := .setThreshold newThreshold) h

/-- A committed invocation either completed as one of these, or changed nothing. -/
theorem exec_signerSetStep (i : Input Address) (s : State Address) :
    ((system.exec i s).1 = .ok () ∧ SignerSetStep i.env i.call s (system.exec i s).2) ∨
      (∃ f, (system.exec i s).1 = .error f) ∧ (system.exec i s).2 = s := by
  rcases Tx.commit_answer (invoke i.env i.call) s with ⟨_, hresult, hok⟩ | hkept
  · exact .inl ⟨hresult, invoke_signerSetStep hok⟩
  · exact .inr hkept

/-! ### The set is always a roster -/

/-- On a roster the removal loop of `approve` is the erasure of one occurrence. -/
theorem SignerAction.applyTo_remove {set : SignerSet Address}
    (hroster : IsRoster set.signers set.threshold) (removed : Address) :
    (SignerAction.remove removed).applyTo set =
      { set with signers := set.signers.erase removed } := by
  have herase : (set.signers.filter fun signer ↦ decide (signer ≠ removed)) =
      set.signers.erase removed := by
    rw [hroster.nodup.erase_eq_filter]
    refine List.filter_congr fun signer _ ↦ ?_
    by_cases heq : signer = removed <;> simp [heq]
  rw [SignerAction.applyTo, herase]

/-- **An applied action is a move of the committee.** What it makes of a roster is a roster again,
and the two committees are one move apart. -/
theorem SignerAction.applyTo_roster {a : SignerAction Address} {set : SignerSet Address}
    (hroster : IsRoster set.signers set.threshold) (hadm : a.Admissible set)
    (hbounds : a.InBounds set) :
    ∃ hroster' : IsRoster (a.applyTo set).signers (a.applyTo set).threshold,
      Committee.Moves hroster.toCommittee hroster'.toCommittee := by
  cases a with
  | add newSigner => exact ⟨hroster.append hadm, hroster.moves_append hadm⟩
  | remove removed =>
    obtain ⟨hmem, -, hspare⟩ := hadm
    rw [← List.length_erase_of_mem hmem] at hspare
    rw [SignerAction.applyTo_remove hroster]
    exact ⟨hroster.erase hspare, hroster.moves_erase hspare⟩
  | setThreshold newThreshold =>
    exact ⟨hroster.retune hbounds.1 hbounds.2, hroster.moves_retune hbounds.1 hbounds.2⟩

/-- The representation invariant of the signer set. -/
def WellFormed (s : State Address) : Prop :=
  ∀ set, s.signerSet = some set → IsRoster set.signers set.threshold

theorem SignerSetStep.wellFormed {call : Call Address} (h : SignerSetStep env call s s')
    (hwf : WellFormed s) : WellFormed s' := by
  intro set hset'
  cases h with
  | kept _ hset => exact hwf set (hset ▸ hset')
  | founded _ set₀ _ roster hset =>
    obtain rfl : set₀ = set := by simpa [hset] using hset'
    exact roster
  | recorded _ _ _ _ _ _ _ hset => exact hwf set (hset ▸ hset')
  | applied a _ set₀ _ _ hs hadm hbounds _ hset =>
    obtain rfl : a.applyTo set₀ = set := by simpa [hset] using hset'
    exact (SignerAction.applyTo_roster (hwf set₀ hs) hadm hbounds).1

theorem wellFormed_final (inputs : List (Input Address)) : WellFormed (system.final inputs) := by
  refine System.final_induction _ (fun set hset ↦ ?_) (fun s i hwf ↦ ?_) inputs
  · simp [system, deploy] at hset
  · rcases exec_signerSetStep i s with ⟨-, hstep⟩ | ⟨-, hpost⟩
    · exact hstep.wellFormed hwf
    · rwa [hpost]

/-- **The installed set is always a roster**: not empty, without repetition, and with a threshold
between one and its size, in whatever order pending actions were completed. -/
theorem signerSet_roster (inputs : List (Input Address)) :
    ∀ set, (system.final inputs).signerSet = some set →
      set.signers ≠ [] ∧ set.signers.Nodup ∧ 1 ≤ set.threshold ∧
        set.threshold ≤ set.signers.length := by
  intro set hset
  have hroster := wellFormed_final inputs set hset
  exact ⟨hroster.ne_nil, hroster.nodup, hroster.one_le, hroster.le_length⟩

/-- A host which grants every authorization it is asked for. -/
def Env.granting : Env Address where
  sequence := 1
  timestamp := 0
  auths := fun _ ↦ true
  auditAnswer := fun _ ↦ true

/-- Three signers. One approves a threshold of three, two remove the third signer, and then the
second completes the pending threshold, which no longer fits and is refused. -/
def delayedThreshold : List (Input ℕ) :=
  [⟨.granting, .setThreshold 2 3⟩, ⟨.granting, .removeSigner 2 3⟩, ⟨.granting, .removeSigner 1 3⟩,
    ⟨.granting, .setThreshold 1 3⟩, ⟨.granting, .initializeMultisig 0 [1, 2, 3] 2⟩,
    ⟨.granting, .initialise 0⟩]

theorem signerSet_roster_delayedThreshold :
    (system.final delayedThreshold).signerSet = some ⟨[1, 2], 2⟩ ∧
      [1, 2] ≠ [] ∧ [1, 2].Nodup ∧ 1 ≤ 2 ∧ 2 ≤ [1, 2].length :=
  ⟨by decide, signerSet_roster delayedThreshold ⟨[1, 2], 2⟩ (by decide)⟩

/-! ### The quorum behind every change -/

/-- One step of a run of the contract. -/
abbrev Moment (Address : Type) :=
  Step (State Address) (Input Address) (Except (Failure Error) Unit)

/-- The step is a completed call for exactly the action `a` by `x`, which `x` authorized. -/
def ApprovedBy (a : SignerAction Address) (x : Address) (e : Moment Address) : Prop :=
  e.input.call = a.callBy x ∧ e.input.env.auths x = true ∧ e.result = .ok ()

/-- The step is a completed call for `a` that found enough approvals, and so applied `a`. -/
def Applies (a : SignerAction Address) (e : Moment Address) : Prop :=
  ∃ caller set, e.input.call = a.callBy caller ∧ e.result = .ok () ∧
    e.pre.signerSet = some set ∧ set.threshold ≤ valid set (collect e.pre a caller)

/-- The step installed the signer set. -/
def Installs (e : Moment Address) : Prop :=
  e.pre.signerSet = none ∧ e.post.signerSet.isSome = true

/-- Approvals of `a` count from here on anew: `a` was applied, or the set was installed. -/
def Renews (a : SignerAction Address) (e : Moment Address) : Prop :=
  Applies a e ∨ Installs e

/-- How the past of a run and the pending approvals fit together. -/
structure PendingInv (h : List (Moment Address)) (s : State Address) : Prop where
  /-- Nothing is pending before a set is installed. -/
  none_of_none : s.signerSet = none → ∀ a, s.pendingSignerAction a = none
  /-- No one is counted twice among the approvals of an action. -/
  nodup : ∀ a approvals, s.pendingSignerAction a = some approvals → approvals.Nodup
  /-- Each pending approval was given, in person and for this action, since it was last renewed. -/
  given : ∀ a approvals, s.pendingSignerAction a = some approvals →
    ∀ x ∈ approvals, Since (Renews a) (ApprovedBy a x) h

theorem PendingInv.collect_nodup {h : List (Moment Address)} (hinv : PendingInv h s)
    (a : SignerAction Address) (x : Address) : (collect s a x).Nodup := by
  have hstored : ((s.pendingSignerAction a).getD []).Nodup := by
    cases hp : s.pendingSignerAction a with
    | none => exact List.nodup_nil
    | some approvals => exact hinv.nodup a approvals hp
  rw [collect]
  split_ifs with hmem
  · exact hstored
  · exact hstored.append (List.nodup_singleton x) (by simpa using hmem)

/-- A collected approval is the caller's own, or was given since the action was last renewed. -/
theorem PendingInv.of_mem_collect {h : List (Moment Address)} (hinv : PendingInv h s)
    {a : SignerAction Address} {x y : Address} (hy : y ∈ collect s a x) :
    y = x ∨ Since (Renews a) (ApprovedBy a y) h := by
  have hstored : y ∈ (s.pendingSignerAction a).getD [] → Since (Renews a) (ApprovedBy a y) h := by
    cases hp : s.pendingSignerAction a with
    | none => simp
    | some approvals => exact hinv.given a approvals hp y
  rw [collect] at hy
  split_ifs at hy with hmem
  · exact .inr (hstored hy)
  · rcases List.mem_append.1 hy with hy | hy
    · exact .inr (hstored hy)
    · exact .inl (List.mem_singleton.1 hy)

/-- A pending approval outlives every step that does not renew its action. -/
theorem since_cons_of_not_renews {h : List (Moment Address)}
    {e : Moment Address} {a : SignerAction Address} {x : Address} (hno : ¬Renews a e)
    (hsince : Since (Renews a) (ApprovedBy a x) h) :
    Since (Renews a) (ApprovedBy a x) (e :: h) :=
  ⟨hno, .inr hsince⟩

/-- A step which leaves the set and the pending approvals alone, and renews nothing. -/
theorem PendingInv.frame {h : List (Moment Address)} {e : Moment Address} (hinv : PendingInv h s)
    (hset : s'.signerSet = s.signerSet) (hpending : s'.pendingSignerAction = s.pendingSignerAction)
    (hno : ∀ a, ¬Renews a e) : PendingInv (e :: h) s' where
  none_of_none := by
    rw [hset, hpending]
    exact hinv.none_of_none
  nodup := by
    rw [hpending]
    exact hinv.nodup
  given := by
    rw [hpending]
    exact fun a approvals hp x hx ↦
      since_cons_of_not_renews (hno a) (hinv.given a approvals hp x hx)

/-- A step that records one more approval, and renews nothing. -/
theorem PendingInv.recorded {h : List (Moment Address)} {e : Moment Address}
    (hinv : PendingInv h s) {a : SignerAction Address} {caller : Address} {set : SignerSet Address}
    (happroved : ApprovedBy a caller e) (hs : s.signerSet = some set)
    (hset : s'.signerSet = s.signerSet)
    (hpending : s'.pendingSignerAction =
      Function.update s.pendingSignerAction a (some (collect s a caller)))
    (hno : ∀ b, ¬Renews b e) : PendingInv (e :: h) s' := by
  -- what is pending afterwards is the collected list of `a`, or was pending before
  have hstored : ∀ b approvals, s'.pendingSignerAction b = some approvals →
      (b = a ∧ approvals = collect s a caller) ∨ s.pendingSignerAction b = some approvals := by
    intro b approvals hp
    rw [hpending] at hp
    by_cases hb : b = a
    · subst hb
      rw [Function.update_self] at hp
      exact .inl ⟨rfl, (Option.some.inj hp).symm⟩
    · rw [Function.update_of_ne hb] at hp
      exact .inr hp
  refine ⟨fun hnone ↦ ?_, fun b approvals hp ↦ ?_, fun b approvals hp x hx ↦ ?_⟩
  · rw [hset, hs] at hnone
    cases hnone
  · rcases hstored b approvals hp with ⟨rfl, rfl⟩ | hold
    · exact hinv.collect_nodup b caller
    · exact hinv.nodup b approvals hold
  · rcases hstored b approvals hp with ⟨rfl, rfl⟩ | hold
    · rcases hinv.of_mem_collect hx with rfl | hsince
      · exact ⟨hno b, .inl happroved⟩
      · exact since_cons_of_not_renews (hno b) hsince
    · exact since_cons_of_not_renews (hno b) (hinv.given b approvals hold x hx)

/-- A step that applies an action, and renews no other. -/
theorem PendingInv.applied {h : List (Moment Address)} {e : Moment Address}
    (hinv : PendingInv h s) {a : SignerAction Address} {set : SignerSet Address}
    (hset : s'.signerSet = some set)
    (hpending : s'.pendingSignerAction = Function.update s.pendingSignerAction a none)
    (hno : ∀ b, b ≠ a → ¬Renews b e) : PendingInv (e :: h) s' := by
  -- nothing of `a` is pending any more, and every other action is untouched
  have hstored : ∀ b approvals, s'.pendingSignerAction b = some approvals →
      b ≠ a ∧ s.pendingSignerAction b = some approvals := by
    intro b approvals hp
    rw [hpending] at hp
    by_cases hb : b = a
    · subst hb
      rw [Function.update_self] at hp
      cases hp
    · rw [Function.update_of_ne hb] at hp
      exact ⟨hb, hp⟩
  refine ⟨fun hnone ↦ ?_, fun b approvals hp ↦ ?_, fun b approvals hp x hx ↦ ?_⟩
  · rw [hset] at hnone
    cases hnone
  · exact hinv.nodup b approvals (hstored b approvals hp).2
  · obtain ⟨hb, hold⟩ := hstored b approvals hp
    exact since_cons_of_not_renews (hno b hb) (hinv.given b approvals hold x hx)

/-- A step made with a set installed does not install one. -/
theorem not_installs_of_some {i : Input Address} {set : SignerSet Address}
    (hs : s.signerSet = some set) : ¬Installs (system.stepFrom s i) := by
  rintro ⟨hnone, -⟩
  rw [System.stepFrom_pre, hs] at hnone
  cases hnone

/-- A step that leaves the set alone does not install one. -/
theorem not_installs_of_eq {i : Input Address}
    (hset : (system.exec i s).2.signerSet = s.signerSet) : ¬Installs (system.stepFrom s i) := by
  rintro ⟨hnone, hsome⟩
  rw [System.stepFrom_pre] at hnone
  rw [System.stepFrom_post, hset, hnone] at hsome
  cases hsome

/-- **Every step keeps the invariant**, completed or not. -/
theorem PendingInv.step {h : List (Moment Address)} (hinv : PendingInv h s) (i : Input Address) :
    PendingInv (system.stepFrom s i :: h) (system.exec i s).2 := by
  rcases exec_signerSetStep i s with ⟨hok, hstep⟩ | ⟨⟨f, hfail⟩, hpost⟩
  · cases hstep with
    | kept hcall hset hpending =>
      refine hinv.frame hset hpending fun a hrenews ↦ ?_
      rcases hrenews with ⟨caller, _, heq, -⟩ | hinst
      · exact hcall a caller heq
      · exact not_installs_of_eq hset hinst
    | founded _ set hnone _ hset hpending =>
      have hempty : ∀ a, (system.exec i s).2.pendingSignerAction a = none := by
        rw [hpending]
        exact hinv.none_of_none hnone
      refine ⟨fun _ ↦ hempty, fun a approvals hp ↦ ?_, fun a approvals hp ↦ ?_⟩ <;>
        simp [hempty a] at hp
    | recorded a caller set hcall hauth hs hshort hset hpending =>
      refine hinv.recorded ⟨hcall, hauth, hok⟩ hs hset hpending fun b hrenews ↦ ?_
      -- too few approvals, so `a` is not applied, and this is the call of no other action
      rcases hrenews with ⟨x, set', heq, -, hs', hreached⟩ | hinst
      · obtain ⟨rfl, rfl⟩ := SignerAction.callBy_injective (hcall.symm.trans heq)
        obtain rfl : set = set' := Option.some.inj (hs.symm.trans hs')
        exact absurd hshort (Nat.not_lt.2 hreached)
      · exact not_installs_of_some hs hinst
    | applied a caller set hcall hauth hs _ _ hreached hset hpending =>
      refine hinv.applied hset hpending fun b hb hrenews ↦ ?_
      rcases hrenews with ⟨x, _, heq, -⟩ | hinst
      · exact hb (SignerAction.callBy_injective (hcall.symm.trans heq)).1.symm
      · exact not_installs_of_some hs hinst
  · refine hinv.frame (by rw [hpost]) (by rw [hpost]) fun a hrenews ↦ ?_
    rcases hrenews with ⟨_, _, -, hok, -⟩ | hinst
    · rw [System.stepFrom_result, hfail] at hok
      cases hok
    · exact not_installs_of_eq (by rw [hpost]) hinst

theorem pendingInv_run (inputs : List (Input Address)) :
    PendingInv (system.history inputs) (system.final inputs) :=
  System.history_induction _
    ⟨fun _ _ ↦ rfl, fun _ _ hp ↦ by simp [system, deploy] at hp,
      fun _ _ hp ↦ by simp [system, deploy] at hp⟩
    (fun _ _ i hinv ↦ hinv.step i) inputs

/-- **A signer-set change has its quorum.** In every run, a step that changes an installed set is
the application of an action, and at least `threshold` distinct signers of the set before the
change have each made a completed call for exactly this action, authorized by themselves: the step
itself is one, or it happened since the action was last applied (or since the set was installed).
No call but the three signer entry points changes an installed set. -/
theorem signerSet_change_quorum (inputs : List (Input Address)) (i : Input Address) :
    (∀ set, (system.final inputs).signerSet = some set →
      (system.final (i :: inputs)).signerSet ≠ some set →
      ∃ a, Applies a (system.stepFrom (system.final inputs) i) ∧
        (system.final (i :: inputs)).signerSet = some (a.applyTo set) ∧
        Quorum set.threshold set.signers fun x ↦
          ApprovedBy a x (system.stepFrom (system.final inputs) i) ∨
            Since (Renews a) (ApprovedBy a x) (system.history inputs)) ∧
    ((∀ (a : SignerAction Address) (x : Address), i.call ≠ a.callBy x) →
      ∀ set, (system.final inputs).signerSet = some set →
        (system.final (i :: inputs)).signerSet = some set) := by
  have hinv := pendingInv_run inputs
  rw [System.final_cons]
  rcases exec_signerSetStep i (system.final inputs) with ⟨hok, hstep⟩ | ⟨-, hpost⟩
  · cases hstep with
    | kept _ hset =>
      exact ⟨fun set hs hne ↦ absurd (hset.trans hs) hne, fun _ set hs ↦ hset.trans hs⟩
    | founded _ _ hnone =>
      exact ⟨fun set hs ↦ by simp [hnone] at hs, fun _ set hs ↦ by simp [hnone] at hs⟩
    | recorded _ _ _ _ _ _ _ hset =>
      exact ⟨fun set hs hne ↦ absurd (hset.trans hs) hne, fun _ set hs ↦ hset.trans hs⟩
    | applied a caller set hcall hauth hs _ _ hreached hset =>
      -- the approvals counted are the collected ones, and `PendingInv` knows where they are from
      refine ⟨fun set' hs' _ ↦ ?_, fun hother ↦ absurd hcall (hother a caller)⟩
      obtain rfl : set = set' := Option.some.inj (hs.symm.trans hs')
      refine ⟨a, ⟨caller, set, hcall, hok, hs, hreached⟩, hset,
        quorum_of_countP (hinv.collect_nodup a caller) (fun x hx ↦ ?_) hreached⟩
      rcases hinv.of_mem_collect hx with rfl | hsince
      · exact .inl ⟨hcall, hauth, hok⟩
      · exact .inr hsince
  · exact ⟨fun set hs hne ↦ absurd ((congrArg _ hpost).trans hs) hne,
      fun _ set hs ↦ (congrArg _ hpost).trans hs⟩

/-- **The committee behind an installed set.** A step either keeps the committee the set stands
for, or makes one of the committee's moves. -/
theorem signerSet_refines_committee (inputs : List (Input Address)) (i : Input Address)
    {set : SignerSet Address} (hs : (system.final inputs).signerSet = some set) :
    ∃ set', (system.final (i :: inputs)).signerSet = some set' ∧
      ∃ (hroster : IsRoster set.signers set.threshold)
        (hroster' : IsRoster set'.signers set'.threshold),
        hroster'.toCommittee = hroster.toCommittee ∨
          Committee.Moves hroster.toCommittee hroster'.toCommittee := by
  have hroster := wellFormed_final inputs set hs
  rw [System.final_cons]
  rcases exec_signerSetStep i (system.final inputs) with ⟨-, hstep⟩ | ⟨-, hpost⟩
  · cases hstep with
    | kept _ hset => exact ⟨set, hset.trans hs, hroster, hroster, .inl rfl⟩
    | founded _ _ hnone => simp [hnone] at hs
    | recorded _ _ _ _ _ _ _ hset => exact ⟨set, hset.trans hs, hroster, hroster, .inl rfl⟩
    | applied a _ set₀ _ _ hs₀ hadm hbounds _ hset =>
      obtain rfl : set₀ = set := Option.some.inj (hs₀.symm.trans hs)
      obtain ⟨hroster', hmoves⟩ := SignerAction.applyTo_roster hroster hadm hbounds
      exact ⟨a.applyTo set₀, hset, hroster, hroster', .inr hmoves⟩
  · exact ⟨set, (congrArg _ hpost).trans hs, hroster, hroster, .inl rfl⟩

end

end DenylistGate
