import CompliancePrimitives.Contracts.DenylistGate.SignerSet

/-!
# `denylist-gate`: the denylist, its events, and its audit trail

Three entry points edit the denylist. `invoke_denylistStep` says what each of them does to the
list, to the events and to the `record` calls, and that no other entry point touches any of the
three.

The audit trail is **complete** over a stretch of a run if the changes announced by its `DenyAdd`
and `DenyRemove` events are, one for one and in order, the changes the audit log was called for, and
if the calls it did not accept are, one for one and in order, those an `AuditLogFailed` event
surfaces. Single additions and removals keep it complete whatever the log answers. The loop of
`remove_multiple_from_denylist` announces every removal and records none, so a stretch is complete
exactly if no removal was made in a batch (`auditComplete_iff`).
-/

namespace DenylistGate

open Soroban

variable {Address : Type}

/-! ### What is announced and what is recorded -/

/-- A change of the denylist: its kind, and the address. -/
abbrev Change (Address : Type) := Symbol × Address

/-- The change an event announces. -/
def Event.change : Event Address → Option (Change Address)
  | .denyAdd address => some ("deny_add", address)
  | .denyRemove address => some ("deny_remove", address)
  | _ => none

/-- The change whose record an event says has failed. -/
def Event.failedChange : Event Address → Option (Change Address)
  | .auditLogFailed kind subject => some (kind, subject)
  | _ => none

/-- The events of the denylist and of its audit trail. -/
def Event.isDenylistEvent (e : Event Address) : Bool :=
  e.change.isSome || e.failedChange.isSome

/-- The change a `record` call is made for. -/
def RecordCall.change (c : RecordCall Address) : Change Address := (c.kind, c.subject)

/-- The events a step published. -/
def announced (e : Moment Address) : List (Event Address) :=
  e.post.events.drop e.pre.events.length

/-- The `record` calls a step made, each with the answer it got. -/
def recordCalls (e : Moment Address) : List (RecordCall Address × Bool) :=
  (e.post.records.drop e.pre.records.length).map fun c ↦ (c, e.input.env.auditAnswer c)

/-- The changes a step announced. -/
def changes (e : Moment Address) : List (Change Address) := (announced e).filterMap Event.change

/-- The changes a step recorded, or tried to. -/
def recordedChanges (e : Moment Address) : List (Change Address) :=
  (recordCalls e).map fun c ↦ c.1.change

/-- The changes a step could not record. -/
def refusedChanges (e : Moment Address) : List (Change Address) :=
  ((recordCalls e).filter fun c ↦ !c.2).map fun c ↦ c.1.change

/-- The failures a step surfaced. -/
def surfacedChanges (e : Moment Address) : List (Change Address) :=
  (announced e).filterMap Event.failedChange

/-- **The audit trail of a stretch of a run is complete.** Histories are latest first, and the trail
is read from the oldest step on. -/
structure AuditComplete (h : List (Moment Address)) : Prop where
  /-- The changes, in order, are those the log has taken. -/
  matched : h.reverse.flatMap changes = h.reverse.flatMap recordedChanges
  /-- The changes it refused, in order, are those an event tells of. -/
  surfaced : h.reverse.flatMap refusedChanges = h.reverse.flatMap surfacedChanges

/-- The calls that edit the denylist. -/
def Call.editsDenylist : Call Address → Bool
  | .addToDenylist .. | .removeFromDenylist .. | .removeMultipleFromDenylist .. => true
  | _ => false

section

variable [DecidableEq Address] {env : Env Address} {s s' : State Address} {u : Unit}

/-- The state after a single addition, before the audit call. -/
def denied (s : State Address) (address : Address) : State Address :=
  { s with denied := Function.update s.denied address (some true)
           events := s.events ++ [.denyAdd address] }

/-- The state after a single removal, before the audit call. -/
def cleared (s : State Address) (address : Address) : State Address :=
  { s with denied := Function.update s.denied address none
           events := s.events ++ [.denyRemove address] }

/-- The state after a batch of removals. -/
def clearedAll (s : State Address) (addresses : List Address) : State Address :=
  { s with denied := fun a ↦ if a ∈ addresses then none else s.denied a
           events := s.events ++ addresses.map .denyRemove }

/-- What a completed call can do to the denylist, the events and the `record` calls. -/
inductive DenylistStep (env : Env Address) (call : Call Address) (s s' : State Address) : Prop
  /-- A call that is not about the denylist leaves it alone, and records nothing. -/
  | kept (hcall : call.editsDenylist = false) (hdenied : s'.denied = s.denied)
      (events : List (Event Address)) (hevents : s'.events = s.events ++ events)
      (hother : ∀ e ∈ events, e.isDenylistEvent = false) (hrecords : s'.records = s.records)
  /-- `add_to_denylist`: written, announced and recorded. -/
  | added (admin address : Address) (hcall : call = .addToDenylist admin address)
      (hs' : s' = audited env "deny_add" address "address added to denylist" (denied s address))
  /-- `remove_from_denylist`: likewise. -/
  | removed (admin address : Address) (hcall : call = .removeFromDenylist admin address)
      (hs' : s' = audited env "deny_remove" address "address removed from denylist"
        (cleared s address))
  /-- `remove_multiple_from_denylist`: written and announced, but not recorded. -/
  | removedAll (admin : Address) (addresses : List Address)
      (hcall : call = .removeMultipleFromDenylist admin addresses)
      (hpaused : s.paused.getD false = false) (hauth : env.auths admin = true)
      (hauthority : HasAuthority s admin) (hlength : addresses.length ≤ maxBatchSize)
      (hs' : s' = clearedAll s addresses)

/-- A call that publishes one event, which is not about the denylist. -/
private theorem denylistStep_of_event {call : Call Address} {e : Event Address}
    (hcall : call.editsDenylist = false) (hdenied : s'.denied = s.denied)
    (hevents : s'.events = s.events ++ [e]) (he : e.isDenylistEvent = false)
    (hrecords : s'.records = s.records) : DenylistStep env call s s' :=
  .kept hcall hdenied [e] hevents (by simpa using he) hrecords

/-- The calls of the three signer entry points. -/
theorem denylistStep_of_callBy {a : SignerAction Address} {caller : Address}
    (h : invoke env (a.callBy caller) s = .ok (u, s')) :
    DenylistStep env (a.callBy caller) s s' := by
  have hcall : (a.callBy caller).editsDenylist = false := by cases a <;> rfl
  obtain ⟨-, set, -, -, -, happrove⟩ := signerCall_eq_ok_iff.1 h
  rcases approve_eq_ok_iff.1 happrove with ⟨-, rfl⟩ | ⟨-, -, rfl⟩
  · exact denylistStep_of_event hcall rfl rfl rfl rfl
  · refine .kept hcall rfl [.signerApproved caller, a.event set] rfl ?_ rfl
    cases a <;> simp [SignerAction.event, Event.isDenylistEvent, Event.change, Event.failedChange]

/-- **Every completed call is one of these.** -/
theorem invoke_denylistStep {call : Call Address} (h : invoke env call s = .ok (u, s')) :
    DenylistStep env call s s' := by
  cases call with
  -- the administration announces what it does, with events that are not of the denylist
  | initialise admin =>
    obtain ⟨-, -, rfl⟩ := initialise_eq_ok_iff.1 h
    exact .kept rfl rfl [] (List.append_nil _).symm (by simp) rfl
  | setComplianceOfficer admin officer =>
    obtain ⟨-, -, rfl⟩ := setComplianceOfficer_eq_ok_iff.1 h
    exact denylistStep_of_event rfl rfl rfl rfl rfl
  | revokeComplianceOfficer admin =>
    obtain ⟨-, -, rfl⟩ := revokeComplianceOfficer_eq_ok_iff.1 h
    cases hofficer : s.complianceOfficer with
    -- without an officer there is nothing to revoke, and nothing is published
    | none =>
      have hsame : revoked s = s := by rw [revoked, hofficer]
      rw [hsame]
      exact .kept rfl rfl [] (List.append_nil _).symm (by simp) rfl
    | some officer =>
      rw [revoked, hofficer]
      exact denylistStep_of_event rfl rfl rfl rfl rfl
  | setAuditLog admin auditLog =>
    obtain ⟨-, -, rfl⟩ := setAuditLog_eq_ok_iff.1 h
    exact denylistStep_of_event rfl rfl rfl rfl rfl
  | clearAuditLog admin =>
    obtain ⟨-, -, rfl⟩ := clearAuditLog_eq_ok_iff.1 h
    exact .kept rfl rfl [] (List.append_nil _).symm (by simp) rfl
  | proposeAdmin currentAdmin newAdmin =>
    obtain ⟨-, -, rfl⟩ := proposeAdmin_eq_ok_iff.1 h
    exact denylistStep_of_event rfl rfl rfl rfl rfl
  | acceptAdmin newAdmin =>
    obtain ⟨-, -, _, -, rfl⟩ := acceptAdmin_eq_ok_iff.1 h
    exact denylistStep_of_event rfl rfl rfl rfl rfl
  | cancelAdminProposal currentAdmin =>
    obtain ⟨-, -, -, rfl⟩ := cancelAdminProposal_eq_ok_iff.1 h
    exact denylistStep_of_event rfl rfl rfl rfl rfl
  | transferAdmin currentAdmin newAdmin =>
    obtain ⟨-, -, rfl⟩ := transferAdmin_eq_ok_iff.1 h
    exact denylistStep_of_event rfl rfl rfl rfl rfl
  | proposeUpgrade admin newWasm delayLedgers =>
    obtain ⟨-, -, -, rfl⟩ := proposeUpgrade_eq_ok_iff.1 h
    exact denylistStep_of_event rfl rfl rfl rfl rfl
  | commitUpgrade admin =>
    obtain ⟨-, -, _, -, -, rfl⟩ := commitUpgrade_eq_ok_iff.1 h
    exact denylistStep_of_event rfl rfl rfl rfl rfl
  | cancelUpgrade admin =>
    obtain ⟨-, -, rfl⟩ := cancelUpgrade_eq_ok_iff.1 h
    exact denylistStep_of_event rfl rfl rfl rfl rfl
  | pause admin =>
    obtain ⟨-, -, rfl⟩ := pause_eq_ok_iff.1 h
    exact denylistStep_of_event rfl rfl rfl rfl rfl
  | unpause admin =>
    obtain ⟨-, -, rfl⟩ := unpause_eq_ok_iff.1 h
    exact denylistStep_of_event rfl rfl rfl rfl rfl
  | addToDenylist admin address =>
    obtain ⟨-, -, -, rfl⟩ := addToDenylist_eq_ok_iff.1 h
    exact .added admin address rfl rfl
  | removeFromDenylist admin address =>
    obtain ⟨-, -, -, rfl⟩ := removeFromDenylist_eq_ok_iff.1 h
    exact .removed admin address rfl rfl
  | removeMultipleFromDenylist admin addresses =>
    obtain ⟨hpaused, hauth, hauthority, hlength, rfl⟩ := removeMultipleFromDenylist_eq_ok_iff.1 h
    exact .removedAll admin addresses rfl hpaused hauth hauthority hlength rfl
  | initializeMultisig admin signers threshold =>
    obtain ⟨-, -, -, -, rfl⟩ := initializeMultisig_eq_ok_iff.1 h
    exact denylistStep_of_event rfl rfl rfl rfl rfl
  | addSigner caller newSigner => exact denylistStep_of_callBy (a := .add newSigner) h
  | removeSigner caller removed => exact denylistStep_of_callBy (a := .remove removed) h
  | setThreshold caller newThreshold =>
    exact denylistStep_of_callBy (a := .setThreshold newThreshold) h

/-- A committed invocation either completed as one of these, or changed nothing. -/
theorem exec_denylistStep (i : Input Address) (s : State Address) :
    DenylistStep i.env i.call s (system.exec i s).2 ∨
      (∃ f, (system.exec i s).1 = .error f) ∧ (system.exec i s).2 = s := by
  rcases Tx.commit_answer (invoke i.env i.call) s with ⟨_, -, hok⟩ | hkept
  · exact .inl (invoke_denylistStep hok)
  · exact .inr hkept

/-! ### The trail of one step -/

omit [DecidableEq Address] in
theorem announced_eq {e : Moment Address} {events : List (Event Address)}
    (h : e.post.events = e.pre.events ++ events) : announced e = events := by
  rw [announced, h, List.drop_left]

omit [DecidableEq Address] in
theorem recordCalls_eq {e : Moment Address} (records : List (RecordCall Address))
    (h : e.post.records = e.pre.records ++ records) :
    recordCalls e = records.map fun c ↦ (c, e.input.env.auditAnswer c) := by
  rw [recordCalls, h, List.drop_left]

/-- The trail of a step is in order: what it announces is what it records, and what it cannot
record is what it surfaces. -/
structure Audited (e : Moment Address) : Prop where
  /-- What it changes is what it has recorded. -/
  matched : changes e = recordedChanges e
  /-- What was refused is what it tells of. -/
  surfaced : refusedChanges e = surfacedChanges e

omit [DecidableEq Address] in
/-- A step that neither announces nor records a change. -/
theorem audited_of_other {e : Moment Address} (events : List (Event Address))
    (hevents : e.post.events = e.pre.events ++ events)
    (hother : ∀ e ∈ events, e.isDenylistEvent = false)
    (hrecords : e.post.records = e.pre.records) : Audited e := by
  have hcalls : recordCalls e = [] :=
    recordCalls_eq [] (hrecords.trans (List.append_nil _).symm)
  have hchange : events.filterMap Event.change = [] := by
    refine List.filterMap_eq_nil_iff.2 fun a ha ↦ ?_
    have hnone := hother a ha
    simp only [Event.isDenylistEvent, Bool.or_eq_false_iff, Option.isSome_eq_false_iff,
      Option.isNone_iff_eq_none] at hnone
    exact hnone.1
  have hfailed : events.filterMap Event.failedChange = [] := by
    refine List.filterMap_eq_nil_iff.2 fun a ha ↦ ?_
    have hnone := hother a ha
    simp only [Event.isDenylistEvent, Bool.or_eq_false_iff, Option.isSome_eq_false_iff,
      Option.isNone_iff_eq_none] at hnone
    exact hnone.2
  constructor
  · rw [changes, recordedChanges, announced_eq hevents, hcalls, hchange]
    rfl
  · rw [refusedChanges, surfacedChanges, announced_eq hevents, hcalls, hfailed]
    rfl

omit [DecidableEq Address] in
/-- A step that announces one change and then makes the audit call for it. -/
theorem audited_of_single {e : Moment Address} {t : State Address} {ev : Event Address}
    {kind : Symbol} {subject : Address} {detail : String}
    (hlog : e.pre.auditLog.isSome = true)
    (hpost : e.post = audited e.input.env kind subject detail t)
    (htlog : t.auditLog = e.pre.auditLog) (hevents : t.events = e.pre.events ++ [ev])
    (hrecords : t.records = e.pre.records) (hchange : ev.change = some (kind, subject))
    (hfailed : ev.failedChange = none) : Audited e := by
  obtain ⟨auditLog, hlog'⟩ := Option.isSome_iff_exists.1 hlog
  have hcalls : recordCalls e = [({ auditLog, kind, subject, detail },
      e.input.env.auditAnswer { auditLog, kind, subject, detail })] := by
    refine recordCalls_eq [{ auditLog, kind, subject, detail }] ?_
    rw [hpost, audited, htlog, hlog', ← hrecords]
  -- the log's answer decides whether a second event follows
  cases hanswer : e.input.env.auditAnswer { auditLog, kind, subject, detail } with
  | true =>
    have hannounced : announced e = [ev] := by
      refine announced_eq ?_
      rw [hpost, audited, htlog, hlog']
      simp [hanswer, hevents]
    constructor
    · simp [changes, recordedChanges, hannounced, hcalls, hchange, RecordCall.change]
    · simp [refusedChanges, surfacedChanges, hannounced, hcalls, hanswer, hfailed]
  | false =>
    have hannounced : announced e = [ev, .auditLogFailed kind subject] := by
      refine announced_eq ?_
      rw [hpost, audited, htlog, hlog']
      simp [hanswer, hevents]
    constructor
    · have hnone : (Event.auditLogFailed kind subject).change = none := rfl
      simp [changes, recordedChanges, hannounced, hcalls, hchange, hnone, RecordCall.change]
    · have hsurfaced : (Event.auditLogFailed kind subject).failedChange =
          some (kind, subject) := rfl
      simp [refusedChanges, surfacedChanges, hannounced, hcalls, hanswer, hfailed, hsurfaced,
        RecordCall.change]

/-- The step removes addresses in a batch: a call of `remove_multiple_from_denylist` that lists
some, and passes all its checks. -/
def RemovesBatch (e : Moment Address) : Prop :=
  ∃ admin addresses, e.input.call = .removeMultipleFromDenylist admin addresses ∧
    addresses ≠ [] ∧ addresses.length ≤ maxBatchSize ∧ e.pre.paused.getD false = false ∧
    e.input.env.auths admin = true ∧ HasAuthority e.pre admin

/-- **Every other step audits itself.** -/
theorem audited_of_not_removesBatch {i : Input Address} (hlog : s.auditLog.isSome = true)
    (hbatch : ¬RemovesBatch (system.stepFrom s i)) : Audited (system.stepFrom s i) := by
  rcases exec_denylistStep i s with hstep | ⟨-, hpost⟩
  · cases hstep with
    | kept _ _ events hevents hother hrecords =>
      exact audited_of_other events hevents hother hrecords
    | added admin address _ hs' => exact audited_of_single hlog hs' rfl rfl rfl rfl rfl
    | removed admin address _ hs' => exact audited_of_single hlog hs' rfl rfl rfl rfl rfl
    | removedAll admin addresses hcall hpaused hauth hauthority hlength hs' =>
      have hempty : addresses = [] := by
        by_contra hne
        exact hbatch ⟨admin, addresses, hcall, hne, hlength, hpaused, hauth, hauthority⟩
      refine audited_of_other [] ?_ (by simp) ?_
      · rw [System.stepFrom_post, hs', clearedAll, hempty]
        rfl
      · rw [System.stepFrom_post, hs']
        rfl
  · refine audited_of_other [] ?_ (by simp) ?_
    · rw [System.stepFrom_post, hpost]
      exact (List.append_nil _).symm
    · rw [System.stepFrom_post, hpost]
      rfl

/-- **A batch removal records nothing** of what it announces. -/
theorem lt_of_removesBatch {i : Input Address} (hbatch : RemovesBatch (system.stepFrom s i)) :
    (recordedChanges (system.stepFrom s i)).length < (changes (system.stepFrom s i)).length := by
  obtain ⟨admin, addresses, hcall, hne, hlength, hpaused, hauth, hauthority⟩ := hbatch
  have hcall' : i.call = .removeMultipleFromDenylist admin addresses := hcall
  have hok : invoke i.env i.call s = .ok ((), clearedAll s addresses) := by
    rw [hcall']
    exact removeMultipleFromDenylist_eq_ok_iff.2 ⟨hpaused, hauth, hauthority, hlength, rfl⟩
  have hpost : (system.stepFrom s i).post = clearedAll s addresses :=
    congrArg Prod.snd (Tx.commit_of_ok hok)
  have hcalls : recordCalls (system.stepFrom s i) = [] := by
    refine recordCalls_eq [] ?_
    rw [hpost]
    exact (List.append_nil _).symm
  have hannounced : announced (system.stepFrom s i) = addresses.map .denyRemove := by
    refine announced_eq ?_
    rw [hpost]
    rfl
  have hchanges : changes (system.stepFrom s i) = addresses.map fun a ↦ ("deny_remove", a) := by
    have hevent : (Event.change ∘ Event.denyRemove : Address → Option (Change Address)) =
        fun a ↦ some ("deny_remove", a) := rfl
    rw [changes, hannounced, List.filterMap_map, hevent, List.filterMap_eq_map']
  rw [recordedChanges, hcalls, hchanges, List.length_map]
  simpa [List.length_pos_iff] using hne

/-! ### The trail of a stretch of a run -/

/-- **When the audit trail is complete.** Over every stretch of a run in which an audit log is
configured whenever something is called, and whatever the log answers, the trail is complete if and
only if no address is removed in a batch. -/
theorem auditComplete_iff (before during : List (Input Address))
    (hconfigured : ∀ e ∈ (system.startingAt (system.final before)).history during,
      e.pre.auditLog.isSome = true) :
    AuditComplete ((system.startingAt (system.final before)).history during) ↔
      ∀ e ∈ (system.startingAt (system.final before)).history during, ¬RemovesBatch e := by
  have haudited : ∀ e ∈ (system.startingAt (system.final before)).history during,
      ¬RemovesBatch e → Audited e := by
    intro e he hbatch
    have hlog := hconfigured e he
    rw [System.eq_stepFrom_of_mem_history _ he] at hbatch ⊢
    exact audited_of_not_removesBatch hlog hbatch
  constructor
  · -- a batch removal announces more than it records, and no other step records more
    intro hcomplete e he hbatch
    have hle : ∀ e ∈ ((system.startingAt (system.final before)).history during).reverse,
        (recordedChanges e).length ≤ (changes e).length := by
      intro e he
      rw [List.mem_reverse] at he
      by_cases hb : RemovesBatch e
      · rw [System.eq_stepFrom_of_mem_history _ he] at hb ⊢
        exact (lt_of_removesBatch hb).le
      · rw [(haudited e he hb).matched]
    have hlt : (recordedChanges e).length < (changes e).length := by
      rw [System.eq_stepFrom_of_mem_history _ he] at hbatch ⊢
      exact lt_of_removesBatch hbatch
    have hsum := List.sum_lt_sum _ _ hle ⟨e, List.mem_reverse.2 he, hlt⟩
    have hlength := congrArg List.length hcomplete.matched
    rw [List.length_flatMap, List.length_flatMap] at hlength
    exact hsum.ne' hlength
  · intro hbatch
    constructor
    · exact List.flatMap_congr fun e he ↦
        (haudited e (List.mem_reverse.1 he) (hbatch e (List.mem_reverse.1 he))).matched
    · exact List.flatMap_congr fun e he ↦
        (haudited e (List.mem_reverse.1 he) (hbatch e (List.mem_reverse.1 he))).surfaced

/-- A host which grants every authorization and whose audit log refuses every call. -/
def Env.refusing : Env ℕ where
  sequence := 1
  timestamp := 0
  auths := fun _ ↦ true
  auditAnswer := fun _ ↦ false

/-- An administrator, and an audit log. -/
def auditedSetup : List (Input ℕ) :=
  [⟨.granting, .setAuditLog 0 9⟩, ⟨.granting, .initialise 0⟩]

/-- One addition, recorded, and one removal, refused and surfaced. -/
def singleEdits : List (Input ℕ) :=
  [⟨.refusing, .removeFromDenylist 0 5⟩, ⟨.granting, .addToDenylist 0 5⟩]

theorem auditComplete_singleEdits :
    AuditComplete ((system.startingAt (system.final auditedSetup)).history singleEdits) := by
  refine (auditComplete_iff auditedSetup singleEdits (by decide)).2 ?_
  rintro e he ⟨admin, addresses, hcall, -⟩
  simp only [singleEdits, System.history_cons, System.history_nil, List.mem_cons,
    List.not_mem_nil, or_false] at he
  rcases he with rfl | rfl <;> cases hcall

/-- An address on the denylist, and a batch that removes it. -/
def batchEdit : List (Input ℕ) :=
  [⟨.granting, .removeMultipleFromDenylist 0 [5]⟩, ⟨.granting, .addToDenylist 0 5⟩]

/-- The removal is announced, and the log is never called for it. -/
theorem not_auditComplete_batchEdit :
    (∀ e ∈ (system.startingAt (system.final auditedSetup)).history batchEdit,
        e.pre.auditLog.isSome = true ∧ e.post.auditLog.isSome = true) ∧
      ¬AuditComplete ((system.startingAt (system.final auditedSetup)).history batchEdit) :=
  ⟨by decide, fun h ↦ absurd h.matched (by decide)⟩

end

end DenylistGate
