import CompliancePrimitives.Contracts.AuditLog.Model

/-!
# `audit-log`: the trail

What the log holds is what was recorded: the completed `record` calls, first to last, each with the
ledger it was made in. The invariant is that the counter and the table stand for exactly that list
(`trail_final`). It needs to know that nothing is recorded before the log is initialized, since
`initialize` sets the counter back to zero.

What can be said of the trail follows from the list, since the past of a run is known: entries are
never changed or removed and keep their order, an entry names a source that authorized it and the
ledger of its call, and no ledger in it is before an earlier one. Nobody but the one who authorizes
as the source can have an entry made in his name, the admin of the log included
(`trail_appendOnly`).
-/

namespace AuditLog

open Soroban

variable {Address : Type}

/-- One step of a run. -/
abbrev Moment (Address : Type) := Step (State Address) (Input Address) (Except (Failure Error) Unit)

/-- The entry a call asks for. -/
def Input.entry (i : Input Address) : Option (LogEntry Address) :=
  match i.call with
  | .record source kind subject detail =>
    some { source, kind, subject, detail, ledger := i.env.sequence }
  | _ => none

/-- The entry a step adds: a call that fails adds none. -/
def entryOf (e : Moment Address) : Option (LogEntry Address) :=
  match e.result with
  | .ok _ => e.input.entry
  | .error _ => none

/-- **What was recorded**, first to last. -/
def recorded (h : List (Moment Address)) : List (LogEntry Address) := h.reverse.filterMap entryOf

theorem recorded_cons (e : Moment Address) (h : List (Moment Address)) :
    recorded (e :: h) = recorded h ++ (entryOf e).toList := by
  rw [recorded, List.reverse_cons, List.filterMap_append]
  cases hentry : entryOf e <;> simp [recorded, hentry]

section

variable [DecidableEq Address] {env : Env Address} {s s' : State Address} {call : Call Address}
  {u : Unit}

/-! ### When a call completes -/

omit [DecidableEq Address] in
@[simp]
theorem publish_eq_ok_iff {e : Event Address} :
    publish e s = .ok (u, s') ↔ s' = { s with events := s.events ++ [e] } :=
  Tx.modify_eq_ok_iff

omit [DecidableEq Address] in
theorem initialise_eq_ok_iff {admin : Address} :
    initialise env admin s = .ok (u, s') ↔
      s.admin = none ∧ env.auths admin = true ∧
        s' = { s with admin := some admin, entryCount := some 0 } := by
  simp [initialise]

theorem pause_eq_ok_iff {admin : Address} :
    pause env admin s = .ok (u, s') ↔
      env.auths admin = true ∧ s.admin = some admin ∧
        s' = { s with pausable := Pausable.pause env s.pausable,
                      events := s.events ++ [.paused admin] } := by
  simp [pause, requireAdmin, and_assoc]

theorem unpause_eq_ok_iff {admin : Address} :
    unpause env admin s = .ok (u, s') ↔
      env.auths admin = true ∧ s.admin = some admin ∧
        s' = { s with pausable := Pausable.unpause s.pausable,
                      events := s.events ++ [.unpaused admin] } := by
  simp [unpause, requireAdmin, and_assoc]

theorem upgrade_eq_ok_iff {admin : Address} {newWasmHash : Bytes32} :
    upgrade env admin newWasmHash s = .ok (u, s') ↔
      env.auths admin = true ∧ s.admin = some admin ∧
        s' = { s with events := s.events ++ [.upgradePerformed admin newWasmHash],
                      installed := s.installed ++ [newWasmHash] } := by
  simp [upgrade, requireAdmin, and_assoc]

omit [DecidableEq Address] in
/-- A log that is full takes no more records. -/
theorem record_eq_ok_iff {source subject : Address} {kind : Symbol} {detail : Bytes} :
    record env source kind subject detail s = .ok (u, s') ↔
      isPaused s = false ∧ s.admin.isSome = true ∧ detail.length ≤ maxDetailLen ∧
        env.auths source = true ∧ entryCount s + 1 ≤ u64Max ∧
        s' = { s with
          entries := Function.update s.entries (entryCount s)
            (some { source, kind, subject, detail, ledger := env.sequence })
          entryCount := some (entryCount s + 1)
          events := s.events ++ [.complianceEvent kind subject source detail] } := by
  simp [record, isPaused, entryCount, and_assoc]

/-! ### What a call does to the log -/

/-- **What a completed call does to the log.** -/
inductive LogStep (i : Input Address) (s s' : State Address) : Prop
  /-- `initialize`, once. The log is empty before and after. -/
  | founded (hentry : i.entry = none) (hnone : s.admin = none) (hadmin : s'.admin.isSome = true)
      (hcount : entryCount s' = 0) (hentries : s'.entries = s.entries)
  /-- `record`, with the authority of the source it names: one entry, behind the others. -/
  | appended (entry : LogEntry Address) (hentry : i.entry = some entry)
      (hauth : i.env.auths entry.source = true) (hsome : s.admin.isSome = true)
      (hadmin : s'.admin = s.admin) (hcount : entryCount s' = entryCount s + 1)
      (hentries : s'.entries = Function.update s.entries (entryCount s) (some entry))
  /-- Every other call leaves the log alone. -/
  | kept (hentry : i.entry = none) (hadmin : s'.admin = s.admin)
      (hcount : entryCount s' = entryCount s) (hentries : s'.entries = s.entries)

/-- **Every completed call is such a step.** -/
theorem invoke_logStep (h : invoke env call s = .ok (u, s')) : LogStep ⟨env, call⟩ s s' := by
  cases call with
  | initialise admin =>
    obtain ⟨hnone, -, rfl⟩ := initialise_eq_ok_iff.1 h
    exact .founded rfl hnone rfl rfl rfl
  | pause admin =>
    obtain ⟨-, -, rfl⟩ := pause_eq_ok_iff.1 h
    exact .kept rfl rfl rfl rfl
  | unpause admin =>
    obtain ⟨-, -, rfl⟩ := unpause_eq_ok_iff.1 h
    exact .kept rfl rfl rfl rfl
  | upgrade admin newWasmHash =>
    obtain ⟨-, -, rfl⟩ := upgrade_eq_ok_iff.1 h
    exact .kept rfl rfl rfl rfl
  | record source kind subject detail =>
    obtain ⟨-, hsome, -, hauth, -, rfl⟩ := record_eq_ok_iff.1 h
    exact .appended _ rfl hauth hsome rfl rfl rfl

/-- **The counter and the table stand for what was recorded**, which is nothing before the log is
initialized. -/
structure Trail (h : List (Moment Address)) (s : State Address) : Prop where
  /-- What `record` was told, in order, is what the counter and the slots stand for. -/
  holds : CountedLog.Holds (entryCount s) s.entries (recorded h)
  /-- Nothing is recorded before there is an admin. -/
  uninitialized : s.admin = none → recorded h = []

omit [DecidableEq Address] in
/-- A step that adds no entry keeps the trail if it leaves the log alone. -/
theorem Trail.keep {e : Moment Address} {h : List (Moment Address)} (hs : Trail h s)
    (he : entryOf e = none) (hadmin : s'.admin = s.admin) (hcount : entryCount s' = entryCount s)
    (hentries : s'.entries = s.entries) : Trail (e :: h) s' := by
  have hsame : recorded (e :: h) = recorded h := by
    rw [recorded_cons, he, Option.toList_none, List.append_nil]
  refine ⟨?_, fun hnone ↦ ?_⟩
  · rw [hcount, hentries, hsame]
    exact hs.holds
  · rw [hsame]
    exact hs.uninitialized (hadmin ▸ hnone)

omit [DecidableEq Address] in
/-- A completed call keeps the trail. -/
theorem LogStep.trail {i : Input Address} {e : Moment Address} {h : List (Moment Address)}
    (hstep : LogStep i s s') (hs : Trail h s) (he : entryOf e = i.entry) : Trail (e :: h) s' := by
  cases hstep with
  | founded hentry hnone hadmin hcount hentries =>
    -- the counter is set back to what it is
    have hzero : entryCount s = 0 := by
      rw [hs.holds.count, hs.uninitialized hnone, List.length_nil]
    have hkept : Trail (e :: h) s :=
      hs.keep (he.trans hentry) rfl rfl rfl
    refine ⟨?_, fun hnone' ↦ ?_⟩
    · rw [hcount, hentries, ← hzero]
      exact hkept.holds
    · rw [hnone'] at hadmin
      cases hadmin
  | appended entry hentry _ hsome hadmin hcount hentries =>
    have hnew : recorded (e :: h) = recorded h ++ [entry] := by
      rw [recorded_cons, he, hentry]
      rfl
    refine ⟨?_, fun hnone ↦ ?_⟩
    · rw [hcount, hentries, hnew]
      exact hs.holds.append entry
    · rw [← hadmin, hnone] at hsome
      cases hsome
  | kept hentry hadmin hcount hentries =>
    exact hs.keep (he.trans hentry) hadmin hcount hentries

/-- An invocation of a run adds the entry it asks for, with its source's authorization, or none. -/
theorem exec_logStep (i : Input Address) (s : State Address) :
    (entryOf (system.stepFrom s i) = i.entry ∧ LogStep i s (system.exec i s).2) ∨
      entryOf (system.stepFrom s i) = none ∧ (system.exec i s).2 = s := by
  rcases Tx.commit_answer (invoke i.env i.call) s with ⟨_, hok, hrun⟩ | ⟨⟨f, hfail⟩, hpost⟩
  · have hresult : (system.stepFrom s i).result = .ok () := hok
    rw [entryOf, hresult]
    exact .inl ⟨rfl, invoke_logStep hrun⟩
  · have hresult : (system.stepFrom s i).result = .error f := hfail
    rw [entryOf, hresult]
    exact .inr ⟨rfl, hpost⟩

/-- **The log holds what was recorded**, in every state of a run. -/
theorem trail_final (inputs : List (Input Address)) :
    Trail (system.history inputs) (system.final inputs) := by
  refine system.history_induction (P := Trail) ⟨CountedLog.holds_nil, fun _ ↦ rfl⟩
    (fun h s i hs ↦ ?_) inputs
  rcases exec_logStep i s with ⟨hentry, hstep⟩ | ⟨hnone, hpost⟩
  · exact hstep.trail hs hentry
  · rw [hpost]
    exact hs.keep hnone rfl rfl rfl

/-- Whatever is added was authorized by its source. -/
theorem auths_of_entryOf {i : Input Address} {entry : LogEntry Address}
    (h : entryOf (system.stepFrom s i) = some entry) : i.env.auths entry.source = true := by
  rcases exec_logStep i s with ⟨hentry, hstep⟩ | ⟨hnone, -⟩
  · cases hstep with
    | founded hno | kept hno => cases (hentry.symm.trans h).symm.trans hno
    | appended entry' hasked hauth =>
      obtain rfl : entry' = entry := Option.some.inj (hasked.symm.trans (hentry.symm.trans h))
      exact hauth
  · cases hnone.symm.trans h

omit [DecidableEq Address] in
/-- The ledger of an entry is the one its step was made in. -/
theorem ledger_of_entryOf {e : Moment Address} {entry : LogEntry Address}
    (h : entryOf e = some entry) : entry.ledger = e.input.env.sequence := by
  unfold entryOf at h
  split at h
  · unfold Input.entry at h
    split at h
    · cases h
      rfl
    · cases h
  · cases h

/-- A page of the log is a segment of what was recorded. -/
theorem listEntries_final (inputs : List (Input Address)) {start limit : ℕ}
    (hlimit : limit ≤ maxPageSize) :
    listEntries (system.final inputs) start limit =
      .ok (((recorded (system.history inputs)).drop start).take limit) := by
  rw [listEntries, if_neg (not_lt.2 hlimit)]
  exact congrArg Except.ok ((trail_final inputs).holds.scan limit start)

/-- `get_entries` never fails: it reads a shorter page. -/
theorem getEntries_final (inputs : List (Input Address)) (start count : ℕ) :
    getEntries (system.final inputs) start count =
      ((recorded (system.history inputs)).drop start).take (min count maxPageSize) := by
  rw [getEntries, listEntries_final inputs (min_le_right count maxPageSize)]
  rfl

/-- What was recorded comes first in what is recorded later. -/
theorem recorded_append (later inputs : List (Input Address)) :
    recorded (system.history inputs) <+: recorded (system.history (later ++ inputs)) :=
  (List.reverse_prefix.2 (system.history_suffix (List.suffix_append later inputs))).filterMap _

/-- A run in which time does not go backwards. -/
def Chronological (inputs : List (Input Address)) : Prop :=
  inputs.Pairwise fun later earlier ↦ earlier.env.sequence ≤ later.env.sequence

/-- The entries of such a run are in the order of their ledgers. -/
theorem pairwise_ledger {inputs : List (Input Address)} (h : Chronological inputs) :
    (recorded (system.history inputs)).Pairwise fun a b ↦ a.ledger ≤ b.ledger := by
  have hhistory : (system.history inputs).Pairwise fun later earlier ↦
      earlier.input.env.sequence ≤ later.input.env.sequence := by
    rw [← system.map_input_history inputs, Chronological, List.pairwise_map] at h
    exact h
  refine List.Pairwise.filterMap _ (fun a b hab a' ha' b' hb' ↦ ?_)
    (List.pairwise_reverse.2 hhistory)
  rw [ledger_of_entryOf ha', ledger_of_entryOf hb']
  exact hab

/-- **The log is append-only, and without gaps.** -/
theorem trail_appendOnly (inputs : List (Input Address)) :
    entryCount (system.final inputs) = (recorded (system.history inputs)).length ∧
      (∀ i, getEntry (system.final inputs) i = (recorded (system.history inputs))[i]?) ∧
      (∀ later i, i < entryCount (system.final inputs) →
        getEntry (system.final (later ++ inputs)) i = getEntry (system.final inputs) i) ∧
      (Chronological inputs → ∀ i j a b, i ≤ j → getEntry (system.final inputs) i = some a →
        getEntry (system.final inputs) j = some b → a.ledger ≤ b.ledger) ∧
      ∀ e ∈ system.history inputs, ∀ entry, entryOf e = some entry →
        e.input.env.auths entry.source = true := by
  have hholds := (trail_final inputs).holds
  refine ⟨hholds.count, hholds.slot, fun later i hi ↦ ?_, fun htime i j a b hij ha hb ↦ ?_,
    fun e he entry hentry ↦ ?_⟩
  · exact hholds.slot_of_prefix (trail_final (later ++ inputs)).holds
      (recorded_append later inputs) hi
  · exact hholds.rel_of_pairwise (pairwise_ledger htime) (fun a ↦ le_refl a.ledger) hij ha hb
  · obtain ⟨before, hstep, -⟩ := system.exists_of_mem_history he
    rw [hstep] at hentry
    exact auths_of_entryOf hentry

end

end AuditLog
