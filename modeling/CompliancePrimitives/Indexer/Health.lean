import CompliancePrimitives.Indexer.ProcessRuns

/-!
# What the health server reports

The health server has one slot, the time of the last poll of the timer loop that resolved, and reads
the checkpoint of the database when it is asked. Over a run, the slot is what the past of the
present process says (`lastPollAt_final`), so that `/health` and the time in `/status` are about
**this** process, while the ledger in `/status` is about the database and survives it
(`health_reports`).

A poll that resolves need not have indexed anything: one that is told of a ledger below the
checkpoint resolves as well. Polls made by `pollOnce` do not fill the slot, whatever they do.

The two of them fit together where polls are made one at a time: what `/status` reports as the last
indexed ledger is the checkpoint of the database at that moment, and it does not fall from one
report to the next, through any restarts (`Sound.checkpoint_le`).
-/

namespace Indexer

/-- The process is another from here on. -/
def Restarted (e : Step Process Occurrence (Option PollResult)) : Prop :=
  match e.input.happening with
  | .restart _ => True
  | _ => False

/-- A poll that `tick` has started resolves. -/
def Ticked (e : Step Process Occurrence (Option PollResult)) : Prop :=
  (∃ stopped, e.result = some (.resolved stopped)) ∧
    match e.input.happening with
    | .pollOnce => False
    | .answer flight _ => ∃ f ∈ e.pre.flights[flight]?, f.ticking = true
    | _ => True

open Classical in
/-- **When a poll of the timer loop last resolved** in the present process. -/
noncomputable def lastTicked : List (Step Process Occurrence (Option PollResult)) → Option ℕ
  | [] => none
  | e :: h =>
    if Restarted e then none else if Ticked e then some e.input.now else lastTicked h

theorem lastTicked_ne_none_iff (h : List (Step Process Occurrence (Option PollResult))) :
    lastTicked h ≠ none ↔ Since Restarted Ticked h := by
  induction h with
  | nil => exact iff_of_false (absurd rfl) id
  | cons e h ih =>
    rw [since_cons, ← ih, lastTicked]
    split_ifs <;> simp_all

section

variable {config : Config} {chain : Chain} {allowed : Config → Prop} {p : Process} {t : Transcript}

open Classical in
theorem lastPollAt_settle (p : Process) (result : PollResult) (ticking : Bool) (now : ℕ) :
    (p.settle result ticking now).lastPollAt =
      if ticking = true ∧ ∃ stopped, result = .resolved stopped then some now
      else p.lastPollAt := by
  simp only [Process.settle, Process.schedule]
  cases result <;> split_ifs <;> simp_all

open Classical in
theorem lastPollAt_launch (p : Process) (ticking : Bool) (now : ℕ) :
    (p.launch ticking now).2.lastPollAt =
      if ticking = true ∧ ∃ stopped, (p.launch ticking now).1 = some (.resolved stopped) then
        some now
      else p.lastPollAt := by
  rcases hbegin : beginPoll p.config p.db.getLastIndexedLedger with awaiting | result
  · simp [Process.launch, hbegin]
  · simp only [Process.launch, hbegin, lastPollAt_settle, Option.some.injEq]

open Classical in
/-- **One occurrence, to the health server.** -/
theorem lastPollAt_exec (config : Config) (chain : Chain) (p : Process) (o : Occurrence) :
    (Process.exec chain o p).2.lastPollAt =
      if Restarted ((process config chain).stepFrom p o) then none
      else if Ticked ((process config chain).stepFrom p o) then some o.now
      else p.lastPollAt := by
  obtain ⟨now, happening⟩ := o
  cases happening with
  | start =>
    have hticked : Ticked ((process config chain).stepFrom p ⟨now, .start⟩) ↔
        ∃ stopped, (p.start now).1 = some (.resolved stopped) := and_iff_left trivial
    rw [if_neg (show ¬Restarted ((process config chain).stepFrom p ⟨now, .start⟩) from id)]
    simp only [hticked]
    show (p.start now).2.lastPollAt = _
    unfold Process.start
    split_ifs with hrunning hstopped hstopped
    · simp at hstopped
    · rfl
    · simp [lastPollAt_launch, hstopped]
    · simp [lastPollAt_launch, hstopped]
  | stop => simp [Process.exec, Process.stop, Restarted, Ticked, process]
  | pollOnce =>
    have hticked : ¬Ticked ((process config chain).stepFrom p ⟨now, .pollOnce⟩) := fun h ↦ h.2
    rw [if_neg (show ¬Restarted ((process config chain).stepFrom p ⟨now, .pollOnce⟩) from id),
      if_neg hticked]
    exact (lastPollAt_launch p false now).trans (by simp)
  | timeout timer =>
    have hticked : Ticked ((process config chain).stepFrom p ⟨now, .timeout timer⟩) ↔
        ∃ stopped, (p.timeout now timer).1 = some (.resolved stopped) := and_iff_left trivial
    rw [if_neg (show ¬Restarted ((process config chain).stepFrom p ⟨now, .timeout timer⟩) from id)]
    simp only [hticked]
    show (p.timeout now timer).2.lastPollAt = _
    unfold Process.timeout
    split_ifs with htimer hstopped hstopped
    · simp [lastPollAt_launch, hstopped]
    · simp [lastPollAt_launch, hstopped]
    · simp at hstopped
    · rfl
  | answer i reply =>
    have hticked : Ticked ((process config chain).stepFrom p ⟨now, .answer i reply⟩) ↔
        (∃ stopped, (p.answer chain now i reply).1 = some (.resolved stopped)) ∧
          ∃ f ∈ p.flights[i]?, f.ticking = true := Iff.rfl
    rw [if_neg (show ¬Restarted ((process config chain).stepFrom p ⟨now, .answer i reply⟩) from id)]
    simp only [hticked]
    show (p.answer chain now i reply).2.lastPollAt = _
    rcases hflight : p.flights[i]? with _ | f
    · simp [Process.answer, hflight]
    -- the poll that is answered goes on, or ends
    rcases hresume : f.resume p.config chain reply p.db with ⟨awaiting | result, db⟩
    · simp [Process.answer, hflight, hresume]
    · simp [Process.answer, hflight, hresume, lastPollAt_settle, and_comm]
  | restart config' => simp [Process.exec, Process.boot, Restarted]

/-- The checkpoint does not go back. -/
theorem Sound.checkpoint_le (h : Sound chain False allowed t p) (o : Occurrence) :
    p.db.getLastIndexedLedger ≤ (Process.exec chain o p).2.db.getLastIndexedLedger := by
  obtain ⟨now, happening⟩ := o
  cases happening with
  | start =>
    simp only [Process.exec, Process.start]
    split_ifs
    · exact le_rfl
    · rw [launch_db]
  | stop => exact le_rfl
  | pollOnce => simp only [Process.exec, Process.pollOnce, launch_db, le_refl]
  | timeout timer =>
    simp only [Process.exec, Process.timeout]
    split_ifs
    · rw [launch_db]
    · exact le_rfl
  | answer i reply =>
    show _ ≤ (p.answer chain now i reply).2.db.getLastIndexedLedger
    rcases h.answer_cases now i reply False.elim with ⟨-, hnobody⟩ | ⟨flight, hflying, -,
      ⟨awaiting, db, hanswer, hstanding⟩ | ⟨result, db, hanswer, hpoll, -⟩⟩
    · rw [hnobody]
    · rw [hanswer]
      exact (congrArg (Option.getD · 0)
        (hflying.standing.lastLedger_eq.trans hstanding.lastLedger_eq.symm)).le
    -- the last answer of a poll: it is one whole poll on the database of its beginning
    · rw [hanswer, (settle_spec _ _ _ _).2.1]
      have hkept : p.db.getLastIndexedLedger =
          ((operated chain).final t.polls).getLastIndexedLedger :=
        congrArg (Option.getD · 0) hflying.standing.lastLedger_eq
      have hgrows := (poll_checkpoint (p.pollOf (t.heard ++ [reply])).1 chain
        (p.pollOf (t.heard ++ [reply])).2 ((operated chain).final t.polls)).1
      rw [hpoll] at hgrows
      exact hkept.trans_le hgrows
  | restart config => exact le_rfl

end

/-- **The slot is the past of the present process.** -/
theorem lastPollAt_final (config : Config) (chain : Chain) (inputs : List Occurrence) :
    ((process config chain).final inputs).lastPollAt =
      lastTicked ((process config chain).history inputs) := by
  induction inputs with
  | nil => rfl
  | cons o inputs ih =>
    rw [System.history_cons, lastTicked, ← ih]
    exact lastPollAt_exec config chain _ o

theorem checkpoint_mono (config : Config) (chain : Chain) (earlier later : List Occurrence)
    (halone : ∀ e ∈ (process config chain).history (later ++ earlier), Alone e) :
    ((process config chain).final earlier).db.getLastIndexedLedger ≤
      ((process config chain).final (later ++ earlier)).db.getLastIndexedLedger := by
  induction later with
  | nil => exact le_rfl
  | cons o later ih =>
    rw [List.cons_append, System.history_cons, List.forall_mem_cons] at halone
    have hsound := sound_final config chain False (fun _ ↦ True) (later ++ earlier) trivial
      (fun _ _ _ _ ↦ trivial) fun e he ↦ ⟨halone.2 e he, False.elim⟩
    exact (ih halone.2).trans (hsound.checkpoint_le o)

/-- **What the health server reports.** In every run, `/health` answers 200 exactly if a poll of the
timer loop has resolved since the present process was started, and `/status` reports just that, when
it last happened, and the checkpoint of the database, if that is not zero. As long as no poll is
started beside another, the ledger that it reports does not go back, whatever fails and whenever a
process ends. -/
theorem health_reports (config : Config) (chain : Chain) (inputs : List Occurrence) :
    let p := (process config chain).final inputs
    (p.health = 200 ↔ Since Restarted Ticked ((process config chain).history inputs)) ∧
      (∀ now, p.status now =
        { ok := decide (p.health = 200)
          lastIndexedLedger := p.db.lastLedger.filter (0 < ·)
          lastPollAt := lastTicked ((process config chain).history inputs)
          now := now }) ∧
      ((∀ e ∈ (process config chain).history inputs, Alone e) →
        ∀ earlier, earlier <:+ inputs → ∀ now now',
          ∀ l ∈ (((process config chain).final earlier).status now).lastIndexedLedger,
            ∃ l' ∈ (p.status now').lastIndexedLedger, l ≤ l') := by
  intro p
  have hpolled : p.lastPollAt = lastTicked ((process config chain).history inputs) :=
    lastPollAt_final config chain inputs
  have hhealth : p.health = 200 ↔ p.lastPollAt ≠ none := by
    rw [Process.health]
    split_ifs with hready
    · exact iff_of_true rfl hready
    · exact iff_of_false (by decide) hready
  refine ⟨?_, fun now ↦ ?_, ?_⟩
  · rw [hhealth, hpolled, lastTicked_ne_none_iff]
  · rw [Process.status, ← hpolled]
    congr 1
    · exact decide_eq_decide.2 hhealth.symm
    · rw [ComplianceDb.getLastIndexedLedger]
      cases p.db.lastLedger <;> simp [Option.filter]
  · rintro halone earlier ⟨later, rfl⟩ now now' l hl
    have hmono := checkpoint_mono config chain earlier later halone
    simp only [Process.status, Option.mem_ite_none_right, Option.mem_some_iff] at hl ⊢
    obtain ⟨hpos, rfl⟩ := hl
    exact ⟨_, ⟨hpos.trans_le hmono, rfl⟩, hmono⟩

/-- After the backfill, `/status` has its last ledger and the time of the poll that ended it. -/
theorem health_reports_interruptedBackfill :
    ((process backfillConfig shortChain).final interruptedBackfill).health = 200 ∧
      (((process backfillConfig shortChain).final
        interruptedBackfill).status 70).lastIndexedLedger = some 5 := by
  obtain ⟨hhealth, hstatus, -⟩ := health_reports backfillConfig shortChain interruptedBackfill
  -- the poll in flight is one of the timer loop, and the last answer resolves it
  have hflight : (((process backfillConfig shortChain).final
      interruptedBackfill.tail).flights[0]?.map Flight.ticking) = some true := by decide +kernel
  obtain ⟨f, hf, hticking⟩ := Option.map_eq_some_iff.1 hflight
  have hnow : Ticked ((process backfillConfig shortChain).stepFrom
      ((process backfillConfig shortChain).final interruptedBackfill.tail)
      ⟨60, .answer 0 (some 9)⟩) := ⟨⟨true, by decide +kernel⟩, f, hf, hticking⟩
  refine ⟨hhealth.2 ⟨id, .inl hnow⟩, ?_⟩
  rw [hstatus]
  decide +kernel

end Indexer
