import CompliancePrimitives.Indexer.Pagination

/-!
# One row for each event

Rows of the `events` table have no key, so nothing in the database keeps an event from being
inserted twice. `OneRowEach` is what a reader of the tables counts on: the rows stand for events of
the chain one by one, and so do the rows of the audit log.

Within one poll this holds because pages do not overlap. Between polls it rests on the checkpoint:
the next poll starts behind it. But pages are committed one by one and the checkpoint only at the
end, so a poll that stops in between leaves rows beyond its checkpoint, and the next poll reads
their events again. A poll is `Unread` when no row in the table is from a ledger the poll covers, a
condition on the server's answers and the table before; in a run of such polls every event has at
most one row (`oneRowEach_of_unread`), and a poll that is not can write all rows of a page a second
time (`retry_duplicates_events`).
-/

namespace Indexer

/-- **At most one row for each event**, and at most one audit row for each compliance event. -/
def OneRowEach (config : Config) (chain : Chain) (db : ComplianceDb) : Prop :=
  db.events.Subperm ((chain.watched config.contractIds).filterMap decodeEvent) ∧
    db.auditLog.Subperm
      (((chain.watched config.contractIds).filterMap decodeEvent).filterMap ComplianceDb.auditRow)

/-- The ledgers a poll covers: from where it starts to its target, as far as any of its pages is
reported to reach. -/
def covers (startLedger targetLedger : ℕ) (pages : List (Option ℕ)) (ledger : ℕ) : Bool :=
  decide (startLedger ≤ ledger ∧ ledger ≤ targetLedger) &&
    pages.any fun answer ↦ answer.any fun latestLedger ↦ decide (ledger ≤ latestLedger)

/-- **A poll that reads nothing again**: no row in the table is from a ledger it covers. -/
def Unread (config : Config) (rpc : RpcAnswers) (db : ComplianceDb) : Prop :=
  ∀ startLedger latest, startLedgerOf config rpc db.getLastIndexedLedger = some startLedger →
    rpc.latest = some latest →
    ∀ row ∈ db.events,
      covers startLedger (targetLedgerOf config latest) rpc.pages row.ledgerSequence = false

/-- The invariant of a run: the rows stand for events one by one, and the audit log is what these
rows have to say to it. -/
structure RowsStand (config : Config) (chain : Chain) (db : ComplianceDb) : Prop where
  /-- No row is there more often than its event. -/
  events_subperm : db.events.Subperm ((chain.watched config.contractIds).filterMap decodeEvent)
  /-- The audit rows are those of the rows, in their order. -/
  auditLog_eq : db.auditLog = db.events.filterMap ComplianceDb.auditRow

section

variable {config : Config} {chain : Chain} {rpc : RpcAnswers} {db db' : ComplianceDb}
  {startLedger latest : ℕ} {new left : List RawSorobanEvent}

/-- What a poll accepts lies in the ledgers it covers. -/
theorem PollStep.rows_sublist (h : PollStep config chain rpc db db' startLedger latest new left) :
    (rowsThrough (targetLedgerOf config latest) new).Sublist
      (((chain.watched config.contractIds).filter fun e ↦
        covers startLedger (targetLedgerOf config latest) rpc.pages e.ledger).filterMap
          decodeEvent) := by
  have hcovers : ∀ e ∈ new, decide (e.ledger ≤ targetLedgerOf config latest) =
      covers startLedger (targetLedgerOf config latest) rpc.pages e.ledger := by
    intro e he
    have hstart : startLedger ≤ e.ledger := by
      refine startLedger_le_of_mem_watchedFrom chain config.contractIds startLedger ?_
      rw [h.log_eq]
      exact List.mem_append_left _ he
    obtain ⟨latestLedger, hmem, hle⟩ := h.reported e he
    have hreported : (rpc.pages.any fun answer ↦ answer.any fun latestLedger ↦
        decide (e.ledger ≤ latestLedger)) = true :=
      List.any_eq_true.2 ⟨_, hmem, by simpa using hle⟩
    rw [covers, hreported, Bool.and_true]
    simp [hstart]
  rw [rowsThrough, List.filter_congr hcovers]
  refine List.Sublist.filterMap _ (List.Sublist.filter _ ?_)
  refine List.Sublist.trans ?_ (List.filter_sublist (p := fun e ↦ decide (startLedger ≤ e.ledger)))
  rw [← Chain.watchedFrom, h.log_eq]
  exact List.sublist_append_left _ _

/-- **One poll that reads nothing again adds at most one row for each event.** -/
theorem RowsStand.poll (h : RowsStand config chain db) (hunread : Unread config rpc db) :
    RowsStand config chain (poll config chain rpc db).2 := by
  rcases poll_cases config chain rpc db with hsame | ⟨startLedger, latest, new, left, hstep⟩
  · rw [hsame]
    exact h
  refine ⟨?_, ?_⟩
  · rw [hstep.events_eq]
    refine PagedLog.subperm_append_of_span (fun e _ row hrow ↦ ?_) h.events_subperm
      (hunread startLedger latest hstep.start_eq hstep.latest_eq) hstep.rows_sublist.subperm
    rw [decodeEvent_ledgerSequence hrow]
  · rw [hstep.auditLog_eq, hstep.events_eq, List.filterMap_append, h.auditLog_eq]

theorem RowsStand.oneRowEach (h : RowsStand config chain db) : OneRowEach config chain db := by
  refine ⟨h.events_subperm, ?_⟩
  rw [h.auditLog_eq]
  obtain ⟨rows, hperm, hsub⟩ := h.events_subperm
  exact ((hperm.filterMap _).symm.subperm).trans (hsub.filterMap _).subperm

end

/-- **At most one row for each event.** In a run of polls that read nothing again, the rows of the
`events` table stand for the events of the chain one by one, and those of the audit log for its
compliance events. -/
theorem oneRowEach_of_unread (config : Config) (chain : Chain) (inputs : List RpcAnswers)
    (hrun : ∀ step ∈ (system config chain).history inputs, Unread config step.input step.pre) :
    OneRowEach config chain ((system config chain).final inputs) := by
  refine RowsStand.oneRowEach ?_
  induction inputs with
  | nil => exact ⟨List.nil_subperm, rfl⟩
  | cons rpc inputs ih =>
    obtain ⟨hnow, hbefore⟩ := List.forall_mem_cons.1 hrun
    exact (ih hbefore).poll hnow

/-- A poll behind the checkpoint of the one before reads nothing again. -/
theorem oneRowEach_of_checkpoint :
    OneRowEach breakerConfig frozenChain
      ((system breakerConfig frozenChain).final
        [⟨none, some 20, [some 20]⟩, ⟨none, some 10, [some 10, some 5]⟩]) := by
  refine oneRowEach_of_unread breakerConfig frozenChain
    [⟨none, some 20, [some 20]⟩, ⟨none, some 10, [some 10, some 5]⟩] ?_
  have hpre : (system breakerConfig frozenChain).final [⟨none, some 10, [some 10, some 5]⟩] =
      (ComplianceDb.fresh.applyEvents (decodePage 1 10 10 frozenPage)).setLastIndexedLedger 10 :=
    poll_regressed
  rw [System.history_cons, hpre]
  refine List.forall_mem_cons.2 ⟨?_, List.forall_mem_cons.2 ⟨?_, by simp⟩⟩
  · rintro startLedger latest hstart - row hrow
    obtain rfl : 11 = startLedger := Option.some.inj hstart
    have hmem : row ∈ decodePage 1 10 10 frozenPage := by
      rwa [System.stepFrom_pre, ComplianceDb.events_setLastIndexedLedger,
        (ComplianceDb.applyEvents_spec _ ComplianceDb.fresh).1, ComplianceDb.events_fresh,
        List.nil_append] at hrow
    rw [ledgerSequence_of_mem_decodePage_frozenPage hmem]
    rfl
  · rintro startLedger latest - - row hrow
    cases hrow

/-! ### A poll that is retried -/

/-- Each event of the first page has a row. -/
theorem length_decodePage_frozenPage : (decodePage 1 10 10 frozenPage).length = 200 := by
  have hall : frozenPage.filter (fun e ↦ decide (1 ≤ e.ledger ∧ e.ledger ≤ 10 ∧ e.ledger ≤ 10)) =
      frozenPage :=
    List.filter_eq_self.2 fun e he ↦ by
      obtain ⟨token, -, rfl⟩ := List.mem_map.1 he
      rfl
  have hrow : (decodeEvent (frozenEvent 1 0)).isSome = true := by decide +kernel
  rw [decodePage, hall, List.length_filterMap_eq_countP, List.countP_eq_length.2]
  · rw [frozenPage, List.length_map, List.length_range]
  · intro e he
    obtain ⟨token, -, rfl⟩ := List.mem_map.1 he
    rw [← hrow]
    exact congrArg _ (decodeEvent_pagingToken (frozenEvent 1 0) token)

/-- A poll that fails after the first page leaves that page behind, and no checkpoint. -/
theorem poll_cut_short (db : ComplianceDb) (hlast : db.lastLedger = none) :
    (poll breakerConfig frozenChain ⟨none, some 10, [some 10, none]⟩ db).2.events =
        db.events ++ decodePage 1 10 10 frozenPage ∧
      (poll breakerConfig frozenChain ⟨none, some 10, [some 10, none]⟩ db).2.lastLedger = none := by
  have hthrown : ∀ db', (finishPoll breakerConfig 1 10 0
      (fetchPages breakerConfig frozenChain 1 10 0 [none] (some 199) (some 10) db')).2 = db' :=
    fun _ ↦ rfl
  rw [poll_frozenChain [none] db hlast, hthrown]
  obtain ⟨hevents, hsame, -⟩ := ComplianceDb.applyEvents_spec (decodePage 1 10 10 frozenPage) db
  exact ⟨hevents, hsame.trans hlast⟩

/-- **A poll cut short and retried writes its first page twice.** Two polls fail after the first
page. There are 201 events then, and 400 rows. -/
theorem retry_duplicates_events :
    ¬OneRowEach breakerConfig frozenChain
      ((system breakerConfig frozenChain).final
        [⟨none, some 10, [some 10, none]⟩, ⟨none, some 10, [some 10, none]⟩]) := by
  rintro ⟨hevents, -⟩
  obtain ⟨hfirst, hlast⟩ := poll_cut_short ComplianceDb.fresh rfl
  obtain ⟨hsecond, -⟩ := poll_cut_short
    (poll breakerConfig frozenChain ⟨none, some 10, [some 10, none]⟩ ComplianceDb.fresh).2 hlast
  have hchain : ((frozenChain.watched breakerConfig.contractIds).filterMap decodeEvent).length ≤
      201 := by
    refine (List.length_filterMap_le _ _).trans ((List.length_filter_le _ _).trans ?_)
    simp [frozenChain]
  -- 400 rows cannot be a sub-multiset of the rows of 201 events
  have hle := hevents.length_le
  rw [final_system_cons, final_system_cons, final_system_nil, hsecond, hfirst,
    ComplianceDb.events_fresh, List.nil_append, List.length_append,
    length_decodePage_frozenPage] at hle
  omega

end Indexer
