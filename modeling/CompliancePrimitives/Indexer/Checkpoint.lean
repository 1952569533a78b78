import CompliancePrimitives.Indexer.Pagination

/-!
# The checkpoint stands for the events below it

The purpose of the checkpoint is that everything at or below it is in the database: `NothingLost`
says that the decodable events from the first start ledger through the checkpoint have their rows,
each one of its own.

Two things can make a poll store a checkpoint above an event it never wrote. A regressed horizon
breaks the pagination off and the horizon of the page before is stored all the same; and as long as
no checkpoint is stored and no start ledger is configured, every poll starts at what is then the
earliest ledger, which moves on while polls fail. A poll to which neither happens is `Seamless`,
which is a condition on the server's answers and the checkpoint before; in a run of such polls
nothing is lost (`nothingLost_of_seamless`), and one that is not can lose an event
(`regression_loses_event`).
-/

namespace Indexer

/-- The rows of the watched events from `first` through the checkpoint. -/
def rowsDue (config : Config) (chain : Chain) (first : ℕ) (db : ComplianceDb) : List RawEvent :=
  ((chain.watched config.contractIds).filter fun e ↦
    decide (first ≤ e.ledger ∧ e.ledger ≤ db.getLastIndexedLedger)).filterMap decodeEvent

/-- **No event is lost**: the rows due are in the events table. -/
def NothingLost (config : Config) (chain : Chain) (first : ℕ) (db : ComplianceDb) : Prop :=
  (rowsDue config chain first db).Subperm db.events

/-- The ledger the first poll of a run started at; `none` while no poll has got so far. -/
def firstStart (config : Config) : List (Step ComplianceDb RpcAnswers PollResult) → Option ℕ
  | [] => none
  | step :: older =>
    (firstStart config older).or
      (startLedgerOf config step.input step.pre.getLastIndexedLedger)

/-- **A poll that leaves no gap.** If it breaks off at a regressed horizon, no decodable event up to
the ledger it stores is left unserved; and if there is no checkpoint, it does not start behind a
decodable event that the run started before. -/
structure Seamless (config : Config) (chain : Chain) (first : ℕ) (rpc : RpcAnswers)
    (db : ComplianceDb) : Prop where
  /-- What it does not accept because the horizon fell cannot be decoded. -/
  serves : ∀ startLedger latest,
    startLedgerOf config rpc db.getLastIndexedLedger = some startLedger →
    rpc.latest = some latest →
    ∀ e ∈ lostByRegression config (targetLedgerOf config latest) db.getLastIndexedLedger rpc.pages
      none (chain.watchedFrom config.contractIds startLedger), decodeEvent e = none
  /-- A start from nothing leaves out nothing that can be decoded, from `first` on. -/
  resumes : db.getLastIndexedLedger = 0 → ∀ startLedger,
    startLedgerOf config rpc db.getLastIndexedLedger = some startLedger →
    ∀ e ∈ chain.watched config.contractIds, first ≤ e.ledger → e.ledger < startLedger →
      decodeEvent e = none

/-- Every poll of a run is seamless. -/
def SeamlessRun (config : Config) (chain : Chain) :
    List (Step ComplianceDb RpcAnswers PollResult) → Prop
  | [] => True
  | step :: older =>
    (∀ first, firstStart config (step :: older) = some first →
      Seamless config chain first step.input step.pre) ∧ SeamlessRun config chain older

/-! ### One poll -/

theorem startLedgerOf_pos {config : Config} {rpc : RpcAnswers} {lastIndexed startLedger : ℕ}
    (h : startLedgerOf config rpc lastIndexed = some startLedger) : 0 < startLedger := by
  unfold startLedgerOf at h
  split_ifs at h with hlast hconfig
  · cases h
    exact Nat.succ_pos _
  · cases h
    exact hconfig
  · obtain ⟨latest, -, rfl⟩ := Option.map_eq_some_iff.1 h
    exact Nat.lt_of_lt_of_le Nat.one_pos (le_max_left _ _)

/-- With a checkpoint, a poll starts right behind it. -/
theorem startLedgerOf_of_checkpoint {config : Config} {rpc : RpcAnswers}
    {lastIndexed startLedger : ℕ} (hlast : 0 < lastIndexed)
    (h : startLedgerOf config rpc lastIndexed = some startLedger) :
    startLedger = lastIndexed + 1 := by
  rw [startLedgerOf, if_pos hlast] at h
  exact (Option.some.inj h).symm

section

variable {config : Config} {chain : Chain} {rpc : RpcAnswers} {db db' : ComplianceDb}
  {startLedger latest first : ℕ} {new left : List RawSorobanEvent}

/-- Before there is a checkpoint nothing is due. -/
theorem nothingLost_of_no_checkpoint (hfirst : 0 < first) (hlast : db.getLastIndexedLedger = 0) :
    NothingLost config chain first db := by
  have hnone : rowsDue config chain first db = [] := by
    rw [rowsDue, List.filter_eq_nil_iff.2]
    · rfl
    · intro e _
      rw [hlast, decide_eq_true_eq]
      omega
  rw [NothingLost, hnone]
  exact List.nil_subperm

/-- Rows are never taken out of the table. -/
theorem NothingLost.of_same_checkpoint (h : NothingLost config chain first db)
    (hlast : db'.lastLedger = db.lastLedger) {rows : List RawEvent}
    (hevents : db'.events = db.events ++ rows) : NothingLost config chain first db' := by
  have hdue : rowsDue config chain first db' = rowsDue config chain first db := by
    rw [rowsDue, rowsDue, ComplianceDb.getLastIndexedLedger, hlast]
    rfl
  rw [NothingLost, hdue, hevents]
  exact h.trans (List.sublist_append_left _ _).subperm

/-- What is due below the start of a seamless poll was due before. -/
theorem rowsDue_before (hpoll : Seamless config chain first rpc db)
    (hstart : startLedgerOf config rpc db.getLastIndexedLedger = some startLedger)
    (hlost : NothingLost config chain first db) (through : ℕ) :
    ((((chain.watched config.contractIds).filter fun e ↦
      decide (first ≤ e.ledger ∧ e.ledger ≤ through)).filter fun e ↦
        !decide (startLedger ≤ e.ledger)).filterMap decodeEvent).Subperm db.events := by
  rw [List.filter_filter]
  -- without a checkpoint nothing decodable lies in between; with one the poll starts behind it
  rcases Nat.eq_zero_or_pos db.getLastIndexedLedger with hzero | hpos
  · refine List.Sublist.subperm ?_
    rw [List.filterMap_eq_nil_iff.2]
    · exact List.nil_sublist _
    · intro e he
      simp only [List.mem_filter, Bool.and_eq_true, decide_eq_true_eq, Bool.not_eq_true',
        decide_eq_false_iff_not, not_le] at he
      exact hpoll.resumes hzero startLedger hstart e he.1 he.2.2.1 he.2.1
  · refine List.Subperm.trans (List.Sublist.subperm ?_) hlost
    refine List.Sublist.filterMap _ (List.monotone_filter_right _ fun e he ↦ ?_)
    rw [startLedgerOf_of_checkpoint hpos hstart] at he
    simp only [Bool.and_eq_true, decide_eq_true_eq, Bool.not_eq_true', decide_eq_false_iff_not,
      not_le] at he ⊢
    exact ⟨he.2.1, Nat.lt_succ_iff.1 he.1⟩

/-- What is due from the start of a seamless poll on is written by it. -/
theorem rowsDue_after (hpoll : Seamless config chain first rpc db)
    (h : PollStep config chain rpc db db' startLedger latest new left) {through : ℕ}
    (hthrough : through ≤ targetLedgerOf config latest)
    (hleft : ∀ e ∈ left, through < e.ledger ∨
      e ∈ lostByRegression config (targetLedgerOf config latest) db.getLastIndexedLedger rpc.pages
        none (chain.watchedFrom config.contractIds startLedger)) :
    (((chain.watchedFrom config.contractIds startLedger).filter fun e ↦
      decide (first ≤ e.ledger ∧ e.ledger ≤ through)).filterMap decodeEvent).Sublist
        (rowsThrough (targetLedgerOf config latest) new) := by
  have hnone : (left.filter fun e ↦
      decide (first ≤ e.ledger ∧ e.ledger ≤ through)).filterMap decodeEvent = [] := by
    refine List.filterMap_eq_nil_iff.2 fun e he ↦ ?_
    obtain ⟨hmem, hspan⟩ := List.mem_filter.1 he
    rcases hleft e hmem with hbeyond | hlost
    · simp only [decide_eq_true_eq] at hspan
      omega
    · exact hpoll.serves startLedger latest h.start_eq h.latest_eq e hlost
  rw [h.log_eq, List.filter_append, List.filterMap_append, hnone, List.append_nil]
  refine List.Sublist.filterMap _ (List.monotone_filter_right _ fun e he ↦ ?_)
  simp only [decide_eq_true_eq] at he ⊢
  exact he.2.trans hthrough

/-- **One seamless poll loses nothing.** What is due splits at the ledger the poll starts at. -/
theorem NothingLost.poll (hlost : NothingLost config chain first db)
    (hpoll : Seamless config chain first rpc db) :
    NothingLost config chain first (poll config chain rpc db).2 := by
  rcases poll_cases config chain rpc db with hsame | ⟨startLedger, latest, new, left, h⟩
  · rw [hsame]
    exact hlost
  rcases h.checkpoint with hlast | ⟨through, hlast, -, hthrough, hleft⟩
  · exact hlost.of_same_checkpoint hlast h.events_eq
  · have hafter := rowsDue_after hpoll h hthrough hleft
    have hbefore := rowsDue_before hpoll h.start_eq hlost through
    rw [NothingLost, h.events_eq, rowsDue, ComplianceDb.getLastIndexedLedger, hlast,
      Option.getD_some]
    refine List.Subperm.trans ?_ (hbefore.append hafter.subperm)
    rw [← List.filterMap_append, Chain.watchedFrom, List.filter_comm]
    rw [← List.filter_append]
    refine (List.Perm.filterMap _ (List.Perm.filter _ ?_)).subperm
    exact (List.perm_append_comm.trans (List.filter_append_perm _ _)).symm

end

/-! ### Runs -/

/-- A poll that finds no start ledger leaves the database alone. -/
theorem poll_of_startLedgerOf_none {config : Config} {chain : Chain} {rpc : RpcAnswers}
    {db : ComplianceDb} (h : startLedgerOf config rpc db.getLastIndexedLedger = none) :
    (poll config chain rpc db).2 = db := by
  rcases poll_cases config chain rpc db with hsame | ⟨_, _, _, _, hstep⟩
  · exact hsame
  · rw [hstep.start_eq] at h
    cases h

/-- The invariant of a run: before a start ledger is known there is no checkpoint, and from then on
nothing is lost. -/
theorem seamless_invariant (config : Config) (chain : Chain) (inputs : List RpcAnswers) :
    SeamlessRun config chain ((system config chain).history inputs) →
      (firstStart config ((system config chain).history inputs) = none →
          ((system config chain).final inputs).getLastIndexedLedger = 0) ∧
        ∀ first, firstStart config ((system config chain).history inputs) = some first →
          0 < first ∧ NothingLost config chain first ((system config chain).final inputs) := by
  induction inputs with
  | nil => simp [firstStart, system, ComplianceDb.fresh, ComplianceDb.getLastIndexedLedger]
  | cons rpc inputs ih =>
    rintro ⟨hstep, holder⟩
    obtain ⟨hnone, hsome⟩ := ih holder
    -- the start ledger of this poll is the first one only if no poll before had any
    have hnow : firstStart config ((system config chain).history (rpc :: inputs)) =
        (firstStart config ((system config chain).history inputs)).or
          (startLedgerOf config rpc
            ((system config chain).final inputs).getLastIndexedLedger) := rfl
    rw [hnow]
    have hpoll : ∀ first, (firstStart config ((system config chain).history inputs)).or
        (startLedgerOf config rpc ((system config chain).final inputs).getLastIndexedLedger) =
          some first →
        Seamless config chain first rpc ((system config chain).final inputs) :=
      hstep
    rcases hfirst : firstStart config ((system config chain).history inputs) with _ | first
    · have hzero := hnone hfirst
      rw [hfirst] at hpoll
      refine ⟨fun hstart ↦ ?_, fun first hstart ↦ ?_⟩
      · exact (congrArg _ (poll_of_startLedgerOf_none hstart)).trans hzero
      · have hpos := startLedgerOf_pos hstart
        exact ⟨hpos, (nothingLost_of_no_checkpoint hpos hzero).poll (hpoll first hstart)⟩
    · obtain ⟨hpos, hlost⟩ := hsome first hfirst
      rw [hfirst] at hpoll
      refine ⟨fun hcontra ↦ (by cases hcontra), ?_⟩
      rintro _ ⟨⟩
      exact ⟨hpos, hlost.poll (hpoll first rfl)⟩

/-- **The checkpoint stands for the events below it.** In a run of seamless polls, every decodable
event from the first start ledger through the checkpoint has its row. -/
theorem nothingLost_of_seamless (config : Config) (chain : Chain) (inputs : List RpcAnswers)
    (hrun : SeamlessRun config chain ((system config chain).history inputs)) (first : ℕ)
    (hfirst : firstStart config ((system config chain).history inputs) = some first) :
    NothingLost config chain first ((system config chain).final inputs) :=
  ((seamless_invariant config chain inputs hrun).2 first hfirst).2

/-! ### One poll that is seamless, and one that is not -/

/-- A poll that is told of the same ledger with both pages leaves nothing out. -/
theorem lostByRegression_frozenChain :
    lostByRegression breakerConfig 10 0 [some 10, some 10] none
      (frozenChain.watchedFrom breakerConfig.contractIds 1) = [] := by
  decide +kernel

/-- Told of the same ledger with both pages, the first poll brings every event of the chain. -/
theorem nothingLost_of_steady_horizon :
    NothingLost breakerConfig frozenChain 1
      ((system breakerConfig frozenChain).final [⟨none, some 10, [some 10, some 10]⟩]) := by
  refine nothingLost_of_seamless breakerConfig frozenChain [⟨none, some 10, [some 10, some 10]⟩]
    ⟨fun first hfirst ↦ ⟨?_, ?_⟩, trivial⟩ 1 rfl
  · rintro startLedger latest ⟨⟩ ⟨⟩ e he
    have hnone : e ∈ ([] : List RawSorobanEvent) := lostByRegression_frozenChain ▸ he
    cases hnone
  · rintro - startLedger ⟨⟩ e - hle hlt
    obtain rfl : 1 = first := Option.some.inj hfirst
    exact absurd hlt (not_lt.2 hle)

/-- The last event of the chain is watched. -/
theorem mem_watched_frozenChain :
    frozenEvent 7 200 ∈ frozenChain.watched breakerConfig.contractIds := by
  refine List.mem_filter.2 ⟨List.mem_map.2 ⟨200, List.mem_range.2 (by decide), rfl⟩, ?_⟩
  decide +kernel

/-- **A regressed horizon loses an event.** The server reports ledger 10 with a full page, and
ledger 5 with the page after it. The poll drops that page, stores 10 as its checkpoint, and the
event of ledger 7 is never asked for again. -/
theorem regression_loses_event :
    firstStart breakerConfig
        ((system breakerConfig frozenChain).history [⟨none, some 10, [some 10, some 5]⟩]) = some 1 ∧
      ((system breakerConfig frozenChain).final
        [⟨none, some 10, [some 10, some 5]⟩]).getLastIndexedLedger = 10 ∧
      ¬NothingLost breakerConfig frozenChain 1
        ((system breakerConfig frozenChain).final [⟨none, some 10, [some 10, some 5]⟩]) := by
  have hfinal : (system breakerConfig frozenChain).final [⟨none, some 10, [some 10, some 5]⟩] =
      (ComplianceDb.fresh.applyEvents (decodePage 1 10 10 frozenPage)).setLastIndexedLedger 10 :=
    poll_regressed
  rw [hfinal]
  refine ⟨rfl, rfl, fun hlost ↦ ?_⟩
  obtain ⟨row, hrow⟩ : ∃ row, decodeEvent (frozenEvent 7 200) = some row :=
    Option.isSome_iff_exists.1 (by decide +kernel)
  have hdue : row ∈ rowsDue breakerConfig frozenChain 1
      ((ComplianceDb.fresh.applyEvents (decodePage 1 10 10 frozenPage)).setLastIndexedLedger 10) :=
    List.mem_filterMap.2
      ⟨frozenEvent 7 200, List.mem_filter.2 ⟨mem_watched_frozenChain, by simp [frozenEvent]⟩, hrow⟩
  have hwritten : row ∈ decodePage 1 10 10 frozenPage := by
    have hmem := hlost.subset hdue
    rwa [ComplianceDb.events_setLastIndexedLedger,
      (ComplianceDb.applyEvents_spec _ ComplianceDb.fresh).1, ComplianceDb.events_fresh,
      List.nil_append] at hmem
  have hseven := decodeEvent_ledgerSequence hrow
  rw [ledgerSequence_of_mem_decodePage_frozenPage hwritten] at hseven
  cases hseven

end Indexer
