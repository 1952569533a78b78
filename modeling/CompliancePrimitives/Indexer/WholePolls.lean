import CompliancePrimitives.Indexer.Checkpoint

/-!
# What a checkpoint says about the database

A poll is **whole** if it leaves nothing half done: the horizons it is told do not fall, and if it
fails it has not written a page before. A whole poll that moves the checkpoint has written exactly
the rows of the ledgers in between, in the order of the chain (`Whole.poll`).

So in a run of whole polls the database is a function of the ledger the first of them started at
and of the checkpoint (`indexed_of_whole`), all its tables included. How the work was cut does not
show (`database_of_checkpoint`): into polls, into pages, or into backfills with bounds of their own,
each poll here comes with the configuration of the process that makes it.

Polls that are not whole are not covered: a horizon that falls may lose rows, and a page left behind
is read again.
-/

namespace Indexer

open PagedLog

/-! ### Rows of a span -/

/-- The rows of the watched events from one ledger through another. -/
def Chain.rows (chain : Chain) (contractIds : List String) (first through : ℕ) : List RawEvent :=
  ((chain.watched contractIds).filter fun e ↦
    decide (first ≤ e.ledger ∧ e.ledger ≤ through)).filterMap decodeEvent

/-- The database of these rows, applied in order, with the last of the ledgers as its checkpoint. -/
def Chain.indexed (chain : Chain) (contractIds : List String) (first through : ℕ) : ComplianceDb :=
  (ComplianceDb.fresh.applyEvents (chain.rows contractIds first through)).setLastIndexedLedger
    through

theorem Chain.rows_append (chain : Chain) (contractIds : List String) {first cut through : ℕ}
    (hfirst : first ≤ cut + 1) (hthrough : cut ≤ through) :
    chain.rows contractIds first cut ++ chain.rows contractIds (cut + 1) through =
      chain.rows contractIds first through := by
  have hordered : Ordered RawSorobanEvent.ledger (chain.watched contractIds) :=
    chain.ordered.filter _
  rw [Chain.rows, Chain.rows, ← List.filterMap_append, hordered.filter_span hfirst hthrough]
  rfl

/-! ### The checkpoint beside the tables -/

section

variable {db : ComplianceDb}

theorem ComplianceDb.updateState_setLastIndexedLedger (db : ComplianceDb) (e : RawEvent)
    (ledger : ℕ) : updateState e (db.setLastIndexedLedger ledger) =
      (updateState e db).setLastIndexedLedger ledger := by
  have honAddress : ∀ f : String × String → ComplianceDb → ComplianceDb,
      (∀ row, f row (db.setLastIndexedLedger ledger) = (f row db).setLastIndexedLedger ledger) →
      onAddress e f (db.setLastIndexedLedger ledger) =
        (onAddress e f db).setLastIndexedLedger ledger := fun f hf ↦ by
    unfold onAddress
    split
    · exact hf _
    · rfl
  unfold updateState
  split_ifs
  iterate 4 exact honAddress _ fun row ↦ rfl
  · split
    · exact honAddress _ fun row ↦ rfl
    · rfl
  · split <;> rfl

/-- Rows do not depend on the checkpoint. -/
theorem ComplianceDb.applyEvents_setLastIndexedLedger (events : List RawEvent) (ledger : ℕ) :
    (db.setLastIndexedLedger ledger).applyEvents events =
      (db.applyEvents events).setLastIndexedLedger ledger := by
  induction events generalizing db with
  | nil => rfl
  | cons e events ih =>
    have hone : updateState e (insertEvent e (db.setLastIndexedLedger ledger)) =
        (updateState e (insertEvent e db)).setLastIndexedLedger ledger :=
      updateState_setLastIndexedLedger (insertEvent e db) e ledger
    exact (congrArg (ComplianceDb.applyEvents events) hone).trans ih

theorem ComplianceDb.setLastIndexedLedger_set (ledger ledger' : ℕ) :
    (db.setLastIndexedLedger ledger).setLastIndexedLedger ledger' =
      db.setLastIndexedLedger ledger' := rfl

end

/-- **More of the chain**, behind what is indexed. -/
theorem Chain.indexed_extend (chain : Chain) (contractIds : List String) {first cut through : ℕ}
    (hfirst : first ≤ cut + 1) (hthrough : cut ≤ through) :
    ((chain.indexed contractIds first cut).applyEvents
        (chain.rows contractIds (cut + 1) through)).setLastIndexedLedger through =
      chain.indexed contractIds first through := by
  rw [Chain.indexed, Chain.indexed, ComplianceDb.applyEvents_setLastIndexedLedger,
    ComplianceDb.setLastIndexedLedger_set, ← ComplianceDb.applyEvents_append,
    chain.rows_append contractIds hfirst hthrough]

/-! ### One whole poll -/

/-- The horizons a poll is told do not fall. -/
def Rising (pages : List (Option ℕ)) : Prop := pages.reduceOption.Pairwise (· ≤ ·)

instance (pages : List (Option ℕ)) : Decidable (Rising pages) :=
  inferInstanceAs (Decidable (List.Pairwise _ _))

/-- **A whole poll**: its horizons do not fall, and if it fails it has written nothing. -/
structure Whole (config : Config) (chain : Chain) (rpc : RpcAnswers) (db : ComplianceDb) :
    Prop where
  /-- No page tells of a lower horizon than the one before. -/
  rising : Rising rpc.pages
  /-- A poll that throws has not written a page. -/
  clean : (poll config chain rpc db).1 = .rejected → (poll config chain rpc db).2 = db

section

variable {config : Config} {chain : Chain} {rpc : RpcAnswers} {db : ComplianceDb}
  {startLedger targetLedger lastIndexed : ℕ}

/-- How the loop is left if it does not throw, and the horizons do not fall: by its first page, with
nothing done, or with all rows through the target and the last horizon. -/
structure Ran (targetLedger : ℕ) (eventHorizon : Option ℕ) (rest : List RawSorobanEvent)
    (db : ComplianceDb) (result : PageExit × ComplianceDb) : Prop where
  /-- The loop returns at once at its first page only. -/
  returned : result.1 = .returned → eventHorizon = none ∧ result.2 = db
  /-- It ends with the rows through the target of all events up to the last horizon. -/
  finished : ∀ exitHorizon, result.1 = .finished exitHorizon →
    ∃ horizon new left, exitHorizon = some horizon ∧ (∀ h ∈ eventHorizon, h ≤ horizon) ∧
      rest = new ++ left ∧ result.2 = db.applyEvents (rowsThrough targetLedger new) ∧
      (∀ e ∈ new, e.ledger ≤ horizon) ∧ ∀ e ∈ left, min targetLedger horizon < e.ledger

section Loop

variable {eventHorizon : Option ℕ} {latestLedger : ℕ} {events rest : List RawSorobanEvent}

/-- The last page. -/
theorem Ran.last {left : List RawSorobanEvent} (hhorizon : ∀ h ∈ eventHorizon, h ≤ latestLedger)
    (hrest : rest = events ++ left) (hevents : ∀ e ∈ events, e.ledger ≤ latestLedger)
    (hleft : ∀ e ∈ left, min targetLedger latestLedger < e.ledger) :
    Ran targetLedger eventHorizon rest db
      (.finished (some latestLedger), db.applyEvents (rowsThrough targetLedger events)) where
  returned := nofun
  finished exitHorizon hexit := by
    cases hexit
    exact ⟨latestLedger, events, left, rfl, hhorizon, hrest, rfl, hevents, hleft⟩

/-- A page, and what the loop does behind it. -/
theorem Ran.cons {rest' : List RawSorobanEvent} {result : PageExit × ComplianceDb}
    (h : Ran targetLedger (some latestLedger) rest'
      (db.applyEvents (rowsThrough targetLedger events)) result)
    (hhorizon : ∀ h ∈ eventHorizon, h ≤ latestLedger) (hrest : rest = events ++ rest')
    (hevents : ∀ e ∈ events, e.ledger ≤ latestLedger) :
    Ran targetLedger eventHorizon rest db result where
  returned hexit := nomatch (h.returned hexit).1
  finished exitHorizon hexit := by
    obtain ⟨horizon, new, left, rfl, hge, rfl, hdb, hnew, hleft⟩ := h.finished exitHorizon hexit
    have hle : latestLedger ≤ horizon := hge latestLedger rfl
    refine ⟨horizon, events ++ new, left, rfl, fun h hh ↦ (hhorizon h hh).trans hle, ?_, ?_,
      fun e he ↦ ?_, hleft⟩
    · rw [hrest, List.append_assoc]
    · rw [hdb, rowsThrough_append, ComplianceDb.applyEvents_append]
    · rcases List.mem_append.1 he with he | he
      · exact (hevents e he).trans hle
      · exact hnew e he

end Loop

/-- **The loop under horizons that do not fall.** By induction on the server's answers, as
`fetchPages_spec`. -/
theorem fetchPages_ran (config : Config) (chain : Chain)
    (startLedger targetLedger lastIndexed : ℕ) (pages : List (Option ℕ)) :
    ∀ (cursor eventHorizon : Option ℕ) (db : ComplianceDb) (read rest : List RawSorobanEvent),
      chain.watchedFrom config.contractIds startLedger = read ++ rest →
      after RawSorobanEvent.pagingToken (read ++ rest) cursor = rest →
      Rising (eventHorizon :: pages) → (∀ h ∈ eventHorizon, lastIndexed ≤ h) →
      Ran targetLedger eventHorizon rest db
        (fetchPages config chain startLedger targetLedger lastIndexed pages cursor eventHorizon
          db) := by
  induction pages with
  | nil => exact fun _ _ _ _ _ _ _ _ _ ↦ ⟨by rintro ⟨⟩, by rintro _ ⟨⟩⟩
  | cons answer pages ih =>
    intro cursor eventHorizon db read rest hlog hcursor hrising hahead
    rcases answer with _ | latestLedger
    · exact ⟨by rintro ⟨⟩, by rintro _ ⟨⟩⟩
    have hhorizon : ∀ h ∈ eventHorizon, h ≤ latestLedger := by
      rintro h rfl
      exact (List.pairwise_cons.1 hrising).1 latestLedger (.head _)
    have hrising' : Rising (some latestLedger :: pages) := by
      cases eventHorizon with
      | none => exact hrising
      | some h => exact (List.pairwise_cons.1 hrising).2
    by_cases hbelow : latestLedger < lastIndexed
    · -- the horizon before would lie below the checkpoint as well
      have hnone : eventHorizon = none := Option.eq_none_iff_forall_not_mem.2 fun h hh ↦
        absurd ((hahead h hh).trans (hhorizon h hh)) (not_le.2 hbelow)
      have hrun : fetchPages config chain startLedger targetLedger lastIndexed
          (some latestLedger :: pages) cursor eventHorizon db = (.returned, db) := by
        simp [fetchPages, hbelow]
      rw [hrun]
      exact ⟨fun _ ↦ ⟨hnone, rfl⟩, by rintro _ ⟨⟩⟩
    have hregressed : ¬regressed eventHorizon latestLedger = true := by
      cases eventHorizon with
      | none => exact Bool.false_ne_true
      | some h => simpa [regressed] using hhorizon h rfl
    have hlogOrdered := ordered_watchedFrom chain config.contractIds startLedger
    have hlogTokens := nodup_tokens_watchedFrom chain config.contractIds startLedger
    rw [hlog] at hlogOrdered hlogTokens
    have hordered : Ordered RawSorobanEvent.ledger rest := hlogOrdered.of_append_right
    obtain ⟨events, hserved, hpage, hsplit, hreported, hrows⟩ :=
      exists_served config chain targetLedger latestLedger hlog hcursor hordered
    by_cases hpast : pastEnd config targetLedger events = true
    · have hrun : fetchPages config chain startLedger targetLedger lastIndexed
          (some latestLedger :: pages) cursor eventHorizon db =
            (.finished (some latestLedger), db.applyEvents (rowsThrough targetLedger events)) := by
        simp [fetchPages, hserved, hbelow, hregressed, hpast, hrows]
      rw [hrun]
      refine .last hhorizon hsplit hreported fun e he ↦ ?_
      simp only [pastEnd, Bool.and_eq_true, List.any_eq_true, decide_eq_true_eq] at hpast
      obtain ⟨-, b, hb, hbeyond⟩ := hpast
      rw [hsplit] at hordered
      exact (min_le_left _ _).trans_lt (hordered.lt_of_mem_append hb hbeyond he)
    by_cases hfull : events.length = pageLimit
    · have hlog' : read ++ rest = (read ++ events) ++ rest.drop events.length := by
        rw [List.append_assoc, ← hsplit]
      rw [hlog'] at hlog hlogTokens
      obtain ⟨token, hnext, hcursor'⟩ := nextCursor_of_full hfull hlogTokens
      rw [fetchPages_of_full hserved hbelow hregressed hpast hnext, hrows]
      refine (ih _ (some latestLedger) _ _ _ hlog hcursor' hrising' ?_).cons hhorizon hsplit
        hreported
      rintro h ⟨⟩
      exact not_lt.1 hbelow
    -- a page that is not full has reached the horizon, and the loop ends
    · have hrun : fetchPages config chain startLedger targetLedger lastIndexed
          (some latestLedger :: pages) cursor eventHorizon db =
            (.finished (some latestLedger), db.applyEvents (rowsThrough targetLedger events)) := by
        simp [fetchPages, hserved, hbelow, hregressed, hpast, hrows, nextCursor, hfull]
      rw [hrun]
      refine .last hhorizon hsplit hreported fun e he ↦ ?_
      rw [← hpage] at hfull he
      exact (min_le_right _ _).trans_lt (lt_of_mem_drop_page hordered hfull he)

/-- What a loop has written that ran to an end is what the chain has through the target and the
horizon. -/
theorem rowsThrough_eq_rows {horizon : ℕ} {new left : List RawSorobanEvent}
    (hlog : chain.watchedFrom config.contractIds startLedger = new ++ left)
    (hnew : ∀ e ∈ new, e.ledger ≤ horizon)
    (hleft : ∀ e ∈ left, min targetLedger horizon < e.ledger) :
    rowsThrough targetLedger new =
      chain.rows config.contractIds startLedger (min targetLedger horizon) := by
  have hspan : ((chain.watched config.contractIds).filter fun e ↦
      decide (startLedger ≤ e.ledger ∧ e.ledger ≤ min targetLedger horizon)) =
        (new ++ left).filter fun e ↦ decide (e.ledger ≤ min targetLedger horizon) := by
    rw [← hlog, Chain.watchedFrom, List.filter_filter]
    exact List.filter_congr fun e _ ↦ by rw [← Bool.decide_and, decide_eq_decide, and_comm]
  have hnone : left.filter (fun e ↦ decide (e.ledger ≤ min targetLedger horizon)) = [] :=
    List.filter_eq_nil_iff.2 fun e he ↦ by simpa only [decide_eq_true_eq, not_le] using hleft e he
  rw [Chain.rows, hspan, List.filter_append, hnone, List.append_nil, rowsThrough]
  refine congrArg (List.filterMap decodeEvent) (List.filter_congr fun e he ↦ ?_)
  rw [decide_eq_decide, le_min_iff]
  exact (and_iff_left (hnew e he)).symm

/-- **A whole poll** leaves the database alone, or moves the checkpoint and writes exactly the rows
of the ledgers in between. -/
theorem Whole.poll (h : Whole config chain rpc db) :
    (poll config chain rpc db).2 = db ∨
      ∃ first through, startLedgerOf config rpc db.getLastIndexedLedger = some first ∧
        first ≤ through ∧ (Indexer.poll config chain rpc db).2 =
          (db.applyEvents (chain.rows config.contractIds first through)).setLastIndexedLedger
            through := by
  by_cases hids : config.contractIds.isEmpty = true
  · exact .inl (by simp [Indexer.poll, hids])
  rcases hstart : startLedgerOf config rpc db.getLastIndexedLedger with _ | startLedger
  · exact .inl (poll_of_startLedgerOf_none hstart)
  rcases hlatest : rpc.latest with _ | latest
  · exact .inl (by simp [Indexer.poll, hids, hstart, hlatest])
  by_cases hdone : 0 < config.endLedger ∧ config.endLedger ≤ db.getLastIndexedLedger
  · exact .inl (by simp [Indexer.poll, hids, hstart, hlatest, hdone])
  by_cases hahead : targetLedgerOf config latest < startLedger
  · exact .inl (by simp [Indexer.poll, hids, hstart, hlatest, hdone, hahead])
  have hran := fetchPages_ran config chain startLedger (targetLedgerOf config latest)
    db.getLastIndexedLedger rpc.pages none none db []
    (chain.watchedFrom config.contractIds startLedger) rfl rfl h.rising (by simp)
  have hclean := h.clean
  rw [poll_eq_finishPoll hids hstart hlatest hdone hahead] at hclean ⊢
  rcases hrun : fetchPages config chain startLedger (targetLedgerOf config latest)
    db.getLastIndexedLedger rpc.pages none none db with ⟨exit, db₁⟩
  rw [hrun] at hran hclean
  rcases exit with _ | _ | exitHorizon
  -- a failure behind the first page is what being whole excludes
  · exact .inl (hclean rfl)
  · exact .inl (hran.returned rfl).2
  obtain ⟨horizon, new, left, rfl, -, hlog, rfl, hnew, hleft⟩ := hran.finished _ rfl
  have hrows := rowsThrough_eq_rows hlog hnew hleft
  by_cases hbehind : horizon < startLedger
  · -- nothing lies between the start and the horizon
    have hnil : new = [] := List.eq_nil_iff_forall_not_mem.2 fun e he ↦ by
      have hge : startLedger ≤ e.ledger :=
        startLedger_le_of_mem_watchedFrom chain config.contractIds startLedger
          (hlog ▸ List.mem_append_left _ he)
      exact absurd (hge.trans (hnew e he)) (not_le.2 hbehind)
    refine .inl ?_
    simp [finishPoll, indexedThroughOf, hbehind, hnil, rowsThrough, ComplianceDb.applyEvents]
  · have hge : startLedger ≤ min (targetLedgerOf config latest) horizon :=
      le_min (not_lt.1 hahead) (not_lt.1 hbehind)
    have hmoves : db.getLastIndexedLedger < min (targetLedgerOf config latest) horizon := by
      rcases Nat.eq_zero_or_pos db.getLastIndexedLedger with hzero | hpos
      · rw [hzero]
        exact (startLedgerOf_pos hstart).trans_le hge
      · rw [startLedgerOf_of_checkpoint hpos hstart] at hge
        exact hge
    refine .inr ⟨startLedger, _, rfl, hge, ?_⟩
    rw [finishPoll_of_finished hbehind hmoves, hrows]

end

/-! ### Runs -/

/-- The indexer from a fresh database on, poll after poll, each with the configuration of the
process that makes it. -/
def operated (chain : Chain) : System ComplianceDb (Config × RpcAnswers) PollResult where
  start := .fresh
  exec i := poll i.1 chain i.2

/-- After whole polls for the same contracts, under whatever bounds, either nothing has been
indexed, or the database is that of the ledgers from where one of the polls started through the
checkpoint. -/
theorem indexed_of_whole (chain : Chain) (contractIds : List String)
    (inputs : List (Config × RpcAnswers)) (hids : ∀ i ∈ inputs, i.1.contractIds = contractIds)
    (hwhole : ∀ e ∈ (operated chain).history inputs, Whole e.input.1 chain e.input.2 e.pre) :
    (operated chain).final inputs = .fresh ∨
      ∃ i ∈ inputs, ∃ first through, startLedgerOf i.1 i.2 0 = some first ∧ first ≤ through ∧
        (operated chain).final inputs = chain.indexed contractIds first through := by
  induction inputs with
  | nil => exact .inl rfl
  | cons i inputs ih =>
    rw [List.forall_mem_cons] at hids
    rw [System.history_cons, List.forall_mem_cons] at hwhole
    have hpoll := hwhole.1.poll
    have hfinal : (operated chain).final (i :: inputs) =
        (poll i.1 chain i.2 ((operated chain).final inputs)).2 := rfl
    rw [System.stepFrom_pre, System.stepFrom_input, hids.1] at hpoll
    rw [hfinal]
    rcases hpoll with hsame | ⟨start, through, hstart, hle, hpost⟩
    · rw [hsame]
      exact (ih hids.2 hwhole.2).imp_right fun ⟨j, hj, hrest⟩ ↦ ⟨j, .tail _ hj, hrest⟩
    rw [hpost]
    rcases ih hids.2 hwhole.2 with hfresh | ⟨j, hj, first, cut, hfirst, hcut, hindexed⟩
    · rw [hfresh] at hstart ⊢
      exact .inr ⟨i, .head _, start, through, hstart, hle, rfl⟩
    · -- the poll starts right behind the checkpoint
      rw [hindexed] at hstart ⊢
      obtain rfl : start = cut + 1 :=
        startLedgerOf_of_checkpoint ((startLedgerOf_pos hfirst).trans_le hcut) hstart
      exact .inr ⟨j, .tail _ hj, first, through, hfirst, by omega,
        chain.indexed_extend contractIds (by omega) (by omega)⟩

/-- **A database is what its checkpoint says.** Two runs of whole polls for the same contracts, cut
into polls, pages and backfills as may be, hold the same database in every table once they have the
same checkpoint, if they would start a fresh database at the same ledger. -/
theorem database_of_checkpoint (chain : Chain) (contractIds : List String)
    (inputs inputs' : List (Config × RpcAnswers))
    (hids : ∀ i ∈ inputs ++ inputs', i.1.contractIds = contractIds)
    (hwhole : ∀ e ∈ (operated chain).history inputs ++ (operated chain).history inputs',
      Whole e.input.1 chain e.input.2 e.pre)
    (hfirst : ∀ i ∈ inputs, ∀ j ∈ inputs', ∀ first first', startLedgerOf i.1 i.2 0 = some first →
      startLedgerOf j.1 j.2 0 = some first' → first = first')
    (hcheckpoint : ((operated chain).final inputs).getLastIndexedLedger =
      ((operated chain).final inputs').getLastIndexedLedger) :
    (operated chain).final inputs = (operated chain).final inputs' := by
  rw [List.forall_mem_append] at hids hwhole
  rcases indexed_of_whole chain contractIds inputs hids.1 hwhole.1 with
    hfresh | ⟨i, hi, first, through, hstart, hle, hindexed⟩ <;>
  rcases indexed_of_whole chain contractIds inputs' hids.2 hwhole.2 with
    hfresh' | ⟨j, hj, first', through', hstart', hle', hindexed'⟩
  · rw [hfresh, hfresh']
  · rw [hfresh, hindexed'] at hcheckpoint
    exact absurd hcheckpoint ((startLedgerOf_pos hstart').trans_le hle').ne
  · rw [hindexed, hfresh'] at hcheckpoint
    exact absurd hcheckpoint ((startLedgerOf_pos hstart).trans_le hle).ne'
  · rw [hindexed, hindexed'] at hcheckpoint ⊢
    obtain rfl : through = through' := hcheckpoint
    rw [hfirst i hi j hj first first' hstart hstart']

/-- The breaker is frozen at ledgers 3 and 7. -/
def shortChain : Chain where
  events := [frozenEvent 3 0, frozenEvent 7 1]
  ordered := by simp [Ordered, frozenEvent]
  tokens := by decide

/-- A backfill through ledger 5, and the indexer as it goes on behind it. -/
def backfillAndGoOn : List (Config × RpcAnswers) :=
  [(breakerConfig, ⟨none, some 9, [some 9]⟩),
    ({ breakerConfig with endLedger := 5 }, ⟨none, some 8, [some 8]⟩),
    ({ breakerConfig with endLedger := 5 }, ⟨none, some 8, [none]⟩)]

/-- The same ledgers in one poll of two pages. -/
def inOneGo : List (Config × RpcAnswers) :=
  [(breakerConfig, ⟨none, some 9, [some 9, some 9]⟩)]

theorem database_of_checkpoint_backfillAndGoOn :
    (operated shortChain).final backfillAndGoOn = (operated shortChain).final inOneGo := by
  refine database_of_checkpoint shortChain breakerConfig.contractIds backfillAndGoOn inOneGo
    (by decide +kernel) ?_ ?_ (by decide +kernel)
  · simp only [backfillAndGoOn, inOneGo, List.forall_mem_append, System.history_cons,
      List.forall_mem_cons, System.history_nil]
    exact ⟨⟨⟨by decide, by decide +kernel⟩, ⟨by decide, by decide +kernel⟩,
      ⟨by decide, by decide +kernel⟩, by simp⟩, ⟨by decide, by decide +kernel⟩, by simp⟩
  · simp +contextual [backfillAndGoOn, inOneGo, startLedgerOf, breakerConfig]

end Indexer
