import CompliancePrimitives.Indexer.Poll

/-!
# What one poll does

The pagination loop against the log it reads: the pages a poll accepts are together a prefix of the
watched events from its start ledger on, each is applied in full up to the target ledger, and what
is left when the loop is finished lies beyond the horizon it stored — with one exception. When the
server reports a lower latest ledger than for the page before, the loop is broken out of with the
earlier horizon, although nothing says that everything up to it has been served. The events this
leaves out are `lostByRegression`.

`poll_cases` puts this together: a poll leaves the database alone, or is a `PollStep`. Everything
about runs is derived from it.
-/

namespace Indexer

open PagedLog

/-! ### The log a poll reads -/

section

variable (chain : Chain) (contractIds : List String) (startLedger : ℕ)

theorem ordered_watchedFrom :
    Ordered RawSorobanEvent.ledger (chain.watchedFrom contractIds startLedger) :=
  (chain.ordered.filter _).filter _

theorem nodup_tokens_watchedFrom :
    ((chain.watchedFrom contractIds startLedger).map RawSorobanEvent.pagingToken).Nodup :=
  chain.tokens.sublist ((List.filter_sublist.trans List.filter_sublist).map _)

theorem startLedger_le_of_mem_watchedFrom {e : RawSorobanEvent}
    (he : e ∈ chain.watchedFrom contractIds startLedger) : startLedger ≤ e.ledger := by
  simpa using List.of_mem_filter he

end

/-- The rows of some events up to a target ledger. -/
def rowsThrough (targetLedger : ℕ) (events : List RawSorobanEvent) : List RawEvent :=
  (events.filter fun e ↦ decide (e.ledger ≤ targetLedger)).filterMap decodeEvent

theorem rowsThrough_append {targetLedger : ℕ} {l l' : List RawSorobanEvent} :
    rowsThrough targetLedger (l ++ l') =
      rowsThrough targetLedger l ++ rowsThrough targetLedger l' := by
  simp [rowsThrough]

/-- Of a page, only the bound that is the target can leave events out. -/
theorem decodePage_eq {startLedger targetLedger latestLedger : ℕ} {events : List RawSorobanEvent}
    (h : ∀ e ∈ events, startLedger ≤ e.ledger ∧ e.ledger ≤ latestLedger) :
    decodePage startLedger targetLedger latestLedger events = rowsThrough targetLedger events := by
  refine congrArg (List.filterMap decodeEvent) (List.filter_congr fun e he ↦ ?_)
  simp [h e he]

/-- A poll's writes before the checkpoint: these rows, with their audit rows. -/
structure Wrote (rows : List RawEvent) (db db' : ComplianceDb) : Prop where
  /-- The rows are behind those that were there, -/
  events_eq : db'.events = db.events ++ rows
  /-- and their audit rows likewise. -/
  auditLog_eq : db'.auditLog = db.auditLog ++ rows.filterMap ComplianceDb.auditRow
  /-- The checkpoint is not moved. -/
  lastLedger_eq : db'.lastLedger = db.lastLedger

theorem Wrote.nil (db : ComplianceDb) : Wrote [] db db :=
  ⟨by simp, by simp, rfl⟩

theorem Wrote.applyEvents {rows rows' : List RawEvent} {db db' : ComplianceDb}
    (h : Wrote rows' (db.applyEvents rows) db') : Wrote (rows ++ rows') db db' := by
  obtain ⟨hevents, hlast, haudit⟩ := ComplianceDb.applyEvents_spec rows db
  refine ⟨?_, ?_, h.lastLedger_eq.trans hlast⟩
  · rw [h.events_eq, hevents, List.append_assoc]
  · rw [h.auditLog_eq, haudit, List.append_assoc, List.filterMap_append]

/-! ### The loop -/

/-- **What a regressed horizon leaves out**: the events the server has not served when the loop is
broken out of, though they are at or below the ledger the poll then stores. -/
def lostByRegression (config : Config) (targetLedger lastIndexed : ℕ) :
    List (Option ℕ) → (eventHorizon : Option ℕ) → List RawSorobanEvent → List RawSorobanEvent
  | some latestLedger :: pages, eventHorizon, rest =>
    let events := page RawSorobanEvent.ledger pageLimit latestLedger rest
    if latestLedger < lastIndexed then []
    else if regressed eventHorizon latestLedger then
      rest.filter fun e ↦ decide (e.ledger ≤ min targetLedger (eventHorizon.getD 0))
    else if pastEnd config targetLedger events ∨ events.length ≠ pageLimit then []
    else
      lostByRegression config targetLedger lastIndexed pages (some latestLedger)
        (rest.drop events.length)
  | _, _, _ => []

/-- What the loop has done when it is left: it accepted the events `new` and not the events `left`.
-/
structure Fetched (config : Config) (targetLedger lastIndexed : ℕ) (pages : List (Option ℕ))
    (eventHorizon : Option ℕ) (rest : List RawSorobanEvent) (db : ComplianceDb)
    (result : PageExit × ComplianceDb) (new left : List RawSorobanEvent) : Prop where
  /-- The accepted events are the first of those that were to come. -/
  rest_eq : rest = new ++ left
  /-- Their rows are written, through the target. -/
  wrote : Wrote (rowsThrough targetLedger new) db result.2
  /-- Each was served by a page that told of its ledger. -/
  reported : ∀ e ∈ new, ∃ latestLedger, some latestLedger ∈ pages ∧ e.ledger ≤ latestLedger
  /-- If the loop ends, what was not accepted is lost to a falling horizon, or still to come. -/
  finished : ∀ exitHorizon, result.1 = .finished exitHorizon →
    ∃ horizon, exitHorizon = some horizon ∧
      ∀ e ∈ left, e ∈ lostByRegression config targetLedger lastIndexed pages eventHorizon rest ∨
        min targetLedger horizon < e.ledger

section

variable {config : Config} {chain : Chain} {targetLedger lastIndexed latestLedger : ℕ}
  {pages : List (Option ℕ)} {eventHorizon : Option ℕ}
  {events new left rest rest' : List RawSorobanEvent} {db : ComplianceDb}
  {result : PageExit × ComplianceDb}

/-- Nothing is accepted, and the loop is not finished. -/
theorem Fetched.of_abandoned (h : ∀ exitHorizon, result.1 ≠ .finished exitHorizon)
    (hdb : result.2 = db) :
    Fetched config targetLedger lastIndexed pages eventHorizon rest db result [] rest where
  rest_eq := rfl
  wrote := hdb ▸ Wrote.nil db
  reported := by simp
  finished exitHorizon hexit := absurd hexit (h exitHorizon)

/-- The loop is broken out of at a regressed horizon. -/
theorem Fetched.of_regressed (hbelow : ¬latestLedger < lastIndexed)
    (hregressed : regressed eventHorizon latestLedger = true) :
    Fetched config targetLedger lastIndexed (some latestLedger :: pages) eventHorizon rest db
      (.finished eventHorizon, db) [] rest where
  rest_eq := rfl
  wrote := Wrote.nil db
  reported := by simp
  finished exitHorizon hexit := by
    cases hexit
    rcases eventHorizon with _ | horizon
    · cases hregressed
    -- the page in hand is dropped, so what is left up to the kept horizon is lost
    · refine ⟨horizon, rfl, fun e he ↦ ?_⟩
      rcases le_or_gt e.ledger (min targetLedger horizon) with hle | hlt
      · refine .inl ?_
        simp only [lostByRegression, hbelow, hregressed, if_true, if_false]
        exact List.mem_filter.2 ⟨he, by simpa using hle⟩
      · exact .inr hlt

/-- A page is accepted, and the loop goes on behind it. -/
theorem Fetched.cons
    (h : Fetched config targetLedger lastIndexed pages (some latestLedger) rest'
      (db.applyEvents (rowsThrough targetLedger events)) result new left)
    (hrest : rest = events ++ rest') (hevents : ∀ e ∈ events, e.ledger ≤ latestLedger)
    (hlost : lostByRegression config targetLedger lastIndexed (some latestLedger :: pages)
        eventHorizon rest =
      lostByRegression config targetLedger lastIndexed pages (some latestLedger) rest') :
    Fetched config targetLedger lastIndexed (some latestLedger :: pages) eventHorizon rest db result
      (events ++ new) left where
  rest_eq := by rw [hrest, h.rest_eq, List.append_assoc]
  wrote := by
    rw [rowsThrough_append]
    exact h.wrote.applyEvents
  reported e he := by
    rcases List.mem_append.1 he with hpage | hnew
    · exact ⟨latestLedger, List.mem_cons_self, hevents e hpage⟩
    · obtain ⟨reported, hmem, hle⟩ := h.reported e hnew
      exact ⟨reported, List.mem_cons_of_mem _ hmem, hle⟩
  finished exitHorizon hexit := by
    rw [hlost]
    exact h.finished exitHorizon hexit

/-- The last page is accepted, and what is left lies beyond the target or the horizon. -/
theorem Fetched.last (hrest : rest = events ++ left)
    (hevents : ∀ e ∈ events, e.ledger ≤ latestLedger)
    (hleft : ∀ e ∈ left, min targetLedger latestLedger < e.ledger) :
    Fetched config targetLedger lastIndexed (some latestLedger :: pages) eventHorizon rest db
      (.finished (some latestLedger), db.applyEvents (rowsThrough targetLedger events))
      events left where
  rest_eq := hrest
  wrote := by
    have hwrote := (Wrote.nil (db.applyEvents (rowsThrough targetLedger events))).applyEvents
    rwa [List.append_nil] at hwrote
  reported e he := ⟨latestLedger, List.mem_cons_self, hevents e he⟩
  finished exitHorizon hexit := by
    cases hexit
    exact ⟨latestLedger, rfl, fun e he ↦ .inr (hleft e he)⟩

/-- Behind a full page the loop goes on. -/
theorem fetchPages_of_full {startLedger : ℕ} {cursor : Option ℕ} {token : ℕ}
    (hserved : chain.getEvents config.contractIds startLedger cursor latestLedger = events)
    (hbelow : ¬latestLedger < lastIndexed)
    (hregressed : ¬regressed eventHorizon latestLedger = true)
    (hpast : ¬pastEnd config targetLedger events = true) (hnext : nextCursor events = some token) :
    fetchPages config chain startLedger targetLedger lastIndexed (some latestLedger :: pages) cursor
        eventHorizon db =
      fetchPages config chain startLedger targetLedger lastIndexed pages (some token)
        (some latestLedger)
        (db.applyEvents (decodePage startLedger targetLedger latestLedger events)) := by
  simp [fetchPages, hserved, hbelow, hregressed, hpast, hnext]

/-- At a regressed horizon the loop is broken out of. -/
theorem fetchPages_of_regressed {startLedger : ℕ} {cursor : Option ℕ}
    (hbelow : ¬latestLedger < lastIndexed)
    (hregressed : regressed eventHorizon latestLedger = true) :
    fetchPages config chain startLedger targetLedger lastIndexed (some latestLedger :: pages) cursor
        eventHorizon db = (.finished eventHorizon, db) := by
  simp [fetchPages, hbelow, hregressed]

end

/-- A page the server serves, to a reader who has brought `read` and stands right behind it. -/
structure Served (config : Config) (chain : Chain) (startLedger targetLedger latestLedger : ℕ)
    (cursor : Option ℕ) (rest events : List RawSorobanEvent) : Prop where
  /-- It is what the server answers, -/
  getEvents_eq : chain.getEvents config.contractIds startLedger cursor latestLedger = events
  /-- it is the first page of what is to come, -/
  page_eq : page RawSorobanEvent.ledger pageLimit latestLedger rest = events
  /-- and the next one is right behind it. -/
  rest_eq : rest = events ++ rest.drop events.length
  /-- None of its events is of a later ledger than it tells of. -/
  reported : ∀ e ∈ events, e.ledger ≤ latestLedger
  /-- Every row of it through the target is kept: none is from before the start. -/
  rows_eq : decodePage startLedger targetLedger latestLedger events =
    rowsThrough targetLedger events

/-- Whatever latest ledger the server reports, it serves such a page. -/
theorem exists_served (config : Config) (chain : Chain) (targetLedger latestLedger : ℕ)
    {startLedger : ℕ} {cursor : Option ℕ} {read rest : List RawSorobanEvent}
    (hlog : chain.watchedFrom config.contractIds startLedger = read ++ rest)
    (hcursor : after RawSorobanEvent.pagingToken (read ++ rest) cursor = rest)
    (hordered : Ordered RawSorobanEvent.ledger rest) :
    ∃ events,
      Served config chain startLedger targetLedger latestLedger cursor rest events := by
  have hserved : chain.getEvents config.contractIds startLedger cursor latestLedger =
      page RawSorobanEvent.ledger pageLimit latestLedger rest := by
    rw [Chain.getEvents, hlog, hcursor]
  have hsplit : rest = page RawSorobanEvent.ledger pageLimit latestLedger rest ++
      rest.drop (page RawSorobanEvent.ledger pageLimit latestLedger rest).length :=
    (page_append_drop hordered).symm
  have hreported : ∀ e ∈ page RawSorobanEvent.ledger pageLimit latestLedger rest,
      e.ledger ≤ latestLedger := fun e he ↦ (mem_of_mem_page he).2
  refine ⟨_, hserved, rfl, hsplit, hreported, decodePage_eq fun e he ↦ ⟨?_, hreported e he⟩⟩
  have hmem : e ∈ chain.watchedFrom config.contractIds startLedger := by
    rw [hlog, hsplit]
    exact List.mem_append_right _ (List.mem_append_left _ he)
  exact startLedger_le_of_mem_watchedFrom chain config.contractIds startLedger hmem

/-- Behind a full page the cursor is its last token, and the rest of the log is what is left. -/
theorem nextCursor_of_full {events read rest : List RawSorobanEvent}
    (hfull : events.length = pageLimit)
    (htokens : ((read ++ events ++ rest).map RawSorobanEvent.pagingToken).Nodup) :
    ∃ token, nextCursor events = some token ∧
      after RawSorobanEvent.pagingToken (read ++ events ++ rest) (some token) = rest := by
  have hne : events ≠ [] := by
    rintro rfl
    simp [pageLimit] at hfull
  obtain ⟨a, ha⟩ : ∃ a, events.getLast? = some a :=
    Option.isSome_iff_exists.1 (List.getLast?_isSome.2 hne)
  have hlast : (read ++ events).getLast? = some a := by
    rw [List.getLast?_append, ha, Option.some_or]
  exact ⟨a.pagingToken, by simp [nextCursor, hfull, ha], after_getLast htokens hlast⟩

/-- **The loop, page by page.** By induction on the server's answers; `read` is what the pages
before have brought, and the cursor stands right behind it. -/
theorem fetchPages_spec (config : Config) (chain : Chain) (startLedger targetLedger lastIndexed : ℕ)
    (pages : List (Option ℕ)) :
    ∀ (cursor eventHorizon : Option ℕ) (db : ComplianceDb) (read rest : List RawSorobanEvent),
      chain.watchedFrom config.contractIds startLedger = read ++ rest →
      after RawSorobanEvent.pagingToken (read ++ rest) cursor = rest →
      ∃ new left, Fetched config targetLedger lastIndexed pages eventHorizon rest db
        (fetchPages config chain startLedger targetLedger lastIndexed pages cursor eventHorizon db)
        new left := by
  induction pages with
  | nil =>
    intro cursor eventHorizon db read rest hlog hcursor
    exact ⟨[], rest, .of_abandoned (by simp [fetchPages]) rfl⟩
  | cons answer pages ih =>
    intro cursor eventHorizon db read rest hlog hcursor
    rcases answer with _ | latestLedger
    · exact ⟨[], rest, .of_abandoned (by simp [fetchPages]) rfl⟩
    have hlogOrdered := ordered_watchedFrom chain config.contractIds startLedger
    have hlogTokens := nodup_tokens_watchedFrom chain config.contractIds startLedger
    rw [hlog] at hlogOrdered hlogTokens
    have hordered : Ordered RawSorobanEvent.ledger rest := hlogOrdered.of_append_right
    obtain ⟨events, hserved, hpage, hsplit, hreported, hrows⟩ :=
      exists_served config chain targetLedger latestLedger hlog hcursor hordered
    by_cases hbelow : latestLedger < lastIndexed
    · refine ⟨[], rest, .of_abandoned ?_ ?_⟩ <;> simp [fetchPages, hbelow]
    by_cases hregressed : regressed eventHorizon latestLedger = true
    · rw [fetchPages_of_regressed hbelow hregressed]
      exact ⟨[], rest, .of_regressed hbelow hregressed⟩
    -- from here on the page is accepted and applied
    by_cases hpast : pastEnd config targetLedger events = true
    · have hrun : fetchPages config chain startLedger targetLedger lastIndexed
          (some latestLedger :: pages) cursor eventHorizon db =
            (.finished (some latestLedger), db.applyEvents (rowsThrough targetLedger events)) := by
        simp [fetchPages, hserved, hbelow, hregressed, hpast, hrows]
      rw [hrun]
      refine ⟨events, _, .last hsplit hreported fun e he ↦ ?_⟩
      simp only [pastEnd, Bool.and_eq_true, List.any_eq_true, decide_eq_true_eq] at hpast
      obtain ⟨-, b, hb, hbeyond⟩ := hpast
      rw [hsplit] at hordered
      exact (min_le_left _ _).trans_lt (hordered.lt_of_mem_append hb hbeyond he)
    by_cases hfull : events.length = pageLimit
    · have hlog' : read ++ rest = (read ++ events) ++ rest.drop events.length := by
        rw [List.append_assoc, ← hsplit]
      rw [hlog'] at hlog hlogTokens
      obtain ⟨token, hnext, hcursor'⟩ := nextCursor_of_full hfull hlogTokens
      obtain ⟨new, left, hfetched⟩ := ih _ (some latestLedger)
        (db.applyEvents (rowsThrough targetLedger events)) _ _ hlog hcursor'
      rw [fetchPages_of_full hserved hbelow hregressed hpast hnext, hrows]
      refine ⟨events ++ new, left, hfetched.cons hsplit hreported ?_⟩
      simp [lostByRegression, hbelow, hregressed, hpage, hpast, hfull]
    -- a page that is not full has reached the horizon, and the loop ends
    · have hrun : fetchPages config chain startLedger targetLedger lastIndexed
          (some latestLedger :: pages) cursor eventHorizon db =
            (.finished (some latestLedger), db.applyEvents (rowsThrough targetLedger events)) := by
        simp [fetchPages, hserved, hbelow, hregressed, hpast, hrows, nextCursor, hfull]
      rw [hrun]
      refine ⟨events, _, .last hsplit hreported fun e he ↦ ?_⟩
      rw [← hpage] at hfull he
      exact (min_le_right _ _).trans_lt (lt_of_mem_drop_page hordered hfull he)

/-! ### The poll -/

/-- **A poll that reaches the server's events**: from `startLedger` on it accepts `new` and writes
their rows up to the target ledger, and it moves the checkpoint at most once, to a ledger not before
the one it started at, with everything it has not accepted beyond the new checkpoint or lost. -/
structure PollStep (config : Config) (chain : Chain) (rpc : RpcAnswers) (db db' : ComplianceDb)
    (startLedger latest : ℕ) (new left : List RawSorobanEvent) : Prop where
  /-- It starts at this ledger, -/
  start_eq : startLedgerOf config rpc db.getLastIndexedLedger = some startLedger
  /-- and is told of this one as the latest. -/
  latest_eq : rpc.latest = some latest
  /-- Of the events from there on it accepts the first ones. -/
  log_eq : chain.watchedFrom config.contractIds startLedger = new ++ left
  /-- Their rows are written, through the target, -/
  events_eq : db'.events = db.events ++ rowsThrough (targetLedgerOf config latest) new
  /-- and so are their audit rows. -/
  auditLog_eq : db'.auditLog = db.auditLog ++
    (rowsThrough (targetLedgerOf config latest) new).filterMap ComplianceDb.auditRow
  /-- Each was served by a page that told of its ledger. -/
  reported : ∀ e ∈ new, ∃ latestLedger, some latestLedger ∈ rpc.pages ∧ e.ledger ≤ latestLedger
  /-- The checkpoint stays, or moves to where everything not accepted is beyond it or lost. -/
  checkpoint : db'.lastLedger = db.lastLedger ∨
    ∃ through, db'.lastLedger = some through ∧ startLedger ≤ through ∧
      through ≤ targetLedgerOf config latest ∧
      ∀ e ∈ left, through < e.ledger ∨
        e ∈ lostByRegression config (targetLedgerOf config latest) db.getLastIndexedLedger rpc.pages
          none (chain.watchedFrom config.contractIds startLedger)

/-- A finished loop with a horizon that moves the checkpoint. -/
theorem finishPoll_of_finished {config : Config} {startLedger targetLedger lastIndexed horizon : ℕ}
    {db : ComplianceDb} (hahead : ¬horizon < startLedger)
    (hmoves : lastIndexed < min targetLedger horizon) :
    (finishPoll config startLedger targetLedger lastIndexed (.finished (some horizon), db)).2 =
      db.setLastIndexedLedger (min targetLedger horizon) := by
  simp only [finishPoll, indexedThroughOf, hahead, if_false, hmoves, if_true]

/-- After the loop only the checkpoint changes, and only when the loop was finished. -/
theorem finishPoll_cases (config : Config) {startLedger targetLedger lastIndexed : ℕ}
    (hstart : startLedger ≤ targetLedger) (exit : PageExit) (db : ComplianceDb) :
    (finishPoll config startLedger targetLedger lastIndexed (exit, db)).2 = db ∨
      ∃ horizon, exit = .finished (some horizon) ∧ startLedger ≤ min targetLedger horizon ∧
        (finishPoll config startLedger targetLedger lastIndexed (exit, db)).2 =
          db.setLastIndexedLedger (min targetLedger horizon) := by
  rcases exit with _ | _ | _ | horizon
  · exact .inl rfl
  · exact .inl rfl
  · exact .inl (by simp [finishPoll, indexedThroughOf])
  by_cases hbehind : horizon < startLedger
  · exact .inl (by simp [finishPoll, indexedThroughOf, hbehind])
  by_cases hmoves : lastIndexed < min targetLedger horizon
  · exact .inr ⟨horizon, rfl, le_min hstart (not_lt.1 hbehind),
      finishPoll_of_finished hbehind hmoves⟩
  · refine .inl ?_
    simp only [finishPoll, indexedThroughOf, hbehind, if_false, hmoves]

/-- A poll that has something to index. -/
theorem poll_eq_finishPoll {config : Config} {chain : Chain} {rpc : RpcAnswers} {db : ComplianceDb}
    {startLedger latest : ℕ} (hids : ¬config.contractIds.isEmpty = true)
    (hstart : startLedgerOf config rpc db.getLastIndexedLedger = some startLedger)
    (hlatest : rpc.latest = some latest)
    (hdone : ¬(0 < config.endLedger ∧ config.endLedger ≤ db.getLastIndexedLedger))
    (hahead : ¬targetLedgerOf config latest < startLedger) :
    poll config chain rpc db =
      finishPoll config startLedger (targetLedgerOf config latest) db.getLastIndexedLedger
        (fetchPages config chain startLedger (targetLedgerOf config latest)
          db.getLastIndexedLedger rpc.pages none none db) := by
  simp [poll, hids, hstart, hlatest, hdone, hahead]

/-- **What a poll can do.** -/
theorem poll_cases (config : Config) (chain : Chain) (rpc : RpcAnswers) (db : ComplianceDb) :
    (poll config chain rpc db).2 = db ∨
      ∃ startLedger latest new left,
        PollStep config chain rpc db (poll config chain rpc db).2 startLedger latest new left := by
  by_cases hids : config.contractIds.isEmpty = true
  · exact .inl (by simp [poll, hids])
  rcases hstart : startLedgerOf config rpc db.getLastIndexedLedger with _ | startLedger
  · exact .inl (by simp [poll, hids, hstart])
  rcases hlatest : rpc.latest with _ | latest
  · exact .inl (by simp [poll, hids, hstart, hlatest])
  by_cases hdone : 0 < config.endLedger ∧ config.endLedger ≤ db.getLastIndexedLedger
  · exact .inl (by simp [poll, hids, hstart, hlatest, hdone])
  by_cases hahead : targetLedgerOf config latest < startLedger
  · exact .inl (by simp [poll, hids, hstart, hlatest, hdone, hahead])
  obtain ⟨new, left, hfetched⟩ := fetchPages_spec config chain startLedger
    (targetLedgerOf config latest) db.getLastIndexedLedger rpc.pages none none db []
    (chain.watchedFrom config.contractIds startLedger) rfl rfl
  rw [poll_eq_finishPoll hids hstart hlatest hdone hahead]
  rcases hrun : fetchPages config chain startLedger (targetLedgerOf config latest)
    db.getLastIndexedLedger rpc.pages none none db with ⟨exit, db₁⟩
  rw [hrun] at hfetched
  have hwrote := hfetched.wrote
  refine .inr ⟨startLedger, latest, new, left, ?_⟩
  rcases finishPoll_cases config (not_lt.1 hahead) exit db₁ with
    hsame | ⟨horizon, rfl, hle, hset⟩
  · rw [hsame]
    exact ⟨hstart, hlatest, hfetched.rest_eq, hwrote.events_eq, hwrote.auditLog_eq,
      hfetched.reported, .inl hwrote.lastLedger_eq⟩
  · obtain ⟨_, ⟨⟩, hleft⟩ := hfetched.finished _ rfl
    rw [hset]
    exact ⟨hstart, hlatest, hfetched.rest_eq, hwrote.events_eq, hwrote.auditLog_eq,
      hfetched.reported, .inr ⟨_, rfl, hle, min_le_left _ _, fun e he ↦ (hleft e he).symm⟩⟩

/-! ### A chain with one event more than a page holds -/

/-- A circuit breaker. -/
def breakerId : String := "CAAAAAAAAAAAAAAAAAAAAAAAAAAAAAAAAAAAAAAAAAAAAAAAAAAAAAAA"

/-- The breaker is frozen. -/
def frozenEvent (ledger token : ℕ) : RawSorobanEvent where
  ledger := ledger
  ledgerClosedAt := none
  contractId := breakerId
  pagingToken := token
  topic := ["AAAADwAAAAZmcm96ZW4AAA==",
    "AAAAEgAAAAEAAAAAAAAAAAAAAAAAAAAAAAAAAAAAAAAAAAAAAAAAAA=="]
  value := "AAAAEQAAAAEAAAAA"

/-- The breaker is frozen in ledger 1 as often as a page has room for, and once more in ledger 7. -/
def frozenChain : Chain where
  events := (List.range 201).map fun i ↦ frozenEvent (if i < 200 then 1 else 7) i
  ordered := by
    refine List.pairwise_map.2 (List.pairwise_lt_range.imp fun {i j} hij ↦ ?_)
    simp only [frozenEvent]
    split_ifs <;> omega
  tokens := by
    have htokens : List.map RawSorobanEvent.pagingToken
        ((List.range 201).map fun i ↦ frozenEvent (if i < 200 then 1 else 7) i) =
          List.range 201 := by
      rw [List.map_map]
      exact List.map_id _
    rw [htokens]
    exact List.nodup_range

/-- Only the breaker is watched, from ledger 1 on. -/
def breakerConfig : Config where
  allowlistContractId := ""
  denylistContractId := ""
  jurisdictionContractId := ""
  multisigContractId := ""
  aggregatorContractId := ""
  policyEngineContractId := ""
  circuitBreakerContractId := breakerId
  auditLogContractId := ""
  startLedger := 1
  endLedger := 0

/-- Its first page. -/
def frozenPage : List RawSorobanEvent := (List.range 200).map (frozenEvent 1)

theorem getEvents_frozenChain :
    frozenChain.getEvents breakerConfig.contractIds 1 none 10 = frozenPage := by
  decide +kernel

theorem nextCursor_frozenPage : nextCursor frozenPage = some 199 := by
  decide +kernel

/-- The token of an event is no part of its row. -/
theorem decodeEvent_pagingToken (raw : RawSorobanEvent) (token : ℕ) :
    decodeEvent { raw with pagingToken := token } = decodeEvent raw := rfl

/-- A poll of the chain that is told of ledger 10 first reads a full page. -/
theorem poll_frozenChain (pages : List (Option ℕ)) (db : ComplianceDb)
    (hlast : db.lastLedger = none) :
    poll breakerConfig frozenChain ⟨none, some 10, some 10 :: pages⟩ db =
      finishPoll breakerConfig 1 10 0
        (fetchPages breakerConfig frozenChain 1 10 0 pages (some 199) (some 10)
          (db.applyEvents (decodePage 1 10 10 frozenPage))) := by
  have hzero : db.getLastIndexedLedger = 0 := by
    rw [ComplianceDb.getLastIndexedLedger, hlast, Option.getD_none]
  have hstart : startLedgerOf breakerConfig ⟨none, some 10, some 10 :: pages⟩
      db.getLastIndexedLedger = some 1 := by
    rw [hzero]
    rfl
  rw [poll_eq_finishPoll (by decide +kernel) hstart rfl (by simp [breakerConfig])
    (by simp [targetLedgerOf, breakerConfig]), hzero]
  refine congrArg (finishPoll breakerConfig 1 10 0) ?_
  exact fetchPages_of_full getEvents_frozenChain (by decide) (by decide)
    (by simp [pastEnd, breakerConfig]) nextCursor_frozenPage

/-- Told of ledger 5 with the second page, the first poll stores ledger 10 after one page. -/
theorem poll_regressed :
    (poll breakerConfig frozenChain ⟨none, some 10, [some 10, some 5]⟩ .fresh).2 =
      (ComplianceDb.fresh.applyEvents (decodePage 1 10 10 frozenPage)).setLastIndexedLedger 10 := by
  have hpoll := poll_frozenChain [some 5] ComplianceDb.fresh rfl
  rw [fetchPages_of_regressed (by decide) (by decide)] at hpoll
  rw [hpoll]
  exact finishPoll_of_finished (by decide) (by decide)

/-- The rows of the first page are from ledger 1. -/
theorem ledgerSequence_of_mem_decodePage_frozenPage {row : RawEvent}
    (h : row ∈ decodePage 1 10 10 frozenPage) : row.ledgerSequence = 1 := by
  obtain ⟨e, he, hdecode⟩ := List.mem_filterMap.1 h
  obtain ⟨token, -, rfl⟩ := List.mem_map.1 (List.mem_filter.1 he).1
  exact decodeEvent_ledgerSequence hdecode

end Indexer
