import CompliancePrimitives.Indexer.Poll

/-!
# The checkpoint under any server

The polling loop again, this time against a server that need not serve a chain: a `RpcSession` is
whatever answers one poll gets, each call failing where the server likes. Pages may hold anything,
in any order, and the latest ledgers reported from call to call may go up and down.

Three numbers meet in the checkpoint a poll stores: the latest ledger, the configured end, and the
horizon of the last page it accepted. `Bounded` says that it lies at or below each of them and not
below the start ledger, and that a poll which throws, or is told a horizon below the checkpoint,
stores none. The chain's server is one of these (`poll_eq_pollSession`), so this holds of its polls
as well.
-/

namespace Indexer

/-! ### A server without a chain -/

/-- `GetEventsResult`. -/
structure GetEventsResult where
  events : List RawSorobanEvent
  latestLedger : ℕ
  /-- The paging token of the last event is the empty string. -/
  blankToken : Bool
  deriving DecidableEq, Repr

/-- The answers one poll gets, whatever they are; `none` is a call that throws. -/
structure RpcSession where
  /-- To `getLatestLedger`, when the poll asks for the earliest ledger. -/
  earliest : Option ℕ
  /-- To `getLatestLedger`. -/
  latest : Option ℕ
  /-- To each `getEvents` call in turn. -/
  pages : List (Option GetEventsResult)
  deriving DecidableEq, Repr

/-- The ledgers a session reports. -/
def RpcSession.ledgers (rpc : RpcSession) : RpcAnswers where
  earliest := rpc.earliest
  latest := rpc.latest
  pages := rpc.pages.map (Option.map GetEventsResult.latestLedger)

/-- The cursor for the page after this one; an empty token ends the loop as none at all. -/
def GetEventsResult.cursor (result : GetEventsResult) : Option ℕ :=
  if result.blankToken then none else nextCursor result.events

/-- The pagination loop, page by page. -/
def fetchResults (config : Config) (startLedger targetLedger lastIndexed : ℕ) :
    List (Option GetEventsResult) → (eventHorizon : Option ℕ) → ComplianceDb →
      PageExit × ComplianceDb
  | [], _, db => (.thrown, db)
  | none :: _, _, db => (.thrown, db)
  | some result :: pages, eventHorizon, db =>
    if result.latestLedger < lastIndexed then (.returned, db)
    else if regressed eventHorizon result.latestLedger then (.finished eventHorizon, db)
    else
      let db := db.applyEvents
        (decodePage startLedger targetLedger result.latestLedger result.events)
      if pastEnd config targetLedger result.events then (.finished (some result.latestLedger), db)
      else if result.cursor.isSome then
        fetchResults config startLedger targetLedger lastIndexed pages (some result.latestLedger) db
      else (.finished (some result.latestLedger), db)

/-- `poll`, against whatever answers. -/
def pollSession (config : Config) (rpc : RpcSession) (db : ComplianceDb) :
    PollResult × ComplianceDb :=
  if config.contractIds.isEmpty then (.resolved false, db)
  else
    let lastIndexed := db.getLastIndexedLedger
    match startLedgerOf config rpc.ledgers lastIndexed, rpc.latest with
    | some startLedger, some latest =>
      let targetLedger := targetLedgerOf config latest
      if 0 < config.endLedger ∧ config.endLedger ≤ lastIndexed then (.resolved true, db)
      else if targetLedger < startLedger then (.resolved false, db)
      else
        finishPoll config startLedger targetLedger lastIndexed
          (fetchResults config startLedger targetLedger lastIndexed rpc.pages none db)
    | _, _ => (.rejected, db)

/-- The indexer polling whatever servers, from a fresh database on. -/
def sessionSystem (config : Config) : System ComplianceDb RpcSession PollResult where
  start := .fresh
  exec := pollSession config

/-! ### What a poll gets to see -/

/-- The loop asks for another page behind this one. -/
def goesOn (config : Config) (targetLedger : ℕ) (result : GetEventsResult) : Bool :=
  !pastEnd config targetLedger result.events && result.cursor.isSome

/-- The pages a poll takes: each neither below the checkpoint nor below the page before. Of a page
that is not, and ends the loop, as much as `atStop` says. -/
def pagesRead (config : Config) (targetLedger lastIndexed : ℕ)
    (atStop : GetEventsResult → List GetEventsResult) :
    List (Option GetEventsResult) → (eventHorizon : Option ℕ) → List GetEventsResult
  | some result :: pages, eventHorizon =>
    if result.latestLedger < lastIndexed ∨ regressed eventHorizon result.latestLedger then
      atStop result
    else if goesOn config targetLedger result then
      result :: pagesRead config targetLedger lastIndexed atStop pages (some result.latestLedger)
    else [result]
  | _, _ => []

/-- The pages a poll accepts. -/
def acceptedPages (config : Config) (targetLedger lastIndexed : ℕ) :
    List (Option GetEventsResult) → (eventHorizon : Option ℕ) → List GetEventsResult :=
  pagesRead config targetLedger lastIndexed fun _ ↦ []

/-- The pages a poll is answered with, the one it may stop at among them. -/
def seenPages (config : Config) (targetLedger lastIndexed : ℕ) :
    List (Option GetEventsResult) → (eventHorizon : Option ℕ) → List GetEventsResult :=
  pagesRead config targetLedger lastIndexed fun result ↦ [result]

/-- The rows of some pages. -/
def pageRows (startLedger targetLedger : ℕ) (pages : List GetEventsResult) : List RawEvent :=
  pages.flatMap fun result ↦
    decodePage startLedger targetLedger result.latestLedger result.events

/-- **How the pagination loop is left**, in terms of the pages accepted and seen. -/
structure LoopSpec (config : Config) (startLedger targetLedger lastIndexed : ℕ)
    (pages : List (Option GetEventsResult)) (eventHorizon : Option ℕ) (db : ComplianceDb)
    (left : PageExit × ComplianceDb) : Prop where
  /-- What is written is the rows of the accepted pages. -/
  rows_eq : left.2 = db.applyEvents (pageRows startLedger targetLedger
    (acceptedPages config targetLedger lastIndexed pages eventHorizon))
  /-- The horizon it ends with is that of the last accepted page. -/
  horizon_eq : ∀ horizon, left.1 = .finished horizon → horizon =
    ((acceptedPages config targetLedger lastIndexed pages eventHorizon).getLast?.map
      GetEventsResult.latestLedger).or eventHorizon
  /-- The loop returns at once exactly if a page it has seen is below the checkpoint. -/
  returned_iff : left.1 = .returned ↔
    ∃ result ∈ seenPages config targetLedger lastIndexed pages eventHorizon,
      result.latestLedger < lastIndexed

section

variable {config : Config} {startLedger targetLedger lastIndexed : ℕ} {result : GetEventsResult}
  {pages : List (Option GetEventsResult)} {eventHorizon : Option ℕ} {db : ComplianceDb}
  {atStop : GetEventsResult → List GetEventsResult}

theorem pagesRead_of_refused
    (h : result.latestLedger < lastIndexed ∨ regressed eventHorizon result.latestLedger = true) :
    pagesRead config targetLedger lastIndexed atStop (some result :: pages) eventHorizon =
      atStop result :=
  if_pos h

theorem pagesRead_of_goesOn
    (h : ¬(result.latestLedger < lastIndexed ∨ regressed eventHorizon result.latestLedger = true))
    (hnext : goesOn config targetLedger result = true) :
    pagesRead config targetLedger lastIndexed atStop (some result :: pages) eventHorizon =
      result ::
        pagesRead config targetLedger lastIndexed atStop pages (some result.latestLedger) := by
  rw [pagesRead, if_neg h, if_pos hnext]

theorem pagesRead_of_last
    (h : ¬(result.latestLedger < lastIndexed ∨ regressed eventHorizon result.latestLedger = true))
    (hlast : ¬goesOn config targetLedger result = true) :
    pagesRead config targetLedger lastIndexed atStop (some result :: pages) eventHorizon =
      [result] := by
  rw [pagesRead, if_neg h, if_neg hlast]

/-- Behind a page that is not the last, the loop goes on. -/
theorem fetchResults_of_goesOn
    (h : ¬(result.latestLedger < lastIndexed ∨ regressed eventHorizon result.latestLedger = true))
    (hnext : goesOn config targetLedger result = true) :
    fetchResults config startLedger targetLedger lastIndexed (some result :: pages) eventHorizon
        db =
      fetchResults config startLedger targetLedger lastIndexed pages (some result.latestLedger)
        (db.applyEvents
          (decodePage startLedger targetLedger result.latestLedger result.events)) := by
  obtain ⟨hbelow, hregressed⟩ := not_or.1 h
  obtain ⟨hpast, hcursor⟩ : pastEnd config targetLedger result.events = false ∧
      result.cursor.isSome = true := by simpa [goesOn] using hnext
  rw [fetchResults, if_neg hbelow, if_neg hregressed, if_neg (by simp [hpast]), if_pos hcursor]

/-- The last page is applied, and its horizon is the last. -/
theorem fetchResults_of_last
    (h : ¬(result.latestLedger < lastIndexed ∨ regressed eventHorizon result.latestLedger = true))
    (hlast : ¬goesOn config targetLedger result = true) :
    fetchResults config startLedger targetLedger lastIndexed (some result :: pages) eventHorizon
        db =
      (.finished (some result.latestLedger), db.applyEvents
        (decodePage startLedger targetLedger result.latestLedger result.events)) := by
  obtain ⟨hbelow, hregressed⟩ := not_or.1 h
  rw [fetchResults, if_neg hbelow, if_neg hregressed]
  by_cases hpast : pastEnd config targetLedger result.events = true
  · exact if_pos hpast
  · have hcursor : ¬result.cursor.isSome = true := by simpa [goesOn, hpast] using hlast
    rw [if_neg hpast, if_neg hcursor]

/-- Where no page is accepted, nothing is written and the horizon stays as it was. -/
theorem LoopSpec.of_nothing {exit : PageExit}
    (hnone : acceptedPages config targetLedger lastIndexed pages eventHorizon = [])
    (hexit : ∀ horizon, exit = .finished horizon → horizon = eventHorizon)
    (hreturned : exit = .returned ↔
      ∃ result ∈ seenPages config targetLedger lastIndexed pages eventHorizon,
        result.latestLedger < lastIndexed) :
    LoopSpec config startLedger targetLedger lastIndexed pages eventHorizon db (exit, db) where
  rows_eq := by rw [hnone]; rfl
  horizon_eq horizon h := by
    rw [hnone]
    exact hexit horizon h
  returned_iff := hreturned

/-- **The loop meets its specification**, whatever it is answered. -/
theorem loopSpec_fetchResults (config : Config) (startLedger targetLedger lastIndexed : ℕ)
    (pages : List (Option GetEventsResult)) (eventHorizon : Option ℕ) (db : ComplianceDb) :
    LoopSpec config startLedger targetLedger lastIndexed pages eventHorizon db
      (fetchResults config startLedger targetLedger lastIndexed pages eventHorizon db) := by
  induction pages generalizing eventHorizon db with
  | nil => exact .of_nothing rfl (by simp) (by simp [seenPages, pagesRead])
  | cons answer pages ih =>
    rcases answer with _ | result
    · exact .of_nothing rfl (by simp) (by simp [seenPages, pagesRead])
    by_cases hbelow : result.latestLedger < lastIndexed
    · rw [fetchResults, if_pos hbelow]
      refine .of_nothing (pagesRead_of_refused (.inl hbelow)) (by simp) ?_
      rw [seenPages, pagesRead_of_refused (.inl hbelow)]
      simpa using hbelow
    by_cases hregressed : regressed eventHorizon result.latestLedger = true
    · rw [fetchResults, if_neg hbelow, if_pos hregressed]
      refine .of_nothing (pagesRead_of_refused (.inr hregressed))
        (fun horizon h ↦ (PageExit.finished.inj h).symm) ?_
      rw [seenPages, pagesRead_of_refused (.inr hregressed)]
      simpa using hbelow
    have haccepted := not_or.2 ⟨hbelow, hregressed⟩
    by_cases hnext : goesOn config targetLedger result = true
    · obtain ⟨hrows, hhorizon, hreturned⟩ := ih (some result.latestLedger)
        (db.applyEvents (decodePage startLedger targetLedger result.latestLedger result.events))
      rw [fetchResults_of_goesOn haccepted hnext]
      refine ⟨?_, fun horizon h ↦ ?_, ?_⟩
      · rw [hrows, acceptedPages, pagesRead_of_goesOn haccepted hnext,
          pageRows, pageRows, List.flatMap_cons, ComplianceDb.applyEvents_append]
      -- the horizon of the pages behind, or else the one just accepted
      · rw [hhorizon horizon h, acceptedPages,
          pagesRead_of_goesOn haccepted hnext, List.getLast?_cons]
        rcases (pagesRead config targetLedger lastIndexed (fun _ ↦ []) pages
          (some result.latestLedger)).getLast? with _ | last <;> rfl
      · rw [hreturned, seenPages, pagesRead_of_goesOn haccepted hnext,
          List.exists_mem_cons_iff]
        exact (or_iff_right hbelow).symm
    · rw [fetchResults_of_last haccepted hnext]
      refine ⟨?_, fun horizon h ↦ ?_, ?_⟩
      · rw [acceptedPages, pagesRead_of_last haccepted hnext, pageRows, List.flatMap_singleton]
      · rw [acceptedPages, pagesRead_of_last haccepted hnext]
        exact (PageExit.finished.inj h).symm
      · rw [seenPages, pagesRead_of_last haccepted hnext]
        simpa using hbelow

end

/-! ### Where the checkpoint can go -/

/-- **A poll may store this ledger**: it is within what the poll asked for, was configured to, and
was told. -/
def Covers (config : Config) (rpc : RpcSession) (db : ComplianceDb) (ledger : ℕ) : Prop :=
  ∃ startLedger latest,
    startLedgerOf config rpc.ledgers db.getLastIndexedLedger = some startLedger ∧
    rpc.latest = some latest ∧ startLedger ≤ ledger ∧ ledger ≤ latest ∧
    (0 < config.endLedger → ledger ≤ config.endLedger) ∧
    ∃ last ∈ (acceptedPages config (targetLedgerOf config latest) db.getLastIndexedLedger
      rpc.pages none).getLast?, ledger ≤ last.latestLedger

/-- **The horizon falls below the checkpoint** on a page the poll is answered with. -/
def SeesFall (config : Config) (rpc : RpcSession) (db : ComplianceDb) : Prop :=
  ∃ latest, rpc.latest = some latest ∧
    ∃ result ∈ seenPages config (targetLedgerOf config latest) db.getLastIndexedLedger rpc.pages
      none, result.latestLedger < db.getLastIndexedLedger

/-- What every poll keeps to with the checkpoint. -/
structure Bounded (config : Config) (poll : Step ComplianceDb RpcSession PollResult) : Prop where
  /-- The checkpoint does not fall. -/
  grows : poll.pre.getLastIndexedLedger ≤ poll.post.getLastIndexedLedger
  /-- A checkpoint that moved is covered by what the server told. -/
  moves : ∀ ledger, poll.post.getLastIndexedLedger = ledger →
    ledger ≠ poll.pre.getLastIndexedLedger → Covers config poll.input poll.pre ledger
  /-- A poll that throws does not move it, -/
  throws : poll.result = .rejected →
    poll.post.getLastIndexedLedger = poll.pre.getLastIndexedLedger
  /-- and neither does one that is told of a ledger below it. -/
  falls : SeesFall config poll.input poll.pre →
    poll.post.getLastIndexedLedger = poll.pre.getLastIndexedLedger

section

variable {config : Config} {rpc : RpcSession} {db : ComplianceDb} {startLedger latest : ℕ}

theorem getLastIndexedLedger_applyEvents (rows : List RawEvent) (db : ComplianceDb) :
    (db.applyEvents rows).getLastIndexedLedger = db.getLastIndexedLedger := by
  rw [ComplianceDb.getLastIndexedLedger, (ComplianceDb.applyEvents_spec rows db).2.1]
  rfl

theorem targetLedgerOf_le (config : Config) (latest : ℕ) :
    targetLedgerOf config latest ≤ latest := by
  unfold targetLedgerOf
  split_ifs
  · exact min_le_left _ _
  · exact le_rfl

theorem targetLedgerOf_le_endLedger (latest : ℕ) (hend : 0 < config.endLedger) :
    targetLedgerOf config latest ≤ config.endLedger := by
  rw [targetLedgerOf, if_pos hend]
  exact min_le_right _ _

/-- A poll leaves the database alone, or goes through the pagination loop. -/
theorem pollSession_cases (config : Config) (rpc : RpcSession) (db : ComplianceDb) :
    (pollSession config rpc db).2 = db ∨
      ∃ startLedger latest,
        startLedgerOf config rpc.ledgers db.getLastIndexedLedger = some startLedger ∧
        rpc.latest = some latest ∧ startLedger ≤ targetLedgerOf config latest ∧
        pollSession config rpc db =
          finishPoll config startLedger (targetLedgerOf config latest) db.getLastIndexedLedger
            (fetchResults config startLedger (targetLedgerOf config latest)
              db.getLastIndexedLedger rpc.pages none db) := by
  by_cases hids : config.contractIds.isEmpty = true
  · exact .inl (by rw [pollSession, if_pos hids])
  rcases hstart : startLedgerOf config rpc.ledgers db.getLastIndexedLedger with _ | startLedger
  · exact .inl (by simp [pollSession, hids, hstart])
  rcases hlatest : rpc.latest with _ | latest
  · exact .inl (by simp [pollSession, hids, hstart, hlatest])
  by_cases hdone : 0 < config.endLedger ∧ config.endLedger ≤ db.getLastIndexedLedger
  · exact .inl (by simp [pollSession, hids, hstart, hlatest, hdone])
  by_cases hupToDate : targetLedgerOf config latest < startLedger
  · exact .inl (by simp [pollSession, hids, hstart, hlatest, hdone, hupToDate])
  refine .inr ⟨startLedger, latest, rfl, rfl, not_lt.1 hupToDate, ?_⟩
  simp [pollSession, hids, hstart, hlatest, hdone, hupToDate]

/-- What a poll stores that goes through the loop is a ledger it may store. -/
theorem covers_of_finished
    (hstart : startLedgerOf config rpc.ledgers db.getLastIndexedLedger = some startLedger)
    (hlatest : rpc.latest = some latest) (htarget : startLedger ≤ targetLedgerOf config latest)
    {eventHorizon : Option ℕ}
    (hhorizon : eventHorizon = (acceptedPages config (targetLedgerOf config latest)
      db.getLastIndexedLedger rpc.pages none).getLast?.map GetEventsResult.latestLedger)
    (hforward : db.getLastIndexedLedger < indexedThroughOf startLedger
      (targetLedgerOf config latest) db.getLastIndexedLedger eventHorizon) :
    Covers config rpc db (indexedThroughOf startLedger (targetLedgerOf config latest)
      db.getLastIndexedLedger eventHorizon) := by
  rcases hlast : (acceptedPages config (targetLedgerOf config latest) db.getLastIndexedLedger
    rpc.pages none).getLast? with _ | last
  · rw [hhorizon, hlast] at hforward
    exact absurd hforward (lt_irrefl _)
  rw [hlast, Option.map_some] at hhorizon
  subst hhorizon
  by_cases hbehind : last.latestLedger < startLedger
  · rw [indexedThroughOf, if_pos hbehind] at hforward
    exact absurd hforward (lt_irrefl _)
  rw [indexedThroughOf, if_neg hbehind]
  refine ⟨startLedger, latest, hstart, hlatest, le_min htarget (not_lt.1 hbehind), ?_,
    fun hend ↦ ?_, last, hlast, min_le_right _ _⟩
  · exact (min_le_left _ _).trans (targetLedgerOf_le config latest)
  · exact (min_le_left _ _).trans (targetLedgerOf_le_endLedger latest hend)

/-- A poll that keeps the checkpoint keeps to everything. -/
theorem bounded_of_kept {poll : Step ComplianceDb RpcSession PollResult}
    (h : poll.post.getLastIndexedLedger = poll.pre.getLastIndexedLedger) : Bounded config poll where
  grows := h.ge
  moves _ hledger hne := absurd (hledger.symm.trans h) hne
  throws _ := h
  falls _ := h

/-- A poll whose loop is finished has seen no page below the checkpoint. -/
theorem not_seesFall_of_finished {left : PageExit × ComplianceDb} {eventHorizon : Option ℕ}
    (hlatest : rpc.latest = some latest)
    (hspec : LoopSpec config startLedger (targetLedgerOf config latest) db.getLastIndexedLedger
      rpc.pages none db left) (hexit : left.1 = .finished eventHorizon) :
    ¬SeesFall config rpc db := by
  rintro ⟨reported, hreported, hfall⟩
  obtain rfl := Option.some.inj (hlatest.symm.trans hreported)
  cases hexit.symm.trans (hspec.returned_iff.2 hfall)

/-- **One poll.** -/
theorem bounded_pollSession (config : Config) (rpc : RpcSession) (db : ComplianceDb) :
    Bounded config ((sessionSystem config).stepFrom db rpc) := by
  obtain hsame | ⟨startLedger, latest, hstart, hlatest, htarget, hpoll⟩ :=
    pollSession_cases config rpc db
  · exact bounded_of_kept (congrArg ComplianceDb.getLastIndexedLedger hsame)
  have hspec := loopSpec_fetchResults config startLedger (targetLedgerOf config latest)
    db.getLastIndexedLedger rpc.pages none db
  have hpost : ((sessionSystem config).stepFrom db rpc).post = (pollSession config rpc db).2 := rfl
  rcases hleft : fetchResults config startLedger (targetLedgerOf config latest)
    db.getLastIndexedLedger rpc.pages none db with ⟨exit, left⟩
  rw [hleft] at hpoll hspec
  -- the loop itself writes rows only
  have hkept : left.getLastIndexedLedger = db.getLastIndexedLedger := by
    rw [show left = _ from hspec.rows_eq]
    exact getLastIndexedLedger_applyEvents _ db
  rcases exit with _ | _ | eventHorizon
  · exact bounded_of_kept (by rw [hpost, hpoll]; exact hkept)
  · exact bounded_of_kept (by rw [hpost, hpoll]; exact hkept)
  by_cases hforward : db.getLastIndexedLedger < indexedThroughOf startLedger
      (targetLedgerOf config latest) db.getLastIndexedLedger eventHorizon
  · have hmoved : (pollSession config rpc db).2.getLastIndexedLedger = indexedThroughOf startLedger
        (targetLedgerOf config latest) db.getLastIndexedLedger eventHorizon := by
      rw [hpoll, finishPoll, if_pos hforward]
      rfl
    refine ⟨hmoved ▸ hforward.le, ?_, fun hrejected ↦ ?_, fun hfall ↦ ?_⟩
    · rintro ledger hledger -
      obtain rfl := hmoved.symm.trans hledger
      exact covers_of_finished hstart hlatest htarget
        ((hspec.horizon_eq eventHorizon rfl).trans Option.or_none) hforward
    · cases (congrArg Prod.fst hpoll).symm.trans hrejected
    · exact absurd hfall (not_seesFall_of_finished hlatest hspec rfl)
  · refine bounded_of_kept ?_
    rw [hpost, hpoll, finishPoll, if_neg hforward]
    exact hkept

end

/-- **The checkpoint only moves forward, within what the poll was told.** -/
theorem checkpoint_bounded (config : Config) (db : ComplianceDb) (polls : List RpcSession) :
    (∀ earlier, earlier <:+ polls →
      (((sessionSystem config).startingAt db).final earlier).getLastIndexedLedger ≤
        (((sessionSystem config).startingAt db).final polls).getLastIndexedLedger) ∧
    ∀ poll ∈ ((sessionSystem config).startingAt db).history polls, Bounded config poll := by
  have hbounded : ∀ poll ∈ ((sessionSystem config).startingAt db).history polls,
      Bounded config poll := by
    intro poll hpoll
    rw [(sessionSystem config).eq_stepFrom_of_mem_history hpoll]
    exact bounded_pollSession config poll.input poll.pre
  refine ⟨?_, hbounded⟩
  rintro earlier ⟨later, rfl⟩
  induction later with
  | nil => exact le_rfl
  | cons rpc later ih =>
    rw [List.cons_append, System.history_cons, List.forall_mem_cons] at hbounded
    exact (ih hbounded.2).trans hbounded.1.grows

/-! ### The server of a chain -/

/-- The pages the chain's server answers a poll with. -/
def Chain.results (chain : Chain) (contractIds : List String) (startLedger : ℕ) :
    List (Option ℕ) → (cursor : Option ℕ) → List (Option GetEventsResult)
  | some latestLedger :: pages, cursor =>
    let events := chain.getEvents contractIds startLedger cursor latestLedger
    some ⟨events, latestLedger, false⟩ ::
      match nextCursor events with
      | some token => chain.results contractIds startLedger pages (some token)
      | none => []
  | _, _ => []

/-- A poll's session with the chain's server. -/
def Chain.session (chain : Chain) (config : Config) (rpc : RpcAnswers) (db : ComplianceDb) :
    RpcSession where
  earliest := rpc.earliest
  latest := rpc.latest
  pages := chain.results config.contractIds
    ((startLedgerOf config rpc db.getLastIndexedLedger).getD 0) rpc.pages none

theorem fetchPages_eq_fetchResults (config : Config) (chain : Chain)
    (startLedger targetLedger lastIndexed : ℕ) (pages : List (Option ℕ))
    (cursor eventHorizon : Option ℕ) (db : ComplianceDb) :
    fetchPages config chain startLedger targetLedger lastIndexed pages cursor eventHorizon db =
      fetchResults config startLedger targetLedger lastIndexed
        (chain.results config.contractIds startLedger pages cursor) eventHorizon db := by
  induction pages generalizing cursor eventHorizon db with
  | nil => rfl
  | cons answer pages ih =>
    rcases answer with _ | latestLedger
    · rfl
    rw [fetchPages, Chain.results, fetchResults]
    rcases hnext : nextCursor (chain.getEvents config.contractIds startLedger cursor latestLedger)
      with _ | token
    · simp [GetEventsResult.cursor, hnext]
    · simp [GetEventsResult.cursor, hnext, ih]

/-- **A poll of the chain's server is a poll of a server.** -/
theorem poll_eq_pollSession (config : Config) (chain : Chain) (rpc : RpcAnswers)
    (db : ComplianceDb) :
    poll config chain rpc db = pollSession config (chain.session config rpc db) db := by
  have hstart : startLedgerOf config (chain.session config rpc db).ledgers
      db.getLastIndexedLedger = startLedgerOf config rpc db.getLastIndexedLedger := rfl
  have hlatest : (chain.session config rpc db).latest = rpc.latest := rfl
  simp only [poll, pollSession, hstart, hlatest]
  rcases hledger : startLedgerOf config rpc db.getLastIndexedLedger with _ | startLedger
  · rfl
  · simp only [fetchPages_eq_fetchResults, Chain.session, hledger, Option.getD_some]
    cases rpc.latest <;> rfl

end Indexer
