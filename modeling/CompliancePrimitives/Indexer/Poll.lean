import CompliancePrimitives.Foundation.PagedLog
import CompliancePrimitives.Foundation.Run
import CompliancePrimitives.Indexer.Database

/-!
# The polling loop

One `poll` reads the events of the watched contracts page by page and moves the checkpoint. What it
talks to is a `Chain`, the events the run will ever see, behind a server that answers each call with
the next page and with whatever latest ledger it likes, or not at all. So a poll is a function of
the database and of the server's `RpcAnswers`, and its run is a `System` over lists of these.

Every page is applied as soon as it is there, while the checkpoint moves once at the end. A poll
can stop in between — the server fails, or reports a ledger below the checkpoint — and then the
pages applied so far stay.

The loop takes one answer of the server for each page. A list of answers that ends counts as a
server that fails from there on, so no poll is left without an outcome.
-/

namespace Indexer

/-! ### Configuration and server -/

/-- `Config`, as far as `poll` reads it. -/
structure Config where
  allowlistContractId : String
  denylistContractId : String
  jurisdictionContractId : String
  multisigContractId : String
  aggregatorContractId : String
  policyEngineContractId : String
  circuitBreakerContractId : String
  auditLogContractId : String
  startLedger : ℕ
  /-- Stop after indexing this ledger; 0 keeps polling indefinitely. -/
  endLedger : ℕ
  deriving DecidableEq, Repr

/-- The contracts that are configured. -/
def Config.contractIds (config : Config) : List String :=
  [config.allowlistContractId, config.denylistContractId, config.jurisdictionContractId,
    config.multisigContractId, config.aggregatorContractId, config.policyEngineContractId,
    config.circuitBreakerContractId, config.auditLogContractId].filter (!·.isEmpty)

/-- The contract events of a chain, in ledger order, with a paging token for each. -/
structure Chain where
  events : List RawSorobanEvent
  ordered : PagedLog.Ordered RawSorobanEvent.ledger events
  tokens : (events.map RawSorobanEvent.pagingToken).Nodup

/-- The events of some contracts. -/
def Chain.watched (chain : Chain) (contractIds : List String) : List RawSorobanEvent :=
  chain.events.filter fun e ↦ decide (e.contractId ∈ contractIds)

/-- The events of some contracts from a ledger on. -/
def Chain.watchedFrom (chain : Chain) (contractIds : List String) (startLedger : ℕ) :
    List RawSorobanEvent :=
  (chain.watched contractIds).filter fun e ↦ decide (startLedger ≤ e.ledger)

/-- Events in a page. -/
def pageLimit : ℕ := 200

/-- The events the server returns for a `getEvents` call it reports `latestLedger` with. -/
def Chain.getEvents (chain : Chain) (contractIds : List String) (startLedger : ℕ)
    (cursor : Option ℕ) (latestLedger : ℕ) : List RawSorobanEvent :=
  PagedLog.page RawSorobanEvent.ledger pageLimit latestLedger
    (PagedLog.after RawSorobanEvent.pagingToken (chain.watchedFrom contractIds startLedger) cursor)

/-- What the server answers to the calls of one poll; `none` is a call that throws. -/
structure RpcAnswers where
  /-- To `getLatestLedger`, when the poll asks for the earliest ledger. -/
  earliest : Option ℕ
  /-- To `getLatestLedger`. -/
  latest : Option ℕ
  /-- The `latestLedger` of each `getEvents` call in turn. -/
  pages : List (Option ℕ)

/-! ### One poll -/

/-- How many ledgers `getEarliestAvailableLedger` goes back. -/
def retention : ℕ := 17280

/-- `getEarliestAvailableLedger`, from the latest ledger. -/
def earliestAvailableLedger (latest : ℕ) : ℕ := max 1 (latest - retention)

/-- Where a poll starts; `none` if it throws while finding out. -/
def startLedgerOf (config : Config) (rpc : RpcAnswers) (lastIndexed : ℕ) : Option ℕ :=
  if 0 < lastIndexed then some (lastIndexed + 1)
  else if 0 < config.startLedger then some config.startLedger
  else rpc.earliest.map earliestAvailableLedger

/-- Where a poll ends, from the latest ledger. -/
def targetLedgerOf (config : Config) (latest : ℕ) : ℕ :=
  if 0 < config.endLedger then min latest config.endLedger else latest

/-- The rows of a page. -/
def decodePage (startLedger targetLedger latestLedger : ℕ) (events : List RawSorobanEvent) :
    List RawEvent :=
  (events.filter fun e ↦
    decide (startLedger ≤ e.ledger ∧ e.ledger ≤ targetLedger ∧ e.ledger ≤ latestLedger)).filterMap
      decodeEvent

/-- A page is reported with a lower latest ledger than the page before. -/
def regressed (eventHorizon : Option ℕ) (latestLedger : ℕ) : Bool :=
  match eventHorizon with
  | none => false
  | some horizon => decide (latestLedger < horizon)

/-- The cursor for the page after a full one. -/
def nextCursor (events : List RawSorobanEvent) : Option ℕ :=
  if events.length = pageLimit then events.getLast?.map RawSorobanEvent.pagingToken else none

/-- A backfill has seen an event beyond its end. -/
def pastEnd (config : Config) (targetLedger : ℕ) (events : List RawSorobanEvent) : Bool :=
  decide (0 < config.endLedger) && events.any fun e ↦ decide (targetLedger < e.ledger)

/-- How the pagination loop is left. -/
inductive PageExit where
  /-- The server failed. -/
  | thrown
  /-- The server reported a ledger below the checkpoint. -/
  | returned
  /-- The loop ended or was broken out of. -/
  | finished (eventHorizon : Option ℕ)
  deriving DecidableEq, Repr

/-- The pagination loop. A page without rows is not applied in the source, which comes to the same
as applying none. -/
def fetchPages (config : Config) (chain : Chain) (startLedger targetLedger lastIndexed : ℕ) :
    List (Option ℕ) → (cursor eventHorizon : Option ℕ) → ComplianceDb → PageExit × ComplianceDb
  | [], _, _, db => (.thrown, db)
  | none :: _, _, _, db => (.thrown, db)
  | some latestLedger :: pages, cursor, eventHorizon, db =>
    let events := chain.getEvents config.contractIds startLedger cursor latestLedger
    if latestLedger < lastIndexed then (.returned, db)
    -- the page in hand is dropped, but the horizon of the page before is kept
    else if regressed eventHorizon latestLedger then (.finished eventHorizon, db)
    else
      let db := db.applyEvents (decodePage startLedger targetLedger latestLedger events)
      -- a page that is not full, or reaches past the end of a backfill, is the last one
      if pastEnd config targetLedger events then (.finished (some latestLedger), db)
      else
        match nextCursor events with
        | some token =>
          fetchPages config chain startLedger targetLedger lastIndexed pages (some token)
            (some latestLedger) db
        | none => (.finished (some latestLedger), db)

/-- The ledger a poll has indexed through. -/
def indexedThroughOf (startLedger targetLedger lastIndexed : ℕ) (eventHorizon : Option ℕ) : ℕ :=
  match eventHorizon with
  | none => lastIndexed
  | some horizon => if horizon < startLedger then lastIndexed else min targetLedger horizon

/-- How a poll ends: it resolves, having set `running` to false or not, or it rejects. -/
inductive PollResult where
  | resolved (stopped : Bool)
  | rejected
  deriving DecidableEq, Repr

/-- What `poll` does after the pagination loop. -/
def finishPoll (config : Config) (startLedger targetLedger lastIndexed : ℕ) :
    PageExit × ComplianceDb → PollResult × ComplianceDb
  | (.thrown, db) => (.rejected, db)
  | (.returned, db) => (.resolved false, db)
  | (.finished eventHorizon, db) =>
    let indexedThrough := indexedThroughOf startLedger targetLedger lastIndexed eventHorizon
    -- the checkpoint only moves forward
    (.resolved (decide (0 < config.endLedger ∧ config.endLedger ≤ indexedThrough)),
      if lastIndexed < indexedThrough then db.setLastIndexedLedger indexedThrough else db)

/-- `poll`. -/
def poll (config : Config) (chain : Chain) (rpc : RpcAnswers) (db : ComplianceDb) :
    PollResult × ComplianceDb :=
  if config.contractIds.isEmpty then (.resolved false, db)
  else
    let lastIndexed := db.getLastIndexedLedger
    match startLedgerOf config rpc lastIndexed, rpc.latest with
    | some startLedger, some latest =>
      let targetLedger := targetLedgerOf config latest
      if 0 < config.endLedger ∧ config.endLedger ≤ lastIndexed then (.resolved true, db)
      else if targetLedger < startLedger then (.resolved false, db)
      else
        finishPoll config startLedger targetLedger lastIndexed
          (fetchPages config chain startLedger targetLedger lastIndexed rpc.pages none none db)
    | _, _ => (.rejected, db)

/-- The indexer from a fresh database on, poll after poll. -/
def system (config : Config) (chain : Chain) : System ComplianceDb RpcAnswers PollResult where
  start := .fresh
  exec := poll config chain

section

variable {config : Config} {chain : Chain} {rpc : RpcAnswers} {inputs : List RpcAnswers}

@[simp]
theorem final_system_nil : (system config chain).final [] = .fresh := rfl

@[simp]
theorem final_system_cons :
    (system config chain).final (rpc :: inputs) =
      (poll config chain rpc ((system config chain).final inputs)).2 := rfl

end

end Indexer
