import CompliancePrimitives.Indexer.WholePolls

/-!
# The indexer as a process

What runs `poll`: the methods `start`, `stop` and `pollOnce` of `Indexer`, the timer between two
polls, and the server, which lets a poll wait at each of its requests. So a poll is not one step
here. It is a `Flight` that stops at each `await` and goes on with the answer (`Flight.resume`), and
anything may happen in between: another call, a timer that goes off, an answer to another poll, or
the end of the process.

A process that ends leaves its database, since every write is flushed to the file, and the next one
starts on it, with the configuration it is given then.

The health server is a slot, the time of the last poll that completed, and what `/health` and
`/status` make of it. The texts logged are left out, and the request at each `await` is `request`
with all its retries.
-/

namespace Indexer

/-! ### A poll in flight -/

/-- What a poll waits for. -/
inductive Awaiting where
  /-- The latest ledger, in `getEarliestAvailableLedger`. -/
  | earliest
  /-- The latest ledger. -/
  | latest (startLedger : ℕ)
  /-- A page. -/
  | page (startLedger targetLedger : ℕ) (cursor eventHorizon : Option ℕ)
  deriving DecidableEq, Repr

/-- The horizon of the page before. -/
def Awaiting.eventHorizon : Awaiting → Option ℕ
  | .page _ _ _ eventHorizon => eventHorizon
  | _ => none

/-- A poll in flight. -/
structure Flight where
  /-- Whether `tick` has started it. -/
  ticking : Bool
  lastIndexed : ℕ
  awaiting : Awaiting
  deriving DecidableEq, Repr

/-- What a poll comes to: it waits, or it ends. -/
inductive Outcome where
  | waits (awaiting : Awaiting)
  | ends (result : PollResult)
  deriving DecidableEq, Repr

/-- A poll that has left its loop. -/
def Outcome.ended (r : PollResult × ComplianceDb) : Outcome × ComplianceDb := (.ends r.1, r.2)

/-- `poll`, up to its first request. -/
def beginPoll (config : Config) (lastIndexed : ℕ) : Outcome :=
  if config.contractIds.isEmpty then .ends (.resolved false)
  else if 0 < lastIndexed then .waits (.latest (lastIndexed + 1))
  else if 0 < config.startLedger then .waits (.latest config.startLedger)
  else .waits .earliest

/-- `poll`, from an answer to the next request. -/
def Flight.resume (config : Config) (chain : Chain) (flight : Flight) (answer : Option ℕ)
    (db : ComplianceDb) : Outcome × ComplianceDb :=
  match flight.awaiting, answer with
  | _, none => (.ends .rejected, db)
  | .earliest, some latest => (.waits (.latest (earliestAvailableLedger latest)), db)
  | .latest startLedger, some latest =>
    let targetLedger := targetLedgerOf config latest
    if 0 < config.endLedger ∧ config.endLedger ≤ flight.lastIndexed then
      (.ends (.resolved true), db)
    else if targetLedger < startLedger then (.ends (.resolved false), db)
    else (.waits (.page startLedger targetLedger none none), db)
  | .page startLedger targetLedger cursor eventHorizon, some latestLedger =>
    let finish := fun left ↦
      Outcome.ended (finishPoll config startLedger targetLedger flight.lastIndexed left)
    let events := chain.getEvents config.contractIds startLedger cursor latestLedger
    if latestLedger < flight.lastIndexed then (.ends (.resolved false), db)
    else if regressed eventHorizon latestLedger then finish (.finished eventHorizon, db)
    else
      let db := db.applyEvents (decodePage startLedger targetLedger latestLedger events)
      if pastEnd config targetLedger events then finish (.finished (some latestLedger), db)
      else
        match nextCursor events with
        | some token =>
          (.waits (.page startLedger targetLedger (some token) (some latestLedger)), db)
        | none => finish (.finished (some latestLedger), db)

/-! ### The process -/

/-- `Indexer`, with its database and the health server. -/
structure Process where
  config : Config
  db : ComplianceDb
  running : Bool
  /-- The timer set last. -/
  timer : Option ℕ
  /-- The timers that are still to go off. -/
  pending : List ℕ
  nextTimer : ℕ
  flights : List Flight
  lastPollAt : Option ℕ

/-- A process just started on a database. -/
def Process.boot (config : Config) (db : ComplianceDb) : Process where
  config := config
  db := db
  running := false
  timer := none
  pending := []
  nextTimer := 1
  flights := []
  lastPollAt := none

namespace Process

variable (p : Process)

/-- `schedule`. -/
def schedule : Process :=
  if p.running then
    { p with
      timer := some p.nextTimer
      pending := p.pending ++ [p.nextTimer]
      nextTimer := p.nextTimer + 1 }
  else p

/-- The end of a poll, and of the `tick` around it. -/
def settle (result : PollResult) (ticking : Bool) (now : ℕ) : Process :=
  let p := if result = .resolved true then { p with running := false } else p
  if ticking then
    (if result = .rejected then p else { p with lastPollAt := some now }).schedule
  else p

/-- A poll is started. -/
def launch (ticking : Bool) (now : ℕ) : Option PollResult × Process :=
  let lastIndexed := p.db.getLastIndexedLedger
  match beginPoll p.config lastIndexed with
  | .ends result => (some result, p.settle result ticking now)
  | .waits awaiting =>
    (none, { p with flights := p.flights ++ [⟨ticking, lastIndexed, awaiting⟩] })

/-- `start`. -/
def start (now : ℕ) : Option PollResult × Process :=
  if p.running then (none, p) else { p with running := true }.launch true now

/-- `stop`: the timer set last is cleared. A poll in flight goes on. -/
def stop : Process :=
  { p with running := false, pending := p.pending.filter fun t ↦ decide (some t ≠ p.timer) }

/-- `pollOnce`. -/
def pollOnce (now : ℕ) : Option PollResult × Process := p.launch false now

/-- A timer goes off. -/
def timeout (now timer : ℕ) : Option PollResult × Process :=
  if timer ∈ p.pending then { p with pending := p.pending.erase timer }.launch true now
  else (none, p)

/-- The server answers a poll in flight. -/
def answer (chain : Chain) (now flight : ℕ) (reply : Option ℕ) : Option PollResult × Process :=
  match p.flights[flight]? with
  | none => (none, p)
  | some f =>
    match f.resume p.config chain reply p.db with
    | (.waits awaiting, db) =>
      (none, { p with db := db, flights := p.flights.set flight { f with awaiting } })
    | (.ends result, db) =>
      (some result,
        { p with db := db, flights := p.flights.eraseIdx flight }.settle result f.ticking now)

end Process

/-- What can happen. -/
inductive Happening where
  | start
  | stop
  | pollOnce
  | timeout (timer : ℕ)
  | answer (flight : ℕ) (reply : Option ℕ)
  /-- The process ends, and another is started. -/
  | restart (config : Config)
  deriving DecidableEq, Repr

/-- Something happens, at some time. -/
structure Occurrence where
  now : ℕ
  happening : Happening
  deriving DecidableEq, Repr

/-- What an occurrence does. It answers with the result of the poll that it ends. -/
def Process.exec (chain : Chain) (o : Occurrence) (p : Process) : Option PollResult × Process :=
  match o.happening with
  | .start => p.start o.now
  | .stop => (none, p.stop)
  | .pollOnce => p.pollOnce o.now
  | .timeout timer => p.timeout o.now timer
  | .answer flight reply => p.answer chain o.now flight reply
  | .restart config => (none, .boot config p.db)

/-- The first process on a new database, and those after it. -/
def process (config : Config) (chain : Chain) : System Process Occurrence (Option PollResult) where
  start := .boot config .fresh
  exec := Process.exec chain

/-! ### The health server -/

/-- `StatusPayload`, with times in milliseconds. -/
structure StatusPayload where
  ok : Bool
  lastIndexedLedger : Option ℕ
  lastPollAt : Option ℕ
  now : ℕ
  deriving DecidableEq, Repr

/-- The status code of `/health`. -/
def Process.health (p : Process) : ℕ := if p.lastPollAt ≠ none then 200 else 503

/-- `/status`. -/
def Process.status (p : Process) (now : ℕ) : StatusPayload where
  ok := decide (p.lastPollAt ≠ none)
  lastIndexedLedger :=
    if 0 < p.db.getLastIndexedLedger then some p.db.getLastIndexedLedger else none
  lastPollAt := p.lastPollAt
  now := now

end Indexer
