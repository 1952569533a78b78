import CompliancePrimitives.Indexer.Process

/-!
# What a process leaves in its database

As long as no poll is started beside another — `start` not while a poll that `stop` has outlived is
in flight, `pollOnce` only on an idle indexer — at most one poll is ever in flight. Then a run has a
**transcript**: its polls, first to last, each with the configuration of the process that made it
and the answers the server gave to it, and what the poll in flight has heard so far. The transcript
is read off the run without a look at the database.

And the database is what these polls leave as whole calls of `poll`, one for one, in their order and
with the same results (`process_refines_polls`). A poll that a process takes down with it, and one
that is still in flight, counts as one whose server fails from then on.

So what is known of polls holds of processes. A backfill that stops by itself has indexed exactly
the ledgers it was asked for, through any number of failures, stops and restarts that do not catch
a poll between its pages (`backfill_exact`). Behind the first page of a poll, that excludes a
horizon that falls as well: a poll that is told of one may leave rows out for good.

Nothing is claimed of polls that run beside each other: `start` after `stop` starts a second loop if
a poll is still in flight.
-/

namespace Indexer

/-! ### The polls of a run -/

/-- A poll asks for the earliest ledger that is available if neither the checkpoint nor the
configuration tells it where to start. -/
def asksEarliest (config : Config) (lastIndexed : ℕ) : Bool :=
  decide (lastIndexed = 0 ∧ config.startLedger = 0)

/-- A server that answers so to one call after the other, and fails from the end of the list on, as
a poll finds it. -/
def RpcAnswers.ofReplies (asks : Bool) (replies : List (Option ℕ)) : RpcAnswers :=
  match asks, replies with
  | true, [earliest] => ⟨earliest, none, []⟩
  | true, earliest :: latest :: pages => ⟨earliest, latest, pages⟩
  | false, latest :: pages => ⟨none, latest, pages⟩
  | _, [] => ⟨none, none, []⟩

theorem RpcAnswers.ofReplies_nil (asks : Bool) : ofReplies asks [] = ⟨none, none, []⟩ := by
  cases asks <;> rfl

/-- The poll that a process makes if it hears these replies. -/
def Process.pollOf (p : Process) (replies : List (Option ℕ)) : Config × RpcAnswers :=
  (p.config, .ofReplies (asksEarliest p.config p.db.getLastIndexedLedger) replies)

/-- The polls of a run that have come to an end, latest first, each with its result, and what the
poll in flight has heard. -/
structure Transcript where
  /-- The polls that have ended. -/
  ended : List ((Config × RpcAnswers) × PollResult)
  /-- The replies to the poll in flight, first to last. -/
  heard : List (Option ℕ)

namespace Transcript

/-- The polls that have ended, without their results. -/
def polls (t : Transcript) : List (Config × RpcAnswers) := t.ended.map Prod.fst

/-- The poll in flight ends. -/
def ends (t : Transcript) (i : Config × RpcAnswers) (result : PollResult) : Transcript :=
  ⟨(i, result) :: t.ended, []⟩

/-- A process hears some more replies, and its poll ends if there is a result. -/
def after (t : Transcript) (p : Process) (replies : List (Option ℕ)) :
    Option PollResult → Transcript
  | none => { t with heard := t.heard ++ replies }
  | some result => t.ends (p.pollOf (t.heard ++ replies)) result

end Transcript

/-- The reply that a poll in flight hears in a step. -/
def repliesIn (e : Step Process Occurrence (Option PollResult)) : List (Option ℕ) :=
  match e.input.happening with
  | .answer flight reply => if flight < e.pre.flights.length then [reply] else []
  | _ => []

/-- One step more. The end of a process ends the poll in flight, as rejected. -/
def Transcript.record (t : Transcript) (e : Step Process Occurrence (Option PollResult)) :
    Transcript :=
  match e.input.happening with
  | .restart _ => if e.pre.flights = [] then t else t.ends (e.pre.pollOf t.heard) .rejected
  | _ => t.after e.pre (repliesIn e) e.result

/-- **The transcript of a run.** -/
def transcript : List (Step Process Occurrence (Option PollResult)) → Transcript
  | [] => ⟨[], []⟩
  | e :: h => (transcript h).record e

/-! ### The answers a poll in flight has had -/

section

variable {config : Config} {chain : Chain} {F : Prop} {db db₀ : ComplianceDb}
  {heard : List (Option ℕ)}

/-- What a poll has heard before it asks for the latest ledger. -/
def Opened (asks : Bool) (earliest : Option ℕ) (heard : List (Option ℕ)) : Prop :=
  match asks with
  | true => heard = [earliest]
  | false => heard = [] ∧ earliest = none

section

variable {asks : Bool} {earliest : Option ℕ}

theorem Opened.ofReplies (h : Opened asks earliest heard) :
    RpcAnswers.ofReplies asks heard = ⟨earliest, none, []⟩ := by
  cases asks with
  | true =>
    obtain rfl : heard = [earliest] := h
    rfl
  | false =>
    obtain ⟨rfl, rfl⟩ := h
    rfl

theorem Opened.ofReplies_append (h : Opened asks earliest heard) (latest : Option ℕ)
    (pages : List (Option ℕ)) :
    RpcAnswers.ofReplies asks (heard ++ latest :: pages) = ⟨earliest, latest, pages⟩ := by
  cases asks with
  | true =>
    obtain rfl : heard = [earliest] := h
    rfl
  | false =>
    obtain ⟨rfl, rfl⟩ := h
    rfl

end

/-- **A poll that has come so far** from the database `db₀` is the poll of the answers it has had.
If `F` holds, the horizons among them do not fall. -/
inductive Standing (config : Config) (chain : Chain) (F : Prop) (db₀ : ComplianceDb) :
    List (Option ℕ) → Awaiting → ComplianceDb → Prop where
  /-- It has asked for the earliest ledger, and has heard nothing. -/
  | earliest (hids : ¬config.contractIds.isEmpty = true)
      (hlast : db₀.getLastIndexedLedger = 0) (hstart : config.startLedger = 0) :
      Standing config chain F db₀ [] .earliest db₀
  /-- It has asked for the latest ledger, and knows where it starts. -/
  | latest (earliest : Option ℕ) {startLedger : ℕ} {heard : List (Option ℕ)}
      (hids : ¬config.contractIds.isEmpty = true)
      (hstart : startLedgerOf config ⟨earliest, none, []⟩ db₀.getLastIndexedLedger =
        some startLedger)
      (hheard : Opened (asksEarliest config db₀.getLastIndexedLedger) earliest heard) :
      Standing config chain F db₀ heard (.latest startLedger) db₀
  /-- It has asked for a page. What it has fetched so far is what the loop fetches with these
  answers, so that the loop goes on from here with whatever comes. -/
  | page (earliest : Option ℕ) (latest : ℕ) (horizons : List ℕ) {startLedger : ℕ}
      {cursor eventHorizon : Option ℕ} {db : ComplianceDb} {heard opening : List (Option ℕ)}
      (hheard : heard = opening ++ some latest :: horizons.map some)
      (hopening : Opened (asksEarliest config db₀.getLastIndexedLedger) earliest opening)
      (hids : ¬config.contractIds.isEmpty = true)
      (hstart : startLedgerOf config ⟨earliest, none, []⟩ db₀.getLastIndexedLedger =
        some startLedger)
      (hdone : ¬(0 < config.endLedger ∧ config.endLedger ≤ db₀.getLastIndexedLedger))
      (hahead : ¬targetLedgerOf config latest < startLedger)
      (hlast : db.lastLedger = db₀.lastLedger)
      (hnone : eventHorizon = none → horizons = [] ∧ db = db₀)
      (hrising : F → horizons.Pairwise (· ≤ ·) ∧ ∀ l ∈ horizons, ∀ h ∈ eventHorizon, l ≤ h)
      (hfetch : ∀ pages, fetchPages config chain startLedger (targetLedgerOf config latest)
          db₀.getLastIndexedLedger (horizons.map some ++ pages) none none db₀ =
        fetchPages config chain startLedger (targetLedgerOf config latest)
          db₀.getLastIndexedLedger pages cursor eventHorizon db) :
      Standing config chain F db₀ heard
        (.page startLedger (targetLedgerOf config latest) cursor eventHorizon) db

/-- A poll that has not come to its first page has written nothing. -/
theorem Standing.eq_of_eventHorizon {awaiting : Awaiting}
    (h : Standing config chain F db₀ heard awaiting db) (hnone : awaiting.eventHorizon = none) :
    db = db₀ := by
  cases h with
  | earliest => rfl
  | latest => rfl
  | page _ _ _ _ _ _ _ _ _ _ hwritten => exact (hwritten hnone).2

/-- A poll in flight has not moved the checkpoint. -/
theorem Standing.lastLedger_eq {awaiting : Awaiting}
    (h : Standing config chain F db₀ heard awaiting db) : db.lastLedger = db₀.lastLedger := by
  cases h with
  | earliest => rfl
  | latest => rfl
  | page _ _ _ _ _ _ _ _ _ hlast => exact hlast

/-- A poll with something to index, by what it has been told. -/
theorem poll_of_told {earliest : Option ℕ} {startLedger latest : ℕ}
    (hids : ¬config.contractIds.isEmpty = true)
    (hstart : startLedgerOf config ⟨earliest, none, []⟩ db.getLastIndexedLedger = some startLedger)
    (hdone : ¬(0 < config.endLedger ∧ config.endLedger ≤ db.getLastIndexedLedger))
    (hahead : ¬targetLedgerOf config latest < startLedger) (pages : List (Option ℕ)) :
    poll config chain ⟨earliest, some latest, pages⟩ db =
      finishPoll config startLedger (targetLedgerOf config latest) db.getLastIndexedLedger
        (fetchPages config chain startLedger (targetLedgerOf config latest)
          db.getLastIndexedLedger pages none none db) :=
  poll_eq_finishPoll hids
    (show startLedgerOf config ⟨earliest, some latest, pages⟩ _ = _ from hstart) rfl hdone hahead

/-- A poll whose server fails before it tells the latest ledger. -/
theorem poll_of_latest_none {rpc : RpcAnswers} (hids : ¬config.contractIds.isEmpty = true)
    (h : rpc.latest = none) : poll config chain rpc db = (.rejected, db) := by
  rcases hstart : startLedgerOf config rpc db.getLastIndexedLedger with _ | startLedger <;>
    simp [poll, hids, hstart, h]

/-- **A poll cut off** is a poll whose server fails from there on. -/
theorem Standing.poll_eq {awaiting : Awaiting} (h : Standing config chain F db₀ heard awaiting db) :
    poll config chain (.ofReplies (asksEarliest config db₀.getLastIndexedLedger) heard) db₀ =
      (.rejected, db) := by
  cases h with
  | earliest hids => exact poll_of_latest_none hids (by rw [RpcAnswers.ofReplies_nil])
  | latest earliest hids _ hheard => exact poll_of_latest_none hids (by rw [hheard.ofReplies])
  | page earliest latest horizons hheard hopening hids hstart hdone hahead _ _ _ hfetch =>
    have hrun := hfetch []
    rw [List.append_nil] at hrun
    rw [hheard, hopening.ofReplies_append, poll_of_told hids hstart hdone hahead, hrun]
    rfl

/-- Before its first page it has no pages. -/
theorem Standing.pages_eq {awaiting : Awaiting} (h : Standing config chain F db₀ heard awaiting db)
    (hnone : awaiting.eventHorizon = none) :
    (RpcAnswers.ofReplies (asksEarliest config db₀.getLastIndexedLedger) heard).pages = [] := by
  cases h with
  | earliest => rw [RpcAnswers.ofReplies_nil]
  | latest _ _ _ hheard => rw [hheard.ofReplies]
  | page _ _ _ hheard hopening _ _ _ _ _ hwritten =>
    rw [hheard, hopening.ofReplies_append, (hwritten hnone).1]
    rfl

/-- A poll, up to its first request. -/
theorem standing_of_beginPoll {awaiting : Awaiting}
    (h : beginPoll config db.getLastIndexedLedger = .waits awaiting) :
    Standing config chain F db [] awaiting db := by
  unfold beginPoll at h
  split_ifs at h with hids hlast hstart <;> cases h
  -- the checkpoint tells where to start, or the configuration does, or the server has to be asked
  · have hasks : asksEarliest config db.getLastIndexedLedger = false := by
      simp [asksEarliest, hlast.ne']
    exact .latest none hids (by rw [startLedgerOf, if_pos hlast]) (by rw [hasks]; exact ⟨rfl, rfl⟩)
  · have hasks : asksEarliest config db.getLastIndexedLedger = false := by
      simp [asksEarliest, hstart.ne']
    exact .latest none hids (by rw [startLedgerOf, if_neg hlast, if_pos hstart])
      (by rw [hasks]; exact ⟨rfl, rfl⟩)
  · exact .earliest hids (by omega) (by omega)

/-- A poll that makes no request has nothing to watch. -/
theorem eq_resolved_of_beginPoll {lastIndexed : ℕ} {result : PollResult}
    (h : beginPoll config lastIndexed = .ends result) :
    config.contractIds.isEmpty = true ∧ result = .resolved false := by
  unfold beginPoll at h
  split_ifs at h with hids
  cases h
  exact ⟨hids, rfl⟩

/-! ### The next answer -/

/-- **A page is one round of the loop.** -/
theorem resume_page (config : Config) (chain : Chain) (flight : Flight) (db : ComplianceDb)
    {startLedger targetLedger : ℕ} {cursor eventHorizon : Option ℕ}
    (hflight : flight.awaiting = .page startLedger targetLedger cursor eventHorizon)
    (latestLedger : ℕ) :
    (∃ token rows,
      flight.resume config chain (some latestLedger) db =
          (.waits (.page startLedger targetLedger (some token) (some latestLedger)),
            db.applyEvents rows) ∧
        ∀ pages, fetchPages config chain startLedger targetLedger flight.lastIndexed
            (some latestLedger :: pages) cursor eventHorizon db =
          fetchPages config chain startLedger targetLedger flight.lastIndexed pages (some token)
            (some latestLedger) (db.applyEvents rows)) ∨
      ∃ left, left.1 ≠ .thrown ∧
        flight.resume config chain (some latestLedger) db =
          Outcome.ended (finishPoll config startLedger targetLedger flight.lastIndexed left) ∧
        fetchPages config chain startLedger targetLedger flight.lastIndexed [some latestLedger]
          cursor eventHorizon db = left := by
  by_cases hbelow : latestLedger < flight.lastIndexed
  · refine .inr ⟨(.returned, db), by simp, ?_, ?_⟩
    · simp [Flight.resume, hflight, hbelow, Outcome.ended, finishPoll]
    · simp [fetchPages, hbelow]
  by_cases hregressed : regressed eventHorizon latestLedger = true
  · refine .inr ⟨(.finished eventHorizon, db), by simp, ?_, ?_⟩
    · simp [Flight.resume, hflight, hbelow, hregressed]
    · simp [fetchPages, hbelow, hregressed]
  set events := chain.getEvents config.contractIds startLedger cursor latestLedger with hevents
  set rows := decodePage startLedger targetLedger latestLedger events with hrows
  by_cases hpast : pastEnd config targetLedger events = true
  · refine .inr ⟨(.finished (some latestLedger), db.applyEvents rows), by simp, ?_, ?_⟩
    · simp [Flight.resume, hflight, hbelow, hregressed, ← hevents, hpast, ← hrows]
    · simp [fetchPages, hbelow, hregressed, ← hevents, hpast, ← hrows]
  rcases hnext : nextCursor events with _ | token
  · refine .inr ⟨(.finished (some latestLedger), db.applyEvents rows), by simp, ?_, ?_⟩
    · simp [Flight.resume, hflight, hbelow, hregressed, ← hevents, hpast, ← hrows, hnext]
    · simp [fetchPages, hbelow, hregressed, ← hevents, hpast, ← hrows, hnext]
  -- only a full page within the range lets the loop go on
  · refine .inl ⟨token, rows, ?_, fun pages ↦ ?_⟩
    · simp [Flight.resume, hflight, hbelow, hregressed, ← hevents, hpast, ← hrows, hnext]
    · simp [fetchPages, hbelow, hregressed, ← hevents, hpast, ← hrows, hnext]

/-- Behind a page, the server does not fail, and its horizon does not fall. -/
def Steady (awaiting : Awaiting) (reply : Option ℕ) : Prop :=
  ∀ h ∈ awaiting.eventHorizon, ∃ l ∈ reply, h ≤ l

theorem rising_map_some {horizons : List ℕ} :
    Rising (horizons.map some) ↔ horizons.Pairwise (· ≤ ·) := by
  rw [Rising, List.reduceOption, List.filterMap_map, Function.id_comp, List.filterMap_some]

/-- **One answer**: the poll goes on from there, or it is the poll of the answers it has had. -/
theorem Standing.resume {flight : Flight} {reply : Option ℕ}
    (h : Standing config chain F db₀ heard flight.awaiting db)
    (hlast : flight.lastIndexed = db₀.getLastIndexedLedger)
    (hsteady : F → Steady flight.awaiting reply) :
    (∃ awaiting db', flight.resume config chain reply db = (.waits awaiting, db') ∧
      Standing config chain F db₀ (heard ++ [reply]) awaiting db') ∨
    ∃ result db', flight.resume config chain reply db = (.ends result, db') ∧
      poll config chain (.ofReplies (asksEarliest config db₀.getLastIndexedLedger)
        (heard ++ [reply])) db₀ = (result, db') ∧
      (F → Whole config chain (.ofReplies (asksEarliest config db₀.getLastIndexedLedger)
        (heard ++ [reply])) db₀) := by
  obtain ⟨ticking, lastIndexed, awaiting⟩ := flight
  dsimp only at h hlast hsteady
  subst hlast
  cases h with
  | earliest hids hlast hstart =>
    have hasks : asksEarliest config db.getLastIndexedLedger = true := by
      simp [asksEarliest, hlast, hstart]
    rw [hasks]
    rcases reply with _ | latest
    · have hpoll : poll config chain ⟨none, none, []⟩ db = _ := poll_of_latest_none hids rfl
      exact .inr ⟨.rejected, db, rfl, hpoll, fun _ ↦ ⟨.nil, fun _ ↦ congrArg Prod.snd hpoll⟩⟩
    · refine .inl ⟨_, _, rfl, .latest (some latest) hids ?_ (by rw [hasks]; rfl)⟩
      rw [startLedgerOf, if_neg (by omega), if_neg (by omega)]
      rfl
  | @latest earliest startLedger heard hids hstart hheard =>
    rw [hheard.ofReplies_append]
    rcases reply with _ | latest
    · have hpoll : poll config chain ⟨earliest, none, []⟩ db = _ := poll_of_latest_none hids rfl
      exact .inr ⟨.rejected, db, rfl, hpoll, fun _ ↦ ⟨.nil, fun _ ↦ congrArg Prod.snd hpoll⟩⟩
    have htold : startLedgerOf config ⟨earliest, some latest, []⟩ db.getLastIndexedLedger =
      some startLedger := hstart
    -- the poll may be at its end already, or have nothing to ask for
    by_cases hdone : 0 < config.endLedger ∧ config.endLedger ≤ db.getLastIndexedLedger
    · have hpoll : poll config chain ⟨earliest, some latest, []⟩ db = (.resolved true, db) := by
        simp [poll, hids, htold, hdone]
      refine .inr ⟨_, _, ?_, hpoll, fun _ ↦ ⟨.nil, fun _ ↦ congrArg Prod.snd hpoll⟩⟩
      simp [Flight.resume, hdone]
    by_cases hahead : targetLedgerOf config latest < startLedger
    · have hpoll : poll config chain ⟨earliest, some latest, []⟩ db = (.resolved false, db) := by
        simp [poll, hids, htold, hdone, hahead]
      refine .inr ⟨_, _, ?_, hpoll, fun _ ↦ ⟨.nil, fun _ ↦ congrArg Prod.snd hpoll⟩⟩
      simp [Flight.resume, hdone, hahead]
    · refine .inl ⟨_, _, ?_, .page earliest latest [] rfl hheard hids hstart hdone hahead rfl
        (fun _ ↦ ⟨rfl, rfl⟩) (fun _ ↦ ⟨.nil, by simp⟩) fun _ ↦ rfl⟩
      simp [Flight.resume, hdone, hahead]
  | @page earliest latest horizons startLedger cursor eventHorizon _ _ opening hheard hopening hids
      hstart hdone hahead hkept hnone hrising hfetch =>
    have hpoll := fun pages ↦ @poll_of_told config chain _ _ _ _ hids hstart hdone hahead pages
    have hreplies : heard ++ [reply] =
        opening ++ some latest :: (horizons.map some ++ [reply]) := by
      rw [hheard, List.append_assoc, List.cons_append]
    rw [hreplies, hopening.ofReplies_append]
    rcases reply with _ | latestLedger
    · have hrejected := hpoll (horizons.map some ++ [none])
      rw [hfetch] at hrejected
      refine .inr ⟨_, _, rfl, hrejected, fun hF ↦ ?_⟩
      -- behind a page the server would not have failed
      obtain ⟨rfl, rfl⟩ := hnone (Option.eq_none_iff_forall_not_mem.2 fun h hh ↦ by
        simpa using hsteady hF h hh)
      exact ⟨.nil, fun _ ↦ congrArg Prod.snd hrejected⟩
    have hnext : F → (horizons ++ [latestLedger]).Pairwise (· ≤ ·) ∧
        ∀ l ∈ horizons ++ [latestLedger], ∀ h ∈ some latestLedger, l ≤ h := by
      intro hF
      obtain ⟨hsorted, hbound⟩ := hrising hF
      have hle : ∀ l ∈ horizons, l ≤ latestLedger := fun l hl ↦ by
        rcases eventHorizon with _ | h
        · rw [(hnone rfl).1] at hl
          cases hl
        · obtain ⟨_, ⟨⟩, hge⟩ := hsteady hF h rfl
          exact (hbound l hl h rfl).trans hge
      refine ⟨List.pairwise_append.2 ⟨hsorted, List.pairwise_singleton _ _,
        fun l hl l' hl' ↦ ?_⟩, ?_⟩
      · rw [List.mem_singleton.1 hl']
        exact hle l hl
      · rintro l hl h ⟨⟩
        rcases List.mem_append.1 hl with hl | hl
        · exact hle l hl
        · exact (List.mem_singleton.1 hl).le
    rcases resume_page config chain ⟨ticking, db₀.getLastIndexedLedger, _⟩ db rfl latestLedger with
      ⟨token, rows, hresume, hround⟩ | ⟨left, hthrown, hresume, hround⟩
    -- a full page: the poll goes on behind it
    · refine .inl ⟨_, _, hresume, .page earliest latest (horizons ++ [latestLedger]) ?_ hopening
        hids hstart hdone hahead ?_ (by simp) hnext fun pages ↦ ?_⟩
      · rw [List.map_append, List.map_singleton]
      · exact (ComplianceDb.applyEvents_spec rows db).2.1.trans hkept
      · rw [List.map_append, List.append_assoc, hfetch]
        exact hround pages
    -- the last page: the poll is that of all its answers
    · have hresolved := hpoll (horizons.map some ++ [some latestLedger])
      rw [hfetch, hround] at hresolved
      refine .inr ⟨_, _, hresume, hresolved, fun hF ↦ ⟨?_, fun hrejected ↦ ?_⟩⟩
      · have hrises := rising_map_some.2 (hnext hF).1
        rwa [List.map_append] at hrises
      · rw [hresolved] at hrejected
        rcases left with ⟨_ | _ | _, db'⟩
        · exact absurd rfl hthrown
        · cases hrejected
        · cases hrejected

end

/-! ### One poll at a time -/

section

variable {config : Config} {chain : Chain} {F : Prop} {allowed : Config → Prop} {p : Process}
  {t : Transcript}

/-- No poll is started beside another. -/
def Alone (e : Step Process Occurrence (Option PollResult)) : Prop :=
  match e.input.happening with
  | .start => e.pre.running = true ∨ e.pre.flights = []
  | .pollOnce => e.pre.flights = [] ∧ e.pre.pending = []
  | _ => True

/-- No poll is caught between its pages: not by the server, which neither fails behind a page nor
tells of a horizon below the one before, and not by the end of the process. -/
def Unbroken (e : Step Process Occurrence (Option PollResult)) : Prop :=
  match e.input.happening with
  | .answer flight reply => ∀ f ∈ e.pre.flights[flight]?, Steady f.awaiting reply
  | .restart _ => ∀ f ∈ e.pre.flights, f.awaiting.eventHorizon = none
  | _ => True

instance (e : Step Process Occurrence (Option PollResult)) : Decidable (Alone e) :=
  match e with
  | ⟨pre, ⟨_, .start⟩, _, _⟩ => inferInstanceAs (Decidable (pre.running = true ∨ pre.flights = []))
  | ⟨pre, ⟨_, .pollOnce⟩, _, _⟩ =>
    inferInstanceAs (Decidable (pre.flights = [] ∧ pre.pending = []))
  | ⟨_, ⟨_, .stop⟩, _, _⟩ => isTrue trivial
  | ⟨_, ⟨_, .timeout _⟩, _, _⟩ => isTrue trivial
  | ⟨_, ⟨_, .answer _ _⟩, _, _⟩ => isTrue trivial
  | ⟨_, ⟨_, .restart _⟩, _, _⟩ => isTrue trivial

instance (awaiting : Awaiting) (reply : Option ℕ) : Decidable (Steady awaiting reply) :=
  inferInstanceAs (Decidable (∀ h ∈ awaiting.eventHorizon, ∃ l ∈ reply, h ≤ l))

instance (e : Step Process Occurrence (Option PollResult)) : Decidable (Unbroken e) :=
  match e with
  | ⟨_, ⟨_, .start⟩, _, _⟩ => isTrue trivial
  | ⟨_, ⟨_, .pollOnce⟩, _, _⟩ => isTrue trivial
  | ⟨_, ⟨_, .stop⟩, _, _⟩ => isTrue trivial
  | ⟨_, ⟨_, .timeout _⟩, _, _⟩ => isTrue trivial
  | ⟨pre, ⟨_, .answer flight reply⟩, _, _⟩ =>
    inferInstanceAs (Decidable (∀ f ∈ pre.flights[flight]?, Steady f.awaiting reply))
  | ⟨pre, ⟨_, .restart _⟩, _, _⟩ =>
    inferInstanceAs (Decidable (∀ f ∈ pre.flights, f.awaiting.eventHorizon = none))

/-- **What is known of the polls of a transcript.** -/
structure Backed (chain : Chain) (F : Prop) (allowed : Config → Prop) (t : Transcript) : Prop where
  /-- They were made under configurations of the run. -/
  allowed : ∀ i ∈ t.polls, allowed i.1
  /-- If `F` holds, they are whole. -/
  whole : F → ∀ e ∈ (operated chain).history t.polls, Whole e.input.1 chain e.input.2 e.pre
  /-- As calls of `poll` one after the other, they have the results of the run. -/
  results : ((operated chain).history t.polls).map Step.result = t.ended.map Prod.snd

/-- What the poll in flight hears does not concern the others. -/
theorem Backed.hears (h : Backed chain F allowed t) (heard : List (Option ℕ)) :
    Backed chain F allowed { t with heard := heard } :=
  ⟨h.allowed, h.whole, h.results⟩

/-- The poll in flight ends. -/
theorem Backed.ends {i : Config × RpcAnswers} {result : PollResult} (h : Backed chain F allowed t)
    (hconfig : allowed i.1)
    (hresult : (poll i.1 chain i.2 ((operated chain).final t.polls)).1 = result)
    (hwhole : F → Whole i.1 chain i.2 ((operated chain).final t.polls)) :
    Backed chain F allowed (t.ends i result) where
  allowed := List.forall_mem_cons.2 ⟨hconfig, h.allowed⟩
  whole hF := List.forall_mem_cons.2 ⟨hwhole hF, h.whole hF⟩
  results := congrArg₂ List.cons hresult h.results

/-- At most one timer is to go off, the one set last, and only while the indexer is running. -/
def Timed (p : Process) : Prop :=
  p.pending = [] ∨ p.running = true ∧ ∃ t, p.timer = some t ∧ p.pending = [t]

/-- **A single poll is in flight**, from a database that the polls before it have left. -/
structure Flying (chain : Chain) (F : Prop) (allowed : Config → Prop) (t : Transcript) (p : Process)
    (flight : Flight) : Prop where
  /-- What is known of the polls before it. -/
  backed : Backed chain F allowed t
  /-- The present configuration is one of the run. -/
  config : allowed p.config
  /-- It is the only one. -/
  flights : p.flights = [flight]
  /-- No timer is set meanwhile. -/
  pending : p.pending = []
  /-- It has read the checkpoint that the polls before it have left. -/
  last : flight.lastIndexed = ((operated chain).final t.polls).getLastIndexedLedger
  /-- It has come as far as what it has heard takes it. -/
  standing : Standing p.config chain F ((operated chain).final t.polls) t.heard flight.awaiting p.db

/-- **What a process is between two occurrences**: idle on a database that polls have left, or with
a single poll in flight. -/
inductive Sound (chain : Chain) (F : Prop) (allowed : Config → Prop) (t : Transcript)
    (p : Process) : Prop where
  /-- Nothing is in flight, and the database is what the polls of the transcript leave. -/
  | idle (hpolls : Backed chain F allowed t) (hconfig : allowed p.config)
      (hdb : p.db = (operated chain).final t.polls) (hflights : p.flights = []) (htimed : Timed p)
      (hheard : t.heard = [])
  /-- One poll is in flight, behind those of the transcript. -/
  | flying (flight : Flight) (h : Flying chain F allowed t p flight)

/-- A poll in flight is that of its answers, read off the process. -/
theorem Flying.pollOf_eq {flight : Flight} (h : Flying chain F allowed t p flight)
    (replies : List (Option ℕ)) :
    p.pollOf replies = (p.config,
      .ofReplies (asksEarliest p.config ((operated chain).final t.polls).getLastIndexedLedger)
        replies) := by
  have hlast : p.db.getLastIndexedLedger =
      ((operated chain).final t.polls).getLastIndexedLedger :=
    congrArg (Option.getD · 0) h.standing.lastLedger_eq
  rw [Process.pollOf, hlast]

/-- Cut off, it counts as one whose server fails. -/
theorem Flying.poll_eq {flight : Flight} (h : Flying chain F allowed t p flight) :
    poll (p.pollOf t.heard).1 chain (p.pollOf t.heard).2 ((operated chain).final t.polls) =
      (.rejected, p.db) := by
  rw [h.pollOf_eq]
  exact h.standing.poll_eq

/-- The end of a poll concerns the timer and the health server. -/
theorem settle_spec (p : Process) (result : PollResult) (ticking : Bool) (now : ℕ) :
    (p.settle result ticking now).config = p.config ∧ (p.settle result ticking now).db = p.db ∧
      (p.settle result ticking now).flights = p.flights ∧
      (p.pending = [] → Timed (p.settle result ticking now)) := by
  simp only [Process.settle, Process.schedule]
  split_ifs <;> refine ⟨rfl, rfl, rfl, fun hpending ↦ ?_⟩ <;> simp_all [Timed]

/-- What starts a poll writes nothing. -/
theorem launch_db (p : Process) (ticking : Bool) (now : ℕ) :
    (p.launch ticking now).2.db = p.db := by
  rcases hbegin : beginPoll p.config p.db.getLastIndexedLedger with awaiting | result
  · simp [Process.launch, hbegin]
  · simp [Process.launch, hbegin, (settle_spec _ _ _ _).2.1]

/-- A poll that ends at once does not stop the indexer. -/
theorem launch_ne_stopped (p : Process) (ticking : Bool) (now : ℕ) :
    (p.launch ticking now).1 ≠ some (.resolved true) := by
  rcases hbegin : beginPoll p.config p.db.getLastIndexedLedger with awaiting | result
  · simp [Process.launch, hbegin]
  · simp [Process.launch, hbegin, (eq_resolved_of_beginPoll hbegin).2]

theorem Sound.settle (hpolls : Backed chain F allowed t) (hconfig : allowed p.config)
    (hdb : p.db = (operated chain).final t.polls) (hflights : p.flights = [])
    (hpending : p.pending = []) (hheard : t.heard = []) (result : PollResult) (ticking : Bool)
    (now : ℕ) : Sound chain F allowed t (p.settle result ticking now) := by
  obtain ⟨hconfig', hdb', hflights', htimed⟩ := settle_spec p result ticking now
  exact .idle hpolls (hconfig' ▸ hconfig) (hdb'.trans hdb) (hflights'.trans hflights)
    (htimed hpending) hheard

/-- A poll is started on an idle indexer: it waits, or it ends at once. -/
theorem Sound.launch (hpolls : Backed chain F allowed t) (hconfig : allowed p.config)
    (hdb : p.db = (operated chain).final t.polls) (hflights : p.flights = [])
    (hpending : p.pending = []) (hheard : t.heard = []) (ticking : Bool) (now : ℕ) :
    Sound chain F allowed (t.after p [] (p.launch ticking now).1) (p.launch ticking now).2 := by
  rcases hbegin : beginPoll p.config p.db.getLastIndexedLedger with awaiting | result
  · have hstanding : Standing p.config chain F p.db [] awaiting p.db :=
      standing_of_beginPoll hbegin
    have hafter : t.after p [] none = t := by
      rw [Transcript.after, List.append_nil]
    rw [Process.launch, hbegin]
    dsimp only
    rw [hafter]
    exact .flying ⟨ticking, p.db.getLastIndexedLedger, awaiting⟩ {
      backed := hpolls
      config := hconfig
      flights := congrArg (· ++ [_]) hflights
      pending := hpending
      last := congrArg ComplianceDb.getLastIndexedLedger hdb
      standing := by rw [hheard, ← hdb]; exact hstanding }
  -- it asked for nothing, so whatever the server would say, the whole poll is this
  · have hpoll : poll (p.pollOf (t.heard ++ [])).1 chain (p.pollOf (t.heard ++ [])).2
        ((operated chain).final t.polls) = (result, p.db) := by
      obtain ⟨hids, rfl⟩ := eq_resolved_of_beginPoll hbegin
      rw [← hdb]
      exact if_pos hids
    have hpages : Rising (p.pollOf (t.heard ++ [])).2.pages := by
      rw [hheard, Process.pollOf, List.append_nil, RpcAnswers.ofReplies_nil]
      exact .nil
    rw [Process.launch, hbegin]
    refine .settle (hpolls.ends hconfig (congrArg Prod.fst hpoll) fun _ ↦ ⟨hpages, fun _ ↦ ?_⟩)
      hconfig (congrArg Prod.snd hpoll).symm hflights hpending rfl result ticking now
    exact (congrArg Prod.snd hpoll).trans hdb

/-- **An answer**, or the lack of one: to nobody, or to the poll in flight, which goes on, or ends
as the poll of its answers. -/
theorem Sound.answer_cases (h : Sound chain F allowed t p) (now i : ℕ) (reply : Option ℕ)
    (hsteady : F → ∀ f ∈ p.flights[i]?, Steady f.awaiting reply) :
    ¬i < p.flights.length ∧ p.answer chain now i reply = (none, p) ∨
      ∃ flight, Flying chain F allowed t p flight ∧ i < p.flights.length ∧
        ((∃ awaiting db,
          p.answer chain now i reply =
              (none, { p with db := db, flights := [{ flight with awaiting }] }) ∧
            Standing p.config chain F ((operated chain).final t.polls) (t.heard ++ [reply]) awaiting
              db) ∨
        ∃ result db,
          p.answer chain now i reply =
              (some result, { p with db := db, flights := [] }.settle result flight.ticking now) ∧
            poll (p.pollOf (t.heard ++ [reply])).1 chain (p.pollOf (t.heard ++ [reply])).2
              ((operated chain).final t.polls) = (result, db) ∧
            (F → Whole (p.pollOf (t.heard ++ [reply])).1 chain (p.pollOf (t.heard ++ [reply])).2
              ((operated chain).final t.polls))) := by
  rcases hflight : p.flights[i]? with _ | f
  · exact .inl ⟨not_lt.2 (List.getElem?_eq_none_iff.1 hflight), by rw [Process.answer, hflight]⟩
  cases h with
  | idle _ _ _ hflights =>
    rw [hflights] at hflight
    cases hflight
  -- at most one poll is in flight, so an answer to any is an answer to this one
  | flying flight h =>
    obtain ⟨rfl, rfl⟩ : i = 0 ∧ flight = f := by
      rw [h.flights] at hflight
      simpa [List.getElem?_cons, List.getElem?_nil, eq_comm] using hflight
    refine .inr ⟨flight, h, by simp [h.flights], ?_⟩
    rw [h.pollOf_eq]
    rcases h.standing.resume h.last (fun hF ↦ hsteady hF flight hflight) with
      ⟨awaiting, db, hresume, hnext⟩ | ⟨result, db, hresume, hpoll, hwhole⟩
    · refine .inl ⟨awaiting, db, ?_, hnext⟩
      rw [Process.answer, hflight]
      dsimp only
      rw [hresume, h.flights]
      rfl
    · refine .inr ⟨result, db, ?_, hpoll, hwhole⟩
      rw [Process.answer, hflight]
      dsimp only
      rw [hresume, h.flights]
      rfl

theorem Sound.answer (h : Sound chain F allowed t p) (now i : ℕ) (reply : Option ℕ)
    (hsteady : F → ∀ f ∈ p.flights[i]?, Steady f.awaiting reply) :
    Sound chain F allowed
      (t.after p (if i < p.flights.length then [reply] else []) (p.answer chain now i reply).1)
      (p.answer chain now i reply).2 := by
  rcases h.answer_cases now i reply hsteady with ⟨hno, hnobody⟩ | ⟨flight, hflying, hi,
    ⟨awaiting, db, hanswer, hstanding⟩ | ⟨result, db, hanswer, hpoll, hwhole⟩⟩
  · rw [if_neg hno, hnobody]
    dsimp only
    rw [Transcript.after, List.append_nil]
    exact h
  · rw [if_pos hi, hanswer]
    exact .flying { flight with awaiting }
      { hflying with
        backed := hflying.backed.hears _
        flights := rfl
        standing := hstanding }
  · rw [if_pos hi, hanswer]
    exact Sound.settle (p := { p with db := db, flights := [] })
      (hflying.backed.ends hflying.config (congrArg Prod.fst hpoll) hwhole) hflying.config
      (congrArg Prod.snd hpoll).symm rfl hflying.pending rfl result flight.ticking now

/-- The end of the process, and the start of the next. -/
theorem Sound.restart (h : Sound chain F allowed t p) (hconfig : allowed config)
    (hunbroken : F → ∀ f ∈ p.flights, f.awaiting.eventHorizon = none) :
    Sound chain F allowed
      (if p.flights = [] then t else t.ends (p.pollOf t.heard) .rejected) (.boot config p.db) := by
  cases h with
  | idle hpolls _ hdb hflights _ hheard =>
    rw [if_pos hflights]
    exact .idle hpolls hconfig hdb rfl (.inl rfl) hheard
  | flying flight h =>
    have hne : p.flights ≠ [] := by simp [h.flights]
    rw [if_neg hne]
    refine .idle (h.backed.ends h.config (congrArg Prod.fst h.poll_eq) fun hF ↦ ?_) hconfig
      (congrArg Prod.snd h.poll_eq).symm rfl (.inl rfl) rfl
    -- a poll that is not caught between its pages has written nothing
    have hnone := hunbroken hF flight (h.flights ▸ List.mem_singleton_self flight)
    refine ⟨?_, fun _ ↦ (congrArg Prod.snd h.poll_eq).trans
      (h.standing.eq_of_eventHorizon hnone)⟩
    rw [h.pollOf_eq, h.standing.pages_eq hnone]
    exact .nil

/-- **Every occurrence keeps it so.** -/
theorem Sound.exec (h : Sound chain F allowed t p) {o : Occurrence}
    (halone : Alone ((process config chain).stepFrom p o))
    (hunbroken : F → Unbroken ((process config chain).stepFrom p o))
    (hallowed : ∀ config, o.happening = .restart config → allowed config) :
    Sound chain F allowed (t.record ((process config chain).stepFrom p o))
      (Process.exec chain o p).2 := by
  obtain ⟨now, happening⟩ := o
  cases happening with
  | start =>
    show Sound chain F allowed (t.after p [] (p.start now).1) (p.start now).2
    unfold Process.start
    split_ifs with hrunning
    · rw [Transcript.after, List.append_nil]
      exact h
    cases h with
    | idle hpolls hconfig hdb hflights htimed hheard =>
      have hpending : p.pending = [] := htimed.resolve_right fun hon ↦ hrunning hon.1
      exact Sound.launch (p := { p with running := true }) hpolls hconfig hdb hflights hpending
        hheard true now
    | flying flight h =>
      rcases halone with hon | hnone
      · exact absurd hon hrunning
      · cases h.flights.symm.trans hnone
  | stop =>
    show Sound chain F allowed (t.after p [] none) p.stop
    rw [Transcript.after, List.append_nil]
    cases h with
    | idle hpolls hconfig hdb hflights htimed hheard =>
      -- the timer to go off, if there is one, is the one that is cleared
      refine .idle hpolls hconfig hdb hflights (.inl ?_) hheard
      rcases htimed with hpending | ⟨-, t, htimer, hpending⟩
      · simp [Process.stop, hpending]
      · simp [Process.stop, hpending, htimer]
    | flying flight h =>
      refine .flying flight { h with pending := ?_ }
      simp [Process.stop, h.pending]
  | pollOnce =>
    obtain ⟨hnone, hpending⟩ := halone
    cases h with
    | idle hpolls hconfig hdb hflights _ hheard =>
      exact .launch hpolls hconfig hdb hflights hpending hheard false now
    | flying flight h => cases h.flights.symm.trans hnone
  | timeout timer =>
    show Sound chain F allowed (t.after p [] (p.timeout now timer).1) (p.timeout now timer).2
    unfold Process.timeout
    split_ifs with htimer
    · cases h with
      | idle hpolls hconfig hdb hflights htimed hheard =>
        refine Sound.launch (p := { p with pending := p.pending.erase timer }) hpolls hconfig hdb
          hflights ?_ hheard true now
        rcases htimed with hpending | ⟨-, t, -, hpending⟩
        · simp [hpending] at htimer
        · obtain rfl : timer = t := by simpa [hpending] using htimer
          simp [hpending]
      | flying _ h => simp [h.pending] at htimer
    · rw [Transcript.after, List.append_nil]
      exact h
  | answer flight reply => exact h.answer now flight reply hunbroken
  | restart config => exact h.restart (hallowed config rfl) hunbroken

end

/-- The process after any run. -/
theorem sound_final (config : Config) (chain : Chain) (F : Prop) (allowed : Config → Prop)
    (inputs : List Occurrence) (hconfig : allowed config)
    (hallowed : ∀ o ∈ inputs, ∀ c, o.happening = .restart c → allowed c)
    (hsteps : ∀ e ∈ (process config chain).history inputs, Alone e ∧ (F → Unbroken e)) :
    Sound chain F allowed (transcript ((process config chain).history inputs))
      ((process config chain).final inputs) := by
  induction inputs with
  | nil => exact .idle ⟨nofun, fun _ ↦ nofun, rfl⟩ hconfig rfl rfl (.inl rfl) rfl
  | cons o inputs ih =>
    rw [List.forall_mem_cons] at hallowed
    rw [System.history_cons, List.forall_mem_cons] at hsteps
    exact (ih hallowed.2 hsteps.2).exec hsteps.1.1 hsteps.1.2 hallowed.1

/-- **A process does what its polls do.** In a run in which no poll is started beside another, at
most one poll is in flight, and none while a timer is to go off. Made one after the other as whole
calls of `poll`, with the configurations and the answers of the transcript, the polls that have
ended have the results they had in the run, and an idle process has the database they leave. The
database of a poll in flight is that of a poll behind them whose server fails after what it has
heard. -/
theorem process_refines_polls (config : Config) (chain : Chain) (inputs : List Occurrence)
    (halone : ∀ e ∈ (process config chain).history inputs, Alone e) :
    let p := (process config chain).final inputs
    let t := transcript ((process config chain).history inputs)
    p.flights.length ≤ 1 ∧ (p.flights ≠ [] → p.pending = []) ∧
      ((operated chain).history t.polls).map Step.result = t.ended.map Prod.snd ∧
      (p.flights = [] → t.heard = [] ∧ p.db = (operated chain).final t.polls) ∧
      (p.flights ≠ [] → (operated chain).exec (p.pollOf t.heard) ((operated chain).final t.polls) =
        (.rejected, p.db)) := by
  intro p t
  have hsound : Sound chain False (fun _ ↦ True) t p :=
    sound_final config chain False (fun _ ↦ True) inputs trivial (fun _ _ _ _ ↦ trivial)
      fun e he ↦ ⟨halone e he, False.elim⟩
  cases hsound with
  | idle hpolls _ hdb hflights _ hheard =>
    rw [hflights]
    exact ⟨Nat.zero_le 1, absurd rfl, hpolls.results, fun _ ↦ ⟨hheard, hdb⟩, absurd rfl⟩
  | flying flight h =>
    have hne : p.flights ≠ [] := by simp [h.flights]
    refine ⟨by simp [h.flights], fun _ ↦ h.pending, h.backed.results, fun hnone ↦ absurd hnone hne,
      fun _ ↦ h.poll_eq⟩

/-- A backfill through ledger 5. -/
def backfillConfig : Config := { breakerConfig with endLedger := 5 }

/-- The first request fails, and the timer goes off; the process ends while it waits for the latest
ledger, and the next one is told of ledger 9, by then with both freezes. -/
def interruptedBackfill : List Occurrence :=
  [⟨60, .answer 0 (some 9)⟩, ⟨50, .answer 0 (some 9)⟩, ⟨41, .start⟩, ⟨40, .restart backfillConfig⟩,
    ⟨30, .timeout 1⟩, ⟨20, .answer 0 none⟩, ⟨10, .start⟩]

/-- The transcript has a poll that failed at once, one that ended with its process, and the one that
reached the end. -/
theorem process_refines_polls_interruptedBackfill :
    let p := (process backfillConfig shortChain).final interruptedBackfill
    let failed : Config × RpcAnswers := (backfillConfig, ⟨none, none, []⟩)
    let backfill : Config × RpcAnswers := (backfillConfig, ⟨none, some 9, [some 9]⟩)
    ((operated shortChain).history [backfill, failed, failed]).map Step.result =
        [.resolved true, .rejected, .rejected] ∧
      p.db = (operated shortChain).final [backfill, failed, failed] := by
  have hflights : ((process backfillConfig shortChain).final interruptedBackfill).flights = [] := by
    decide +kernel
  obtain ⟨-, -, hresults, hidle, -⟩ :=
    process_refines_polls backfillConfig shortChain interruptedBackfill (by decide +kernel)
  exact ⟨hresults, (hidle hflights).2⟩

/-! ### Backfills -/

section

variable {config : Config} {chain : Chain} {F : Prop} {allowed : Config → Prop} {p : Process}
  {t : Transcript} {db : ComplianceDb} {rpc : RpcAnswers}

/-- What a poll does to the checkpoint. -/
theorem poll_checkpoint (config : Config) (chain : Chain) (rpc : RpcAnswers) (db : ComplianceDb) :
    db.getLastIndexedLedger ≤ (poll config chain rpc db).2.getLastIndexedLedger ∧
      (0 < config.endLedger → db.getLastIndexedLedger ≤ config.endLedger →
        (poll config chain rpc db).2.getLastIndexedLedger ≤ config.endLedger) := by
  rcases poll_cases config chain rpc db with hsame | ⟨startLedger, latest, new, left, h⟩
  · rw [hsame]
    exact ⟨le_rfl, fun _ ↦ id⟩
  rcases h.checkpoint with hkept | ⟨through, hset, hstart, htarget, -⟩
  · rw [ComplianceDb.getLastIndexedLedger, ComplianceDb.getLastIndexedLedger, hkept]
    exact ⟨le_rfl, fun _ ↦ id⟩
  · rw [ComplianceDb.getLastIndexedLedger, ComplianceDb.getLastIndexedLedger, hset,
      Option.getD_some, ← ComplianceDb.getLastIndexedLedger]
    refine ⟨?_, fun hend _ ↦ ?_⟩
    · rcases Nat.eq_zero_or_pos db.getLastIndexedLedger with hzero | hpos
      · omega
      · have := startLedgerOf_of_checkpoint hpos h.start_eq
        omega
    · rw [targetLedgerOf, if_pos hend] at htarget
      omega

/-- A poll that stops the indexer has reached the end of the backfill. -/
theorem poll_stopped (h : (poll config chain rpc db).1 = .resolved true) :
    0 < config.endLedger ∧
      config.endLedger ≤ (poll config chain rpc db).2.getLastIndexedLedger := by
  -- of the early returns one stops: the checkpoint had reached the end already
  by_cases hids : config.contractIds.isEmpty = true
  · simp [poll, hids] at h
  rcases hlatest : rpc.latest with _ | latest
  · rw [poll_of_latest_none hids hlatest] at h
    cases h
  rcases hstart : startLedgerOf config rpc db.getLastIndexedLedger with _ | startLedger
  · simp [poll, hids, hstart] at h
  by_cases hdone : 0 < config.endLedger ∧ config.endLedger ≤ db.getLastIndexedLedger
  · simp [poll, hids, hstart, hlatest, hdone]
  by_cases hahead : targetLedgerOf config latest < startLedger
  · simp [poll, hids, hstart, hlatest, hdone, hahead] at h
  obtain ⟨new, left, hfetched⟩ := fetchPages_spec config chain startLedger
    (targetLedgerOf config latest) db.getLastIndexedLedger rpc.pages none none db []
    (chain.watchedFrom config.contractIds startLedger) rfl rfl
  rw [poll_eq_finishPoll hids hstart hlatest hdone hahead] at h ⊢
  rcases hrun : fetchPages config chain startLedger (targetLedgerOf config latest)
    db.getLastIndexedLedger rpc.pages none none db with ⟨_ | _ | eventHorizon, db₁⟩ <;>
    rw [hrun] at h hfetched
  · cases h
  · cases h
  -- otherwise the loop was finished, and the checkpoint it stored is compared with the end
  have hkept : db₁.getLastIndexedLedger = db.getLastIndexedLedger :=
    congrArg (Option.getD · 0) hfetched.wrote.lastLedger_eq
  simp only [finishPoll, PollResult.resolved.injEq, decide_eq_true_eq] at h ⊢
  refine ⟨h.1, h.2.trans ?_⟩
  split_ifs with hmoves
  · exact le_rfl
  · rw [hkept]
    exact not_lt.1 hmoves

/-- A poll that stops the indexer, in a process: nothing is left in flight. -/
theorem Sound.stopped (h : Sound chain F allowed t p) {o : Occurrence}
    (hunbroken : F → Unbroken ((process config chain).stepFrom p o))
    (hresult : (Process.exec chain o p).1 = some (.resolved true)) :
    (Process.exec chain o p).2.flights = [] ∧ 0 < p.config.endLedger ∧
      p.config.endLedger ≤ (Process.exec chain o p).2.db.getLastIndexedLedger := by
  obtain ⟨now, happening⟩ := o
  cases happening with
  | start =>
    simp only [Process.exec, Process.start] at hresult
    split_ifs at hresult
    exact absurd hresult (launch_ne_stopped _ _ _)
  | stop => cases hresult
  | pollOnce => exact absurd hresult (launch_ne_stopped _ _ _)
  | timeout timer =>
    simp only [Process.exec, Process.timeout] at hresult
    split_ifs at hresult
    exact absurd hresult (launch_ne_stopped _ _ _)
  | answer i reply =>
    change (p.answer chain now i reply).1 = _ at hresult
    show (p.answer chain now i reply).2.flights = [] ∧ _ ∧
      _ ≤ (p.answer chain now i reply).2.db.getLastIndexedLedger
    rcases h.answer_cases now i reply hunbroken with ⟨-, hnobody⟩ | ⟨flight, -, -,
      ⟨awaiting, db, hanswer, -⟩ | ⟨result, db, hanswer, hpoll, -⟩⟩
    · rw [hnobody] at hresult
      cases hresult
    · rw [hanswer] at hresult
      cases hresult
    -- the answer that ends the poll in flight: no other is in flight
    · rw [hanswer] at hresult ⊢
      obtain rfl := Option.some.inj hresult
      rw [(settle_spec _ _ _ _).2.1, (settle_spec _ _ _ _).2.2.1]
      have hend := poll_stopped (congrArg Prod.fst hpoll)
      rw [hpoll] at hend
      exact ⟨rfl, hend⟩
  | restart config => cases hresult

/-- Polls with one end do not move the checkpoint beyond it. -/
theorem checkpoint_le_endLedger (hend : 0 < config.endLedger)
    {polls : List (Config × RpcAnswers)} (hpolls : ∀ i ∈ polls, i.1 = config) :
    ((operated chain).final polls).getLastIndexedLedger ≤ config.endLedger := by
  induction polls with
  | nil => exact Nat.zero_le _
  | cons i polls ih =>
    obtain ⟨rfl, hpolls⟩ := List.forall_mem_cons.1 hpolls
    exact (poll_checkpoint i.1 chain i.2 _).2 hend (ih hpolls)

/-- Whole polls from one ledger on, over the same contracts. -/
theorem Backed.indexed {contractIds : List String} {first : ℕ}
    (hpolls : Backed chain True allowed t) (hfirst : 0 < first)
    (hallowed : ∀ c, allowed c → c.contractIds = contractIds ∧ c.startLedger = first) :
    (operated chain).final t.polls = .fresh ∨ ∃ through, first ≤ through ∧
      (operated chain).final t.polls = chain.indexed contractIds first through := by
  rcases indexed_of_whole chain contractIds t.polls
      (fun i hi ↦ (hallowed _ (hpolls.allowed i hi)).1) (hpolls.whole trivial) with
    hfresh | ⟨i, hi, start, through, hstart, hle, hindexed⟩
  · exact .inl hfresh
  · have hpos : 0 < i.1.startLedger := (hallowed _ (hpolls.allowed i hi)).2 ▸ hfirst
    rw [startLedgerOf, if_neg (lt_irrefl 0), if_pos hpos] at hstart
    obtain rfl : first = start :=
      (hallowed _ (hpolls.allowed i hi)).2.symm.trans (Option.some.inj hstart)
    exact .inr ⟨through, hle, hindexed⟩

end

/-- **A backfill that stops by itself is exact.** In every run under one configuration with a first
and a last ledger, in which no poll is started beside another and none is caught between its pages
(where a falling horizon counts as being caught), a poll that stops the indexer leaves the database
of the ledgers from `START_LEDGER` through `END_LEDGER`, with every table as if their events had
been applied in one go. -/
theorem backfill_exact (config : Config) (chain : Chain) (inputs : List Occurrence)
    (hstart : 0 < config.startLedger)
    (hconfig : ∀ o ∈ inputs, ∀ c, o.happening = .restart c → c = config)
    (hsteps : ∀ e ∈ (process config chain).history inputs, Alone e ∧ Unbroken e) :
    ∀ e ∈ (process config chain).history inputs, e.result = some (.resolved true) →
      e.post.db = chain.indexed config.contractIds config.startLedger config.endLedger := by
  intro e he hresult
  obtain ⟨before, hstep, hsuffix⟩ := System.exists_of_mem_history _ he
  have hsteps' : ∀ e' ∈ (process config chain).history (e.input :: before),
      Alone e' ∧ Unbroken e' := fun e' he' ↦
    hsteps e' ((System.history_suffix _ hsuffix).subset he')
  have hconfig' : ∀ o ∈ e.input :: before, ∀ c, o.happening = .restart c → c = config :=
    fun o ho ↦ hconfig o (hsuffix.subset ho)
  have hpre := sound_final config chain True (· = config) before rfl
    (fun o ho ↦ hconfig' o (.tail _ ho)) fun e' he' ↦
      ⟨(hsteps' e' (.tail _ he')).1, fun _ ↦ (hsteps' e' (.tail _ he')).2⟩
  have hpost := sound_final config chain True (· = config) (e.input :: before) rfl hconfig'
    fun e' he' ↦ ⟨(hsteps' e' he').1, fun _ ↦ (hsteps' e' he').2⟩
  have hnow := hsteps' _ (.head _)
  rw [hstep] at hresult ⊢
  -- the poll that stops leaves nothing in flight, and a checkpoint at the end or behind
  obtain ⟨hflights, hend, hreached⟩ := hpre.stopped (fun _ ↦ hnow.2) hresult
  have hsame : ((process config chain).final before).config = config := by
    cases hpre with
    | idle _ hsame => exact hsame
    | flying _ h => exact h.config
  rw [hsame] at hend hreached
  cases hpost with
  | flying _ h => cases h.flights.symm.trans hflights
  | idle hpolls _ hdb =>
    change (Process.exec chain e.input ((process config chain).final before)).2.db = _ at hdb
    show (Process.exec chain e.input ((process config chain).final before)).2.db = _
    -- no poll moves it beyond the end
    have hle := @checkpoint_le_endLedger _ chain hend _ hpolls.allowed
    rw [hdb] at hreached ⊢
    rcases hpolls.indexed hstart fun c hc ↦
      ⟨congrArg Config.contractIds hc, congrArg Config.startLedger hc⟩ with
      hfresh | ⟨through, -, hindexed⟩
    · rw [hfresh] at hreached
      exact absurd hreached (not_le.2 hend)
    · rw [hindexed] at hle hreached ⊢
      obtain rfl : through = config.endLedger := le_antisymm hle hreached
      rfl

theorem backfill_exact_interruptedBackfill :
    ((process backfillConfig shortChain).final interruptedBackfill).db =
      shortChain.indexed backfillConfig.contractIds backfillConfig.startLedger
        backfillConfig.endLedger := by
  have hexact := backfill_exact backfillConfig shortChain interruptedBackfill (by decide)
    (by simp [interruptedBackfill]) (by decide +kernel)
  rw [interruptedBackfill, System.history_cons, List.forall_mem_cons, System.stepFrom_result,
    System.stepFrom_post] at hexact
  rw [interruptedBackfill, System.final_cons]
  exact hexact.1 (by decide +kernel)

end Indexer
