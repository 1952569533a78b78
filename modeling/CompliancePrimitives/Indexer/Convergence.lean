import CompliancePrimitives.Indexer.CheckpointBounds
import CompliancePrimitives.Indexer.Tables

/-!
# Events applied again

A poll that breaks off leaves its rows behind and the checkpoint where it was, so the next one
applies the same events again, to tables that have seen some of them. Each materialized table takes
an event as at most one write to one of its keys, and the write does not depend on what is there
(`allowWrite`, `denyWrite`, `codeWrite`). So a table is what the log of its writes makes of it, and
only the last write to a key counts: whatever was applied before of the same events, the tables come
out as if it had not been (`tables_converge`). So it is with whole polls, too
(`sameTables_repeated`).

A table is the set of its rows. The `events` and `audit_log` tables are another matter: they grow
with every event that is applied again.
-/

namespace Indexer

namespace ComplianceDb

/-! ### Tables as maps -/

/-- A table that is all key, as a map. -/
def rowMap (table : List (String × String)) (key : String × String) : Option Unit :=
  if key ∈ table then some () else none

/-- The codes a key has; in a table with a primary key there is at most one. -/
def codeMap (table : List ((String × String) × String)) (key : String × String) :
    Option (Set String) :=
  some {code | (key, code) ∈ table}

/-- Two databases have the same rows in the materialized tables that have a key. -/
structure SameTables (db' db : ComplianceDb) : Prop where
  /-- The allowlists have the same rows, -/
  allowlist : ∀ row, row ∈ db'.allowlist ↔ row ∈ db.allowlist
  /-- the denylists have, -/
  denylist : ∀ row, row ∈ db'.denylist ↔ row ∈ db.denylist
  /-- and the jurisdictions have. -/
  jurisdictions : ∀ row, row ∈ db'.jurisdictions ↔ row ∈ db.jurisdictions

/-! ### Events as writes -/

/-- The key an event is about, if it names an address. -/
def eventKey (e : RawEvent) : Option (String × String) :=
  (truthy e.address).map (e.contractId, ·)

/-- The write of an event to a table that is all key, from the types of event that add to it and
that take from it. -/
def rowWrite (add remove : String) (e : RawEvent) : Option (Write (String × String) Unit) :=
  if e.eventType = add then (eventKey e).map (⟨·, some ()⟩)
  else if e.eventType = remove then (eventKey e).map (⟨·, none⟩)
  else none

/-- The write of an event to `allowlist`. -/
def allowWrite : RawEvent → Option (Write (String × String) Unit) :=
  rowWrite "AllowAdd" "AllowRemove"

/-- The write of an event to `denylist`. -/
def denyWrite : RawEvent → Option (Write (String × String) Unit) :=
  rowWrite "DenyAdd" "DenyRemove"

/-- The write of an event to `jurisdictions`. -/
def codeWrite (e : RawEvent) : Option (Write (String × String) (Set String)) :=
  if e.eventType = "JurisdictionSet" then do
    let code ← truthy e.jurisdiction
    let key ← eventKey e
    pure ⟨key, some {code}⟩
  else none

section

variable {row key : String × String} {code : String} {table : List (String × String)}
  {coded : List ((String × String) × String)} {e : RawEvent} {db : ComplianceDb}

theorem rowMap_eq_iff {table' : List (String × String)} :
    rowMap table' = rowMap table ↔ ∀ row, row ∈ table' ↔ row ∈ table := by
  rw [funext_iff]
  refine forall_congr' fun row ↦ ?_
  by_cases h' : row ∈ table' <;> by_cases h : row ∈ table <;> simp [rowMap, h', h]

theorem codeMap_eq_iff {coded' : List ((String × String) × String)} :
    codeMap coded' = codeMap coded ↔ ∀ row, row ∈ coded' ↔ row ∈ coded := by
  constructor
  · rintro h ⟨key, code⟩
    exact Set.ext_iff.1 (Option.some.inj (congrFun h key)) code
  · intro h
    funext key
    exact congrArg some (Set.ext fun code ↦ h (key, code))

theorem rowMap_insertOrIgnore :
    rowMap (insertOrIgnore row table) = Function.update (rowMap table) row (some ()) := by
  funext key
  by_cases hkey : key = row <;> simp [rowMap, mem_insertOrIgnore, hkey]

theorem rowMap_delete :
    rowMap (table.filter (decide <| · ≠ row)) = Function.update (rowMap table) row none := by
  funext key
  by_cases hkey : key = row <;> simp [rowMap, hkey]

/-- After an upsert the key has the one code, and the rows of other keys are as before. -/
theorem mem_upsert {key' : String × String} {code' : String} :
    (key', code') ∈ upsert key code coded ↔
      if key' = key then code' = code else (key', code') ∈ coded := by
  unfold upsert
  split_ifs with hany hkey hkey
  -- the key has a row, which is replaced where it stands
  · subst hkey
    rw [List.mem_map]
    constructor
    · rintro ⟨row, -, hrow⟩
      split_ifs at hrow with hrowKey
      · exact (congrArg Prod.snd hrow).symm
      · exact absurd (congrArg Prod.fst hrow) hrowKey
    · rintro rfl
      obtain ⟨row, hmem, hrow⟩ := List.any_eq_true.1 hany
      exact ⟨row, hmem, if_pos (of_decide_eq_true hrow)⟩
  · rw [List.mem_map]
    constructor
    · rintro ⟨row, hmem, hrow⟩
      split_ifs at hrow with hrowKey
      · exact absurd (congrArg Prod.fst hrow).symm hkey
      · exact hrow ▸ hmem
    · intro hmem
      exact ⟨_, hmem, if_neg hkey⟩
  · subst hkey
    rw [List.mem_append, List.mem_singleton, Prod.mk.injEq]
    refine ⟨fun h ↦ h.elim (fun hmem ↦ ?_) And.right, fun h ↦ .inr ⟨rfl, h⟩⟩
    exact absurd (List.any_eq_true.2 ⟨_, hmem, decide_eq_true rfl⟩) hany
  · rw [List.mem_append, List.mem_singleton, Prod.mk.injEq]
    exact or_iff_left fun h ↦ hkey h.1

theorem codeMap_upsert :
    codeMap (upsert key code coded) = Function.update (codeMap coded) key (some {code}) := by
  funext key'
  by_cases hkey : key' = key
  · subst hkey
    simp [codeMap, mem_upsert]
  · simp [codeMap, mem_upsert, hkey]

/-! ### What an event does to the tables -/

/-- **A database and what some events make of it**: each table after the writes of the events. -/
structure Replays (events : List RawEvent) (db db' : ComplianceDb) : Prop where
  /-- The allowlist is what it was, after the additions and removals. -/
  allowlist : rowMap db'.allowlist = replay (rowMap db.allowlist) (events.filterMap allowWrite)
  /-- So is the denylist. -/
  denylist : rowMap db'.denylist = replay (rowMap db.denylist) (events.filterMap denyWrite)
  /-- The jurisdictions are what they were, after the assignments. -/
  jurisdictions : codeMap db'.jurisdictions =
    replay (codeMap db.jurisdictions) (events.filterMap codeWrite)

theorem onAddress_eq (f : String × String → ComplianceDb → ComplianceDb) :
    onAddress e f db = (eventKey e).elim db (f · db) := by
  rw [onAddress, eventKey]
  cases truthy e.address <;> rfl

/-- An event of a type without a write to a table that is all key. -/
theorem rowWrite_eq_none {add remove : String} (hadd : e.eventType ≠ add)
    (hremove : e.eventType ≠ remove) : rowWrite add remove e = none := by
  rw [rowWrite, if_neg hadd, if_neg hremove]

theorem codeWrite_eq_none (h : e.eventType ≠ "JurisdictionSet") : codeWrite e = none := if_neg h

/-- The event adds a row to `allowlist`, or takes it out. -/
theorem Replays.of_allow {f : String × String → List (String × String) → List (String × String)}
    {value : Option Unit} (hdeny : denyWrite e = none) (hcode : codeWrite e = none)
    (hwrite : allowWrite e = (eventKey e).map (⟨·, value⟩))
    (hf : ∀ row, rowMap (f row db.allowlist) =
      Function.update (rowMap db.allowlist) row value) :
    Replays [e] db
      (onAddress e (fun row db ↦ { db with allowlist := f row db.allowlist }) db) := by
  rw [onAddress_eq]
  rcases hkey : eventKey e with _ | row
  · rw [hkey, Option.map_none] at hwrite
    exact ⟨by simp [hwrite], by simp [hdeny], by simp [hcode]⟩
  · rw [hkey, Option.map_some] at hwrite
    exact ⟨by simpa [hwrite, Write.apply] using hf row, by simp [hdeny], by simp [hcode]⟩

/-- The event adds a row to `denylist`, or takes it out. -/
theorem Replays.of_deny {f : String × String → List (String × String) → List (String × String)}
    {value : Option Unit} (hallow : allowWrite e = none) (hcode : codeWrite e = none)
    (hwrite : denyWrite e = (eventKey e).map (⟨·, value⟩))
    (hf : ∀ row, rowMap (f row db.denylist) = Function.update (rowMap db.denylist) row value) :
    Replays [e] db
      (onAddress e (fun row db ↦ { db with denylist := f row db.denylist }) db) := by
  rw [onAddress_eq]
  rcases hkey : eventKey e with _ | row
  · rw [hkey, Option.map_none] at hwrite
    exact ⟨by simp [hallow], by simp [hwrite], by simp [hcode]⟩
  · rw [hkey, Option.map_some] at hwrite
    exact ⟨by simp [hallow], by simpa [hwrite, Write.apply] using hf row, by simp [hcode]⟩

/-- The event writes to no table. -/
theorem Replays.of_none {db' : ComplianceDb} (hallow : allowWrite e = none)
    (hdeny : denyWrite e = none) (hcode : codeWrite e = none) (hsame : SameTables db' db) :
    Replays [e] db db' where
  allowlist := by simpa [hallow] using rowMap_eq_iff.2 hsame.allowlist
  denylist := by simpa [hdeny] using rowMap_eq_iff.2 hsame.denylist
  jurisdictions := by simpa [hcode] using codeMap_eq_iff.2 hsame.jurisdictions

theorem sameTables_refl (db : ComplianceDb) : SameTables db db :=
  ⟨fun _ ↦ Iff.rfl, fun _ ↦ Iff.rfl, fun _ ↦ Iff.rfl⟩

/-- **One event.** -/
theorem replays_updateState (e : RawEvent) (db : ComplianceDb) :
    Replays [e] db (updateState e db) := by
  unfold updateState
  split_ifs with hallow hdisallow hdeny hundeny hset
  · exact .of_allow (rowWrite_eq_none (by rw [hallow]; decide) (by rw [hallow]; decide))
      (codeWrite_eq_none (by rw [hallow]; decide)) (if_pos hallow) fun _ ↦ rowMap_insertOrIgnore
  · exact .of_allow (rowWrite_eq_none (by rw [hdisallow]; decide) (by rw [hdisallow]; decide))
      (codeWrite_eq_none (by rw [hdisallow]; decide))
      ((if_neg hallow).trans (if_pos hdisallow)) fun _ ↦ rowMap_delete
  · exact .of_deny (rowWrite_eq_none hallow hdisallow) (codeWrite_eq_none (by rw [hdeny]; decide))
      (if_pos hdeny) fun _ ↦ rowMap_insertOrIgnore
  · exact .of_deny (rowWrite_eq_none hallow hdisallow)
      (codeWrite_eq_none (by rw [hundeny]; decide)) ((if_neg hdeny).trans (if_pos hundeny))
      fun _ ↦ rowMap_delete
  · have hallowWrite : allowWrite e = none := rowWrite_eq_none hallow hdisallow
    have hdenyWrite : denyWrite e = none := rowWrite_eq_none hdeny hundeny
    have hwrite : codeWrite e = (truthy e.jurisdiction).bind fun code ↦
        (eventKey e).bind fun key ↦ some ⟨key, some {code}⟩ := if_pos hset
    -- a row without a code, or without an address, writes nothing
    rcases hcode : truthy e.jurisdiction with _ | code
    · rw [hcode, Option.bind_none] at hwrite
      exact .of_none hallowWrite hdenyWrite hwrite (sameTables_refl db)
    dsimp only
    rw [onAddress_eq]
    rw [hcode, Option.bind_some] at hwrite
    rcases hkey : eventKey e with _ | key
    · rw [hkey, Option.bind_none] at hwrite
      exact .of_none hallowWrite hdenyWrite hwrite (sameTables_refl db)
    · rw [hkey, Option.bind_some] at hwrite
      exact ⟨by simp [hallowWrite], by simp [hdenyWrite],
        by simpa [hwrite, Write.apply] using codeMap_upsert⟩
  -- any other row is of the audit log at most, which is not a materialized table
  · refine .of_none (rowWrite_eq_none hallow hdisallow) (rowWrite_eq_none hdeny hundeny)
      (codeWrite_eq_none hset) ?_
    cases auditRow e <;> exact ⟨fun _ ↦ Iff.rfl, fun _ ↦ Iff.rfl, fun _ ↦ Iff.rfl⟩

/-- Events behind other events. -/
theorem Replays.append {events later : List RawEvent} {db₁ db₂ : ComplianceDb}
    (h : Replays events db db₁) (hlater : Replays later db₁ db₂) :
    Replays (events ++ later) db db₂ := by
  refine ⟨?_, ?_, ?_⟩
  · rw [List.filterMap_append, replay_append, ← h.allowlist]
    exact hlater.allowlist
  · rw [List.filterMap_append, replay_append, ← h.denylist]
    exact hlater.denylist
  · rw [List.filterMap_append, replay_append, ← h.jurisdictions]
    exact hlater.jurisdictions

/-- **A batch**, and any number of batches one after the other. -/
theorem replays_applyEvents (events : List RawEvent) (db : ComplianceDb) :
    Replays events db (applyEvents events db) := by
  induction events generalizing db with
  | nil => exact ⟨rfl, rfl, rfl⟩
  | cons e events ih =>
    -- the row in `events` is not seen in the tables compared
    obtain ⟨hallow, hdeny, hcode⟩ := replays_updateState e (insertEvent e db)
    have hfirst : Replays [e] db (updateState e (insertEvent e db)) := ⟨hallow, hdeny, hcode⟩
    exact hfirst.append (ih (updateState e (insertEvent e db)))

end

/-! ### Batches applied again -/

/-- Batches of events applied one after the other. -/
def applyAll (batches : List (List RawEvent)) (db : ComplianceDb) : ComplianceDb :=
  batches.foldl (fun db batch ↦ db.applyEvents batch) db

theorem applyAll_eq (batches : List (List RawEvent)) (db : ComplianceDb) :
    db.applyAll batches = db.applyEvents batches.flatten := by
  rw [applyAll, applyEvents, List.foldl_flatten]
  rfl

/-- Writes of events that are all applied again leave no trace. -/
theorem replay_filterMap_absorbs {κ ν : Type} [DecidableEq κ]
    (write : RawEvent → Option (Write κ ν)) (σ : κ → Option ν) {earlier events : List RawEvent}
    (hagain : ∀ e ∈ earlier, e ∈ events) :
    replay (replay σ (earlier.filterMap write)) (events.filterMap write) =
      replay σ (events.filterMap write) := by
  refine replay_absorbs σ fun w hw ↦ ?_
  obtain ⟨e, he, hwrite⟩ := List.mem_filterMap.1 hw
  exact ⟨w, List.mem_filterMap.2 ⟨e, hagain e he, hwrite⟩, rfl⟩

/-- **Earlier events are absorbed** once all of them have been applied again. -/
theorem Replays.absorbed {earlier events : List RawEvent} {db db₁ db₂ db' : ComplianceDb}
    (hearlier : Replays earlier db db₁) (hevents : Replays events db₁ db₂)
    (honce : Replays events db db') (hagain : ∀ e ∈ earlier, e ∈ events) :
    SameTables db₂ db' := by
  refine ⟨rowMap_eq_iff.1 ?_, rowMap_eq_iff.1 ?_, codeMap_eq_iff.1 ?_⟩
  · rw [hevents.allowlist, hearlier.allowlist, honce.allowlist,
      replay_filterMap_absorbs allowWrite _ hagain]
  · rw [hevents.denylist, hearlier.denylist, honce.denylist,
      replay_filterMap_absorbs denyWrite _ hagain]
  · rw [hevents.jurisdictions, hearlier.jurisdictions, honce.jurisdictions,
      replay_filterMap_absorbs codeWrite _ hagain]

/-- **The tables converge.** Events applied before, in whatever order and number, are not seen in
the tables once all of them have been applied again, however either are divided into batches. -/
theorem tables_converge (db : ComplianceDb) {earlier batches batches' : List (List RawEvent)}
    (hagain : ∀ e ∈ earlier.flatten, e ∈ batches.flatten)
    (hsame : batches'.flatten = batches.flatten) :
    SameTables ((db.applyAll earlier).applyAll batches) (db.applyAll batches') := by
  rw [applyAll_eq, applyAll_eq, applyAll_eq, hsame]
  exact (replays_applyEvents earlier.flatten db).absorbed
    (replays_applyEvents batches.flatten (db.applyEvents earlier.flatten))
    (replays_applyEvents batches.flatten db) hagain

/-- A row of some type about one address, with a code if it has one. -/
def addressRow (eventType : String) (code : Option String) : RawEvent :=
  { blankRow ⟨1, none, "C", 1, [], ""⟩ eventType with address := some "G", jurisdiction := code }

/-- A poll that broke off behind an addition, and its retry with the removal behind that. -/
theorem tables_converge_retry :
    SameTables
      ((fresh.applyAll
        [[addressRow "AllowAdd" none, addressRow "JurisdictionSet" (some "US")]]).applyAll
        [[addressRow "AllowAdd" none, addressRow "JurisdictionSet" (some "US")],
          [addressRow "AllowRemove" none, addressRow "JurisdictionSet" (some "CA")]])
      (fresh.applyAll [[addressRow "AllowAdd" none, addressRow "JurisdictionSet" (some "US"),
        addressRow "AllowRemove" none, addressRow "JurisdictionSet" (some "CA")]]) :=
  tables_converge fresh
    (by
      intro e he
      exact List.mem_append_left _ he)
    rfl

end ComplianceDb

/-! ### Polls that are repeated -/

open ComplianceDb

/-- The rows a poll applies: none if it has nothing to do or cannot start, and otherwise those of
the pages it accepts. -/
def polledRows (config : Config) (rpc : RpcSession) (db : ComplianceDb) : List RawEvent :=
  if config.contractIds.isEmpty then []
  else
    match startLedgerOf config rpc.ledgers db.getLastIndexedLedger, rpc.latest with
    | some startLedger, some latest =>
      let targetLedger := targetLedgerOf config latest
      if 0 < config.endLedger ∧ config.endLedger ≤ db.getLastIndexedLedger then []
      else if targetLedger < startLedger then []
      else
        pageRows startLedger targetLedger
          (acceptedPages config targetLedger db.getLastIndexedLedger rpc.pages none)
    | _, _ => []

/-- After the loop, at most the checkpoint is written. -/
theorem finishPoll_snd (config : Config) (startLedger targetLedger lastIndexed : ℕ)
    (left : PageExit × ComplianceDb) :
    ∃ last, (finishPoll config startLedger targetLedger lastIndexed left).2 =
      { left.2 with lastLedger := last } := by
  obtain ⟨exit, db⟩ := left
  rcases exit with _ | _ | eventHorizon
  · exact ⟨db.lastLedger, rfl⟩
  · exact ⟨db.lastLedger, rfl⟩
  · rw [finishPoll]
    dsimp only
    split_ifs
    · exact ⟨_, rfl⟩
    · exact ⟨db.lastLedger, rfl⟩

/-- **What a poll leaves**, however it ends: its rows, and perhaps another checkpoint. -/
theorem pollSession_snd (config : Config) (rpc : RpcSession) (db : ComplianceDb) :
    ∃ last, (pollSession config rpc db).2 =
      { db.applyEvents (polledRows config rpc db) with lastLedger := last } := by
  have hnone : ∃ last, db = { db.applyEvents [] with lastLedger := last } := ⟨db.lastLedger, rfl⟩
  by_cases hids : config.contractIds.isEmpty = true
  · simpa only [pollSession, polledRows, if_pos hids] using hnone
  simp only [pollSession, polledRows, if_neg hids]
  rcases startLedgerOf config rpc.ledgers db.getLastIndexedLedger with _ | startLedger
  · exact hnone
  rcases rpc.latest with _ | latest
  · exact hnone
  dsimp only
  split_ifs
  · exact hnone
  · exact hnone
  · rw [← (loopSpec_fetchResults config startLedger (targetLedgerOf config latest)
      db.getLastIndexedLedger rpc.pages none db).rows_eq]
    exact finishPoll_snd config startLedger (targetLedgerOf config latest)
      db.getLastIndexedLedger _

/-- A poll is one more batch to the tables. -/
theorem replays_pollSession (config : Config) (rpc : RpcSession) (db : ComplianceDb) :
    Replays (polledRows config rpc db) db (pollSession config rpc db).2 := by
  obtain ⟨last, hpoll⟩ := pollSession_snd config rpc db
  obtain ⟨hallow, hdeny, hcode⟩ := replays_applyEvents (polledRows config rpc db) db
  rw [hpoll]
  exact ⟨hallow, hdeny, hcode⟩

/-- The rows that were applied in the polls of a run. -/
def appliedRows (config : Config) :
    List (Step ComplianceDb RpcSession PollResult) → List RawEvent
  | [] => []
  | poll :: before => appliedRows config before ++ polledRows config poll.input poll.pre

/-- A run of polls is their batches one after the other. -/
theorem replays_final (config : Config) (db : ComplianceDb) (polls : List RpcSession) :
    Replays (appliedRows config (((sessionSystem config).startingAt db).history polls)) db
      (((sessionSystem config).startingAt db).final polls) := by
  induction polls with
  | nil => exact replays_applyEvents [] db
  | cons rpc polls ih => exact ih.append (replays_pollSession config rpc _)

/-- **Polls that are repeated converge.** Once a poll has applied all that the polls before it
applied, wherever these broke off, the tables are as if it had been the only one. -/
theorem sameTables_repeated {config : Config} {db : ComplianceDb} {rpc : RpcSession}
    {polls : List RpcSession}
    (hagain : ∀ e ∈ appliedRows config (((sessionSystem config).startingAt db).history polls),
      e ∈ polledRows config rpc (((sessionSystem config).startingAt db).final polls)) :
    SameTables (((sessionSystem config).startingAt db).final (rpc :: polls))
      (db.applyEvents
        (polledRows config rpc (((sessionSystem config).startingAt db).final polls))) :=
  (replays_final config db polls).absorbed (replays_pollSession config rpc _)
    (replays_applyEvents _ db) hagain

end Indexer
