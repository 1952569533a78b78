import CompliancePrimitives.Contracts.AuditLog.Growth
import CompliancePrimitives.Foundation.Announced
import CompliancePrimitives.Indexer.EventRoundTrip
import CompliancePrimitives.Indexer.Tables

/-!
# The audit log and the table of it

The `audit_log` table of the indexer against the `audit-log` contract. Both only grow, so what is
compared is not a map but two lists: the rows of the contract, in the order of their insertion, are
its entries from the first to the last, each with its ledger and its detail byte by byte
(`auditTable_refines`).

Three things are lost on the way, and none of them is claimed. An entry of an **empty kind** has no
row, since `updateState` takes the empty text for a missing one. The detail is bytes on the chain
but text in the table: of a detail that is not UTF-8, or that starts with a byte order mark, the row
has what `TextDecoder` makes of it. And a text with a NUL in it would be cut there when it is bound.
What survives is `Storable`.
-/

open Indexer Indexer.ComplianceDb Encoding Soroban

namespace AuditLog

/-! ### On the chain -/

/-- The events of `audit-log`. -/
def Event.published : Event ScAddress → Published
  | .complianceEvent kind subject source detail =>
    (ComplianceEvent.mk kind subject source detail).published
  | .upgradePerformed admin newWasmHash =>
    contractEvent "upgrade_performed" [.address admin]
      [("new_wasm_hash", .bytes newWasmHash.toList)]
  | .paused admin => contractEvent "paused" [.address admin] []
  | .unpaused admin => contractEvent "unpaused" [.address admin] []

/-- What an event says was recorded, in the ledger it was published in. -/
def Event.entry {Address : Type} (ledger : ℕ) : Event Address → Option (LogEntry Address)
  | .complianceEvent kind subject source detail => some { source, kind, subject, detail, ledger }
  | _ => none

/-- What is published in a run, each event with its ledger. -/
def publishedIn {Address : Type} (h : List (Moment Address)) : List (Event Address × ℕ) :=
  announced State.events (fun i ↦ i.env.sequence) h

section

variable {Address : Type}

/-- What a completed call publishes is the entry it makes, and no entry of another. -/
theorem published_invoke [DecidableEq Address] {env : Env Address} {call : Call Address}
    {s s' : State Address} {u : Unit} (h : invoke env call s = .ok (u, s')) :
    ∃ events, s'.events = s.events ++ events ∧
      events.filterMap (Event.entry env.sequence) =
        (⟨env, call⟩ : Input Address).entry.toList ∧
      ∀ entry, (⟨env, call⟩ : Input Address).entry = some entry →
        entry.detail.length ≤ maxDetailLen := by
  cases call with
  -- of the events, `record` has the only one that is an entry
  | initialise admin =>
    obtain ⟨-, -, rfl⟩ := initialise_eq_ok_iff.1 h
    exact ⟨[], (List.append_nil _).symm, rfl, fun _ h ↦ (nomatch h)⟩
  | pause admin =>
    obtain ⟨-, -, rfl⟩ := pause_eq_ok_iff.1 h
    exact ⟨_, rfl, rfl, fun _ h ↦ (nomatch h)⟩
  | unpause admin =>
    obtain ⟨-, -, rfl⟩ := unpause_eq_ok_iff.1 h
    exact ⟨_, rfl, rfl, fun _ h ↦ (nomatch h)⟩
  | upgrade admin newWasmHash =>
    obtain ⟨-, -, rfl⟩ := upgrade_eq_ok_iff.1 h
    exact ⟨_, rfl, rfl, fun _ h ↦ (nomatch h)⟩
  | record source kind subject detail =>
    obtain ⟨-, -, hlength, -, -, rfl⟩ := record_eq_ok_iff.1 h
    refine ⟨_, rfl, rfl, ?_⟩
    rintro _ ⟨⟩
    exact hlength

/-- **The log is what its events say**, after every run, and no detail in it is too long. -/
theorem recorded_eq_published [DecidableEq Address] (inputs : List (Input Address)) :
    recorded (system.history inputs) =
        (publishedIn (system.history inputs)).filterMap (fun e ↦ e.1.entry e.2) ∧
      ∀ entry ∈ recorded (system.history inputs), entry.detail.length ≤ maxDetailLen := by
  induction inputs with
  | nil => exact ⟨rfl, fun _ h ↦ (nomatch h)⟩
  | cons i inputs ih =>
    obtain ⟨hsame, hlengths⟩ := ih
    rw [System.history_cons, recorded_cons, publishedIn, announced_cons, List.filterMap_append,
      ← publishedIn, ← hsame]
    have hcomposed : ∀ (events : List (Event Address)) (ledger : ℕ),
        (events.map fun event ↦ (event, ledger)).filterMap
          (fun e : Event Address × ℕ ↦ e.1.entry e.2) = events.filterMap (Event.entry ledger) :=
      fun events ledger ↦ List.filterMap_map
    rcases Tx.commit_cases (invoke i.env i.call) (system.final inputs) with
      ⟨u, s', hrun, hcommit⟩ | ⟨f, -, hcommit⟩
    -- a call that completes publishes the entry it appends, dated by its ledger
    · have hexec : system.exec i (system.final inputs) = (.ok u, s') := hcommit
      obtain ⟨events, hevents, hentries, hlength⟩ := published_invoke hrun
      have hentry : entryOf (system.stepFrom (system.final inputs) i) = i.entry := by
        rw [entryOf, System.stepFrom_result, hexec]
        rfl
      have hnew : announcedBy State.events (fun i ↦ i.env.sequence)
          (system.stepFrom (system.final inputs) i) =
          events.map fun event ↦ (event, i.env.sequence) := by
        rw [announcedBy, System.stepFrom_post, hexec, hevents, System.stepFrom_pre,
          List.drop_left]
        rfl
      rw [hnew, hcomposed, hentries, hentry]
      refine ⟨rfl, fun entry hmem ↦ ?_⟩
      rcases List.mem_append.1 hmem with hold | hlast
      · exact hlengths entry hold
      · exact hlength entry (Option.mem_toList.1 hlast)
    · have hexec : system.exec i (system.final inputs) = (.error f, system.final inputs) := hcommit
      have hentry : entryOf (system.stepFrom (system.final inputs) i) = none := by
        rw [entryOf, System.stepFrom_result, hexec]
      have hnew : announcedBy State.events (fun i ↦ i.env.sequence)
          (system.stepFrom (system.final inputs) i) = [] := by
        rw [announcedBy, System.stepFrom_post, hexec, System.stepFrom_pre, List.drop_length]
        rfl
      rw [hnew, hentry, Option.toList_none, List.append_nil]
      exact ⟨(List.append_nil _).symm, hlengths⟩

end

/-! ### In the database -/

/-- The row of the table that a delivered event makes, where it makes one. -/
def rowOf (raw : RawSorobanEvent) : Option AuditRow := (decodeEvent raw).bind auditRow

/-- The row of an event is one of the contract it was delivered from. -/
theorem contractId_of_rowOf {raw : RawSorobanEvent} {row : AuditRow} (h : rowOf raw = some row) :
    row.contractId = raw.contractId := by
  obtain ⟨e, he, hrow⟩ := Option.bind_eq_some_iff.1 h
  obtain ⟨_, _, -, -, hof⟩ := decodeEvent_rowOf he
  rw [auditRow] at hrow
  split_ifs at hrow
  obtain ⟨kind, -, hrow⟩ := Option.bind_eq_some_iff.1 hrow
  obtain ⟨subject, -, hrow⟩ := Option.bind_eq_some_iff.1 hrow
  obtain ⟨source, -, hrow⟩ := Option.bind_eq_some_iff.1 hrow
  cases hrow
  exact hof.contractId_eq

/-- Batches append the rows of their events. -/
theorem auditLog_applyBatches (batches : List (List RawSorobanEvent)) (db : ComplianceDb) :
    (db.applyBatches batches).auditLog = db.auditLog ++ batches.flatten.filterMap rowOf := by
  induction batches generalizing db with
  | nil => exact (List.append_nil _).symm
  | cons batch batches ih =>
    have hfirst := (applyEvents_spec (batch.filterMap decodeEvent) db).2.2
    refine (ih _).trans ?_
    rw [hfirst, List.filterMap_filterMap, List.flatten_cons, List.filterMap_append,
      List.append_assoc]
    rfl

/-- The rows of a contract are made by its events. -/
theorem filter_rows (contractId : String) (stream : List RawSorobanEvent) :
    (stream.filterMap rowOf).filter (fun row ↦ row.contractId = contractId) =
      (stream.filter fun raw ↦ decide (raw.contractId = contractId)).filterMap rowOf := by
  rw [List.filter_filterMap, List.filterMap_filter]
  refine List.filterMap_congr fun raw _ ↦ ?_
  rcases hrow : rowOf raw with _ | row
  · simp
  · have hcontract := contractId_of_rowOf hrow
    by_cases h : raw.contractId = contractId <;> simp [hcontract, h]

/-- What a row says: where it is from, apart. -/
structure Statement where
  ledger : ℕ
  kind : String
  subject : String
  source : String
  detail : String
  deriving DecidableEq

/-- What a row says. -/
def rowSays (row : AuditRow) : Statement :=
  ⟨row.ledger, row.kind, row.subject, row.source, row.detail⟩

/-- What an entry says, in the texts of the indexer. -/
def entrySays (entry : LogEntry ScAddress) : Statement :=
  ⟨entry.ledger, entry.kind, rendered entry.subject, rendered entry.source,
    textDecode entry.detail⟩

/-- The row of a record says what the columns of the event say, unless the kind is empty. -/
theorem rowSays_auditRow {e : RawEvent} {kind source detail : String} {subject : ScAddress}
    (htype : e.eventType = "ComplianceEvent") (hkind : e.kind = some kind)
    (hsubject : e.address = some (rendered subject)) (hsource : e.source = some source)
    (hdetail : e.detail = some detail) :
    (auditRow e).map rowSays =
      if kind = "" then none
      else some ⟨e.ledgerSequence, kind, rendered subject, source, detail⟩ := by
  rw [auditRow, if_pos htype, hkind, hsubject, hsource, hdetail, truthy_rendered, truthy]
  by_cases hempty : kind = ""
  · simp [hempty]
  · simp [hempty, rowSays]

/-- **What a delivered event puts into the table**: the entry it announces, unless its kind is
empty. -/
theorem rowSays_rowOf {raw : RawSorobanEvent} {e : Event ScAddress × ℕ}
    (h : DeliversAt Event.published raw e) (hentry : ∀ entry, e.1.entry e.2 = some entry →
      Legible entry.kind ∧ entry.detail.length ≤ maxDetailLen) :
    (rowOf raw).map rowSays =
      ((e.1.entry e.2).filter fun entry ↦ entry.kind ≠ "").map entrySays := by
  obtain ⟨event, ledger⟩ := e
  obtain ⟨hdelivers, hledger⟩ := h
  cases event with
  | complianceEvent kind subject source detail =>
    obtain ⟨hkind, hdetail⟩ := hentry _ rfl
    have hlong : detail.length < 2 ^ 32 := lt_of_le_of_lt hdetail (by decide)
    have hnames : LegibleNames ["detail", "source"] := by decide
    have hdecoded : decodeEvent raw =
        some { blankRow raw "ComplianceEvent" with
          address := some (rendered subject), kind := some kind, source := some (rendered source)
          detail := some (textDecode detail) } := by
      have hcontract : Delivers raw (contractEvent "compliance_event"
          [.symbol kind, .address subject] [("detail", .string detail),
            ("source", .address source)]) := hdelivers
      rw [decodeEvent_contractEvent hcontract (by decide) ⟨hkind.2, trivial, trivial⟩ hnames
        ⟨hlong, trivial, trivial⟩, renderedItems, hkind.renderedVal_symbol]
      rfl
    rw [rowOf, hdecoded, Option.bind_some, rowSays_auditRow rfl rfl rfl rfl rfl]
    by_cases hempty : kind = ""
    · simp [Event.entry, hempty]
    · simp [Event.entry, hempty, entrySays, blankRow, hledger]
  -- the other events of the contract are unknown to the decoder
  | upgradePerformed admin newWasmHash =>
    have hname : Legible "upgrade_performed" := by decide
    rw [rowOf, decodeEvent_of_unknown hdelivers hname (by decide)]
    rfl
  | paused admin =>
    have hname : Legible "paused" := by decide
    rw [rowOf, decodeEvent_of_unknown hdelivers hname (by decide)]
    rfl
  | unpaused admin =>
    have hname : Legible "unpaused" := by decide
    rw [rowOf, decodeEvent_of_unknown hdelivers hname (by decide)]
    rfl

/-- What is delivered event by event is put into the table event by event. -/
theorem rowsSay_of_delivered {stream : List RawSorobanEvent} {events : List (Event ScAddress × ℕ)}
    (h : List.Forall₂ (DeliversAt Event.published) stream events)
    (hentries : ∀ entry ∈ events.filterMap (fun e ↦ e.1.entry e.2),
      Legible entry.kind ∧ entry.detail.length ≤ maxDetailLen) :
    (stream.filterMap rowOf).map rowSays =
      ((events.filterMap fun e ↦ e.1.entry e.2).filter fun entry ↦
        entry.kind ≠ "").map entrySays := by
  induction h with
  | nil => rfl
  | @cons raw e stream events hraw _ ih =>
    have hhead := rowSays_rowOf hraw fun entry hentry ↦ hentries entry <| by
      rw [List.filterMap_cons, hentry]
      exact List.mem_cons_self
    have htail := ih fun entry hentry ↦ hentries entry <| by
      rw [List.filterMap_cons]
      cases e.1.entry e.2 with
      | none => exact hentry
      | some _ => exact List.mem_cons_of_mem _ hentry
    rw [List.filterMap_cons, List.filterMap_cons]
    -- the event has a row and is an entry, or neither, or is an entry without a kind
    rcases hrow : rowOf raw with _ | row <;> rcases hentry : e.1.entry e.2 with _ | entry <;>
      rw [hrow, hentry] at hhead
    · exact htail
    · have hempty : entry.kind = "" := by
        by_contra hne
        simp [hne] at hhead
      simpa [hempty] using htail
    · simp at hhead
    · have hne : entry.kind ≠ "" := by
        rintro hempty
        simp [hempty] at hhead
      have hsaid : entrySays entry = rowSays row := by simpa [hne] using hhead
      simp [hne, hsaid, htail]

/-- The rows of a contract whose events batches deliver. -/
theorem auditRows_applyBatches {contractId : String} {batches : List (List RawSorobanEvent)}
    {db : ComplianceDb} {events : List (Event ScAddress × ℕ)}
    (hcarries : List.Forall₂ (DeliversAt Event.published)
      (batches.flatten.filter fun raw ↦ decide (raw.contractId = contractId)) events)
    (hdb : ∀ row ∈ db.auditLog, row.contractId ≠ contractId)
    (hentries : ∀ entry ∈ events.filterMap (fun e ↦ e.1.entry e.2),
      Legible entry.kind ∧ entry.detail.length ≤ maxDetailLen) :
    ((db.applyBatches batches).auditLog.filter fun row ↦ row.contractId = contractId).map rowSays =
      ((events.filterMap fun e ↦ e.1.entry e.2).filter fun entry ↦
        entry.kind ≠ "").map entrySays := by
  have hold : db.auditLog.filter (fun row ↦ row.contractId = contractId) = [] :=
    List.filter_eq_nil_iff.2 fun row hrow ↦ by simpa using hdb row hrow
  rw [auditLog_applyBatches, List.filter_append, hold, List.nil_append, filter_rows,
    rowsSay_of_delivered hcarries hentries]

/-! ### The table is the log -/

/-- A text that reaches the table whole: `TextDecoder` gives it back, and there is no NUL in it, at
which a bound text would be cut. -/
structure Storable (text : String) : Prop where
  /-- It is short enough for XDR and has no byte order mark. -/
  legible : Legible text
  /-- It has no NUL. -/
  whole : Char.ofNat 0 ∉ text.toList

instance (text : String) : Decidable (Storable text) :=
  decidable_of_iff (Legible text ∧ Char.ofNat 0 ∉ text.toList)
    ⟨fun h ↦ ⟨h.1, h.2⟩, fun h ↦ ⟨h.legible, h.whole⟩⟩

/-- **A row is the record of an entry.** -/
structure Records (row : AuditRow) (entry : LogEntry ScAddress) : Prop where
  /-- It was recorded in this ledger. -/
  ledger : row.ledger = entry.ledger
  /-- The kind is a symbol, whose text is that of the column. -/
  kind : row.kind = entry.kind
  /-- The subject is stored as the indexer renders addresses. -/
  subject : row.subject = rendered entry.subject
  /-- So is the source. -/
  source : row.source = rendered entry.source
  /-- The text in the column is that of the bytes on the chain. -/
  detail : utf8 row.detail = entry.detail

/-- What is said of an entry with a text for its detail is all of it. -/
theorem records_of_rowSays {row : AuditRow} {entry : LogEntry ScAddress}
    (hdetail : ∃ text, Storable text ∧ entry.detail = utf8 text)
    (hsaid : rowSays row = entrySays entry) : Records row entry := by
  obtain ⟨text, htext, hbytes⟩ := hdetail
  have hcolumn : row.detail = textDecode entry.detail := congrArg Statement.detail hsaid
  rw [hbytes, textDecode_utf8 htext.legible.1] at hcolumn
  exact ⟨congrArg Statement.ledger hsaid, congrArg Statement.kind hsaid,
    congrArg Statement.subject hsaid, congrArg Statement.source hsaid, by rw [hcolumn, hbytes]⟩

/-- Rows that say what entries say are their records, one for one. -/
theorem forall₂_records {rows : List AuditRow} {entries : List (LogEntry ScAddress)}
    (hdetails : ∀ entry ∈ entries, ∃ text, Storable text ∧ entry.detail = utf8 text)
    (hsaid : rows.map rowSays = entries.map entrySays) : List.Forall₂ Records rows entries := by
  induction entries generalizing rows with
  | nil =>
    rw [List.map_nil, List.map_eq_nil_iff] at hsaid
    rw [hsaid]
    exact .nil
  | cons entry entries ih =>
    obtain ⟨hdetail, hdetails⟩ := List.forall_mem_cons.1 hdetails
    obtain ⟨row, rows', rfl, hrow, hrows⟩ := List.map_eq_cons_iff.1 hsaid
    exact .cons (records_of_rowSays hdetail hrow) (ih hdetails hrows)

/-- **The table is the log.** After every run of the contract, and however its events were divided
into batches and mixed with those of others, the rows of the contract are the records of what can be
read from the log, from the first entry to the last, except for the entries of an empty kind. The
texts of the log are assumed to be such as the table can hold. -/
theorem auditTable_refines (calls : List (Input ScAddress)) (contractId : String)
    (batches : List (List RawSorobanEvent)) (db : ComplianceDb)
    (hcarries : List.Forall₂ (DeliversAt Event.published)
      (batches.flatten.filter fun raw ↦ decide (raw.contractId = contractId))
      (publishedIn (system.history calls)))
    (hdb : ∀ row ∈ db.auditLog, row.contractId ≠ contractId)
    (hkinds : ∀ entry ∈ trail (system.final calls), Storable entry.kind)
    (hdetails : ∀ entry ∈ trail (system.final calls),
      ∃ text, Storable text ∧ entry.detail = utf8 text) :
    List.Forall₂ Records
      ((db.applyBatches batches).auditLog.filter fun row ↦ row.contractId = contractId)
      ((trail (system.final calls)).filter fun entry ↦ entry.kind ≠ "") := by
  refine forall₂_records (fun entry hentry ↦ hdetails entry (List.mem_filter.1 hentry).1) ?_
  rw [trail_eq_recorded] at hkinds ⊢
  obtain ⟨hpublished, hlengths⟩ := recorded_eq_published calls
  rw [hpublished]
  refine auditRows_applyBatches hcarries hdb ?_
  rw [← hpublished]
  exact fun entry hentry ↦ ⟨(hkinds entry hentry).legible, hlengths entry hentry⟩

/-- A host that grants everything, at ledger 7. -/
def openHost : Env ScAddress where
  sequence := 7
  timestamp := 0
  auths := fun _ ↦ true

/-- A record, and one of an empty kind. -/
def recordingRun : List (Input ScAddress) :=
  [⟨openHost, .record someContract "" someAccount []⟩,
    ⟨openHost, .record someContract "deny_add" someAccount (utf8 "§ 3, 10 €")⟩,
    ⟨openHost, .initialise someContract⟩]

/-- The events of the run, delivered in one batch. -/
def deliveredBatch : List RawSorobanEvent :=
  [delivery "CAUDIT" 7 (Event.complianceEvent "deny_add" someAccount someContract
      (utf8 "§ 3, 10 €")).published,
    delivery "CAUDIT" 7 (Event.complianceEvent "" someAccount someContract []).published]

/-- The table has the first of the two. -/
theorem auditTable_refines_recordingRun :
    List.Forall₂ Records
      ((fresh.applyBatches [deliveredBatch]).auditLog.filter fun row ↦ row.contractId = "CAUDIT")
      [⟨someContract, "deny_add", someAccount, utf8 "§ 3, 10 €", 7⟩] := by
  have htrail : trail (system.final recordingRun) =
      [⟨someContract, "deny_add", someAccount, utf8 "§ 3, 10 €", 7⟩,
        ⟨someContract, "", someAccount, [], 7⟩] := by
    decide +kernel
  have hrefines := auditTable_refines recordingRun "CAUDIT" [deliveredBatch] fresh ?_ ?_ ?_ ?_
  · rw [htrail] at hrefines
    exact hrefines
  · have hannounced : publishedIn (system.history recordingRun) =
        [(.complianceEvent "deny_add" someAccount someContract (utf8 "§ 3, 10 €"), 7),
          (.complianceEvent "" someAccount someContract [], 7)] := by
      decide +kernel
    rw [hannounced]
    exact .cons ⟨delivers_delivery _ _ _, rfl⟩ (.cons ⟨delivers_delivery _ _ _, rfl⟩ .nil)
  · exact fun row hrow ↦ absurd hrow List.not_mem_nil
  · rw [htrail]
    decide +kernel
  · rw [htrail]
    rintro entry hentry
    rcases List.mem_cons.1 hentry with rfl | hentry
    · exact ⟨"§ 3, 10 €", by decide +kernel, rfl⟩
    · obtain rfl := List.mem_singleton.1 hentry
      exact ⟨"", by decide, rfl⟩

end AuditLog
