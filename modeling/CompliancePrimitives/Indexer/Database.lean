import CompliancePrimitives.Indexer.Decoder

/-!
# The indexer's database

The tables `poll` writes, as lists of rows in the order of their insertion, and the checkpoint. The
`events` and `audit_log` tables are only ever appended to and have no key but a running number; the
materialized tables have a key, and inserting a row whose key is there already either does nothing
or replaces it.

`applyEvents` writes a batch in one transaction, and local writes succeed: the two operations that
change the database are functions of it.

Columns hold the texts they are given. That is so for texts **without a NUL**: sql.js hands a text
to SQLite as a C string, which ends there. Identifiers, rendered addresses, codes and symbols have
none, nor has XDR in base64; where a text may be anything, as a detail may, what is proved about it
asks for it (`AuditLog.Storable`).
-/

namespace Indexer

/-- One row of the `audit_log` table. -/
structure AuditRow where
  contractId : String
  ledger : ℕ
  timestamp : Option ℤ
  kind : String
  subject : String
  source : String
  detail : String
  deriving DecidableEq, Repr

/-- `ComplianceDb`. The `jurisdictions` table has a code for each of its keys. -/
structure ComplianceDb where
  events : List RawEvent
  auditLog : List AuditRow
  allowlist : List (String × String)
  denylist : List (String × String)
  jurisdictions : List ((String × String) × String)
  /-- The value under `last_ledger` in `indexer_state`. -/
  lastLedger : Option ℕ
  deriving DecidableEq, Repr

namespace ComplianceDb

/-- A database just opened for the first time. -/
def fresh : ComplianceDb where
  events := []
  auditLog := []
  allowlist := []
  denylist := []
  jurisdictions := []
  lastLedger := none

@[simp]
theorem events_fresh : fresh.events = [] := rfl

/-! ### Statements -/

/-- Keys of rows are compared column by column. -/
instance : LawfulBEq (String × String) := inferInstance

/-- `INSERT OR IGNORE`, for a table that is all key. -/
def insertOrIgnore (row : String × String) (table : List (String × String)) :
    List (String × String) :=
  if row ∈ table then table else table ++ [row]

/-- `INSERT … ON CONFLICT … DO UPDATE`. -/
def upsert (key : String × String) (value : String)
    (table : List ((String × String) × String)) : List ((String × String) × String) :=
  if table.any fun row ↦ decide (row.1 = key) then
    table.map fun row ↦ if row.1 = key then (key, value) else row
  else table ++ [(key, value)]

/-- A column that is there and not empty. -/
def truthy : Option String → Option String
  | none => none
  | some value => if value.isEmpty then none else some value

/-! ### Applying events -/

/-- `insertEvent`. -/
def insertEvent (e : RawEvent) (db : ComplianceDb) : ComplianceDb :=
  { db with events := db.events ++ [e] }

/-- The `audit_log` row of an event, where it has one. -/
def auditRow (e : RawEvent) : Option AuditRow :=
  if e.eventType = "ComplianceEvent" then do
    let kind ← truthy e.kind
    let subject ← truthy e.address
    let source ← e.source
    pure
      { contractId := e.contractId, ledger := e.ledgerSequence, timestamp := e.timestamp
        kind, subject, source, detail := e.detail.getD "" }
  else none

/-- Change the materialized tables about the address of an event, if it names one. -/
def onAddress (e : RawEvent) (f : String × String → ComplianceDb → ComplianceDb)
    (db : ComplianceDb) : ComplianceDb :=
  match truthy e.address with
  | some address => f (e.contractId, address) db
  | none => db

/-- `updateState`. -/
def updateState (e : RawEvent) (db : ComplianceDb) : ComplianceDb :=
  if e.eventType = "AllowAdd" then
    onAddress e (fun row db ↦ { db with allowlist := insertOrIgnore row db.allowlist }) db
  else if e.eventType = "AllowRemove" then
    onAddress e (fun row db ↦ { db with allowlist := db.allowlist.filter (decide <| · ≠ row) }) db
  else if e.eventType = "DenyAdd" then
    onAddress e (fun row db ↦ { db with denylist := insertOrIgnore row db.denylist }) db
  else if e.eventType = "DenyRemove" then
    onAddress e (fun row db ↦ { db with denylist := db.denylist.filter (decide <| · ≠ row) }) db
  else if e.eventType = "JurisdictionSet" then
    match truthy e.jurisdiction with
    | some code =>
      onAddress e (fun row db ↦ { db with jurisdictions := upsert row code db.jurisdictions }) db
    | none => db
  else
    match auditRow e with
    | some row => { db with auditLog := db.auditLog ++ [row] }
    | none => db

/-- `applyEvents`. -/
def applyEvents (events : List RawEvent) (db : ComplianceDb) : ComplianceDb :=
  events.foldl (fun db e ↦ updateState e (insertEvent e db)) db

/-- `isAllowlisted`. -/
def isAllowlisted (contractId address : String) (db : ComplianceDb) : Bool :=
  decide ((contractId, address) ∈ db.allowlist)

/-! ### The checkpoint -/

/-- `getLastIndexedLedger`. -/
def getLastIndexedLedger (db : ComplianceDb) : ℕ := db.lastLedger.getD 0

/-- `setLastIndexedLedger`. -/
def setLastIndexedLedger (ledger : ℕ) (db : ComplianceDb) : ComplianceDb :=
  { db with lastLedger := some ledger }

@[simp]
theorem getLastIndexedLedger_set {ledger : ℕ} {db : ComplianceDb} :
    (db.setLastIndexedLedger ledger).getLastIndexedLedger = ledger := rfl

@[simp]
theorem events_setLastIndexedLedger {ledger : ℕ} {db : ComplianceDb} :
    (db.setLastIndexedLedger ledger).events = db.events := rfl

/-! ### What applying events writes -/

section

variable {e : RawEvent} {db : ComplianceDb}

/-- What holds of a database and of every change about the contract of an event. -/
theorem onAddress_induction {P : ComplianceDb → Prop}
    {f : String × String → ComplianceDb → ComplianceDb} (hdb : P db)
    (hf : ∀ row : String × String, row.1 = e.contractId → P (f row db)) : P (onAddress e f db) := by
  unfold onAddress
  split
  · exact hf _ rfl
  · exact hdb

/-- **What materializing an event leaves alone**: all but the materialized tables, of which the
audit log gets the row of the event. -/
theorem updateState_spec (e : RawEvent) (db : ComplianceDb) :
    (updateState e db).events = db.events ∧ (updateState e db).lastLedger = db.lastLedger ∧
      (updateState e db).auditLog = db.auditLog ++ (auditRow e).toList := by
  by_cases haudit : e.eventType = "ComplianceEvent"
  · have hupdate : updateState e db =
        match auditRow e with
        | some row => { db with auditLog := db.auditLog ++ [row] }
        | none => db := by
      simp [updateState, haudit]
    rw [hupdate]
    rcases auditRow e with _ | row <;> simp
  · have hrow : auditRow e = none := if_neg haudit
    have honAddress : ∀ f : String × String → ComplianceDb → ComplianceDb,
        (∀ row, (f row db).events = db.events ∧ (f row db).lastLedger = db.lastLedger ∧
          (f row db).auditLog = db.auditLog) →
        (onAddress e f db).events = db.events ∧ (onAddress e f db).lastLedger = db.lastLedger ∧
          (onAddress e f db).auditLog = db.auditLog := fun f hf ↦
      onAddress_induction
        (P := fun db' ↦ db'.events = db.events ∧ db'.lastLedger = db.lastLedger ∧
          db'.auditLog = db.auditLog) ⟨rfl, rfl, rfl⟩ fun row _ ↦ hf row
    rw [hrow, Option.toList_none, List.append_nil]
    unfold updateState
    split_ifs
    iterate 4 exact honAddress _ fun row ↦ ⟨rfl, rfl, rfl⟩
    · split
      · exact honAddress _ fun row ↦ ⟨rfl, rfl, rfl⟩
      · exact ⟨rfl, rfl, rfl⟩
    · rw [hrow]
      exact ⟨rfl, rfl, rfl⟩

/-- Two batches, one after the other, come to one. -/
theorem applyEvents_append (events events' : List RawEvent) (db : ComplianceDb) :
    applyEvents (events ++ events') db = applyEvents events' (applyEvents events db) :=
  List.foldl_append

/-- **What a batch writes**: its rows, in order, and the audit rows of those that have one. The
checkpoint stays. -/
theorem applyEvents_spec (events : List RawEvent) (db : ComplianceDb) :
    (applyEvents events db).events = db.events ++ events ∧
      (applyEvents events db).lastLedger = db.lastLedger ∧
      (applyEvents events db).auditLog = db.auditLog ++ events.filterMap auditRow := by
  induction events generalizing db with
  | nil => simp [applyEvents]
  | cons e events ih =>
    obtain ⟨hevents, hlast, haudit⟩ := ih (updateState e (insertEvent e db))
    obtain ⟨hevents', hlast', haudit'⟩ := updateState_spec e (insertEvent e db)
    refine ⟨?_, hlast.trans hlast', ?_⟩
    · refine hevents.trans ?_
      rw [hevents', insertEvent, List.append_assoc, List.singleton_append]
    · refine haudit.trans ?_
      rw [haudit', insertEvent, List.append_assoc]
      rcases hrow : auditRow e with _ | row <;> simp [hrow]

end

end ComplianceDb

end Indexer
