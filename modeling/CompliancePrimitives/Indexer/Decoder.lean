import CompliancePrimitives.Indexer.Xdr

/-!
# From an event of the chain to a row

`decodeEvent` turns what the RPC server delivers into the row the database stores, or into nothing
where the event is not one of those the indexer knows. It never fails: whatever goes wrong while
topics and data are parsed counts as an unknown event.

The row carries every column of the `events` table. Most events fill few of them, so each branch is
`blankRow` with the columns of that event written over it, where the source sometimes writes all
columns out.

The JSON text of the topics is kept as the list it is the text of, and the instant a ledger closed
at is kept in milliseconds, as `Date` has it once the text is parsed.
-/

namespace Indexer

/-- `RawSorobanEvent`, without the fields nothing reads. The paging token is a number here: it is
only ever handed back to the server. -/
structure RawSorobanEvent where
  ledger : ℕ
  /-- The instant `ledgerClosedAt` denotes, in milliseconds; `none` where the text is empty. -/
  ledgerClosedAt : Option ℤ
  contractId : String
  pagingToken : ℕ
  /-- XDR-encoded topics. -/
  topic : List String
  /-- XDR-encoded data, empty where there is none. -/
  value : String
  deriving DecidableEq, Repr

/-- `RawEvent`: one row of the `events` table. -/
structure RawEvent where
  ledgerSequence : ℕ
  timestamp : Option ℤ
  contractId : String
  eventType : String
  address : Option String
  addressTo : Option String
  amount : Option String
  jurisdiction : Option String
  kind : Option String
  source : Option String
  detail : Option String
  signerAddress : Option String
  newThreshold : Option ℕ
  validCount : Option ℕ
  policyFrom : Option String
  policyTo : Option String
  policyPassed : Option Bool
  rawTopics : List String
  rawData : String
  deriving DecidableEq, Repr

/-- `KNOWN_EVENTS`. -/
def knownEvents : List String :=
  ["AllowAdd", "AllowRemove", "Blocked", "DenyAdd", "DenyRemove", "JurisdictionSet",
    "JurisdictionExpired", "JurisdictionRemoved", "Frozen", "Unfrozen", "AdminSet",
    "DenylistGateSet", "JurisdictionFlagSet", "CircuitBreakerSet", "PolicyResult", "SignerAdd",
    "SignerRm", "ThreshSet", "AuthOk"]

/-- `CONTRACT_EVENT_NAMES`. -/
def contractEventNames : List (String × String) :=
  [("allow_add", "AllowAdd"), ("allow_remove", "AllowRemove"), ("blocked", "Blocked"),
    ("deny_add", "DenyAdd"), ("deny_remove", "DenyRemove"),
    ("jurisdiction_set", "JurisdictionSet"), ("jurisdiction_expired", "JurisdictionExpired"),
    ("jurisdiction_removed", "JurisdictionRemoved"), ("frozen", "Frozen"),
    ("unfrozen", "Unfrozen"), ("policy_result", "PolicyResult"), ("admin_set", "AdminSet"),
    ("denylist_gate_set", "DenylistGateSet"), ("jurisdiction_flag_set", "JurisdictionFlagSet"),
    ("circuit_breaker_set", "CircuitBreakerSet")]

/-- The type of an event by the name in its first topic: names the table does not have stay as they
are. -/
def eventTypeOf (name : String) : String :=
  ((contractEventNames.find? fun e ↦ decide (e.1 = name)).map Prod.snd).getD name

/-- `mapField`. -/
def mapField (data : ScVal) (name : String) : Option ScVal :=
  match data with
  | .map entries => mapGet entries name
  | _ => none

/-- The text of an address, and nothing of any other value. -/
def asAddress : Option ScVal → Option String
  | some (.address value) => some value
  | _ => none

/-- The text of a string, and nothing of any other value. -/
def asString : Option ScVal → Option String
  | some (.string value) => some value
  | _ => none

/-- The decimal digits of a 128-bit number, and nothing of any other value. -/
def asAmount : Option ScVal → Option String
  | some (.i128 value) => some (toString value)
  | _ => none

/-- A 32-bit number, and nothing of any other value. -/
def asU32 : Option ScVal → Option ℕ
  | some (.u32 value) => some value
  | _ => none

/-- The row of an event whose type needs no further columns. -/
def blankRow (raw : RawSorobanEvent) (eventType : String) : RawEvent where
  ledgerSequence := raw.ledger
  timestamp := raw.ledgerClosedAt.map (· / 1000)
  contractId := raw.contractId
  eventType := eventType
  address := none
  addressTo := none
  amount := none
  jurisdiction := none
  kind := none
  source := none
  detail := none
  signerAddress := none
  newThreshold := none
  validCount := none
  policyFrom := none
  policyTo := none
  policyPassed := none
  rawTopics := raw.topic
  rawData := raw.value

/-! ### The events of each kind -/

/-- The audit log's `ComplianceEvent`, recognized by its shape. -/
def decodeComplianceEvent (raw : RawSorobanEvent) (topics : List ScVal) (data : ScVal) :
    Option RawEvent :=
  match topics with
  | [.symbol name, .symbol kind, .address subject] =>
    if name = "compliance_event" then
      match asAddress (mapField data "source"), asString (mapField data "detail") with
      | some source, some detail =>
        some
          { blankRow raw "ComplianceEvent" with
            address := some subject, kind := some kind, source := some source
            detail := some detail }
      | _, _ => none
    else none
  | _ => none

/-- `PolicyResult`. -/
def decodePolicyResult (raw : RawSorobanEvent) (topics : List ScVal) (data : ScVal) :
    Option RawEvent :=
  match (topics[1]? : Option ScVal) with
  | some (.bool passed) =>
    some
      { blankRow raw "PolicyResult" with
        policyFrom := asAddress (mapField data "from"), policyTo := asAddress (mapField data "to")
        policyPassed := some passed }
  | _ => none

/-- The events that only name a configured address. -/
def decodeConfigSet (raw : RawSorobanEvent) (eventType : String) (topics : List ScVal) :
    Option RawEvent := do
  let address ← asAddress topics[1]?
  pure { blankRow raw eventType with address := some address }

/-- `SignerAdd` and `SignerRm`. -/
def decodeSigner (raw : RawSorobanEvent) (eventType : String) (topics : List ScVal) :
    Option RawEvent := do
  let signer ← asAddress topics[1]?
  pure { blankRow raw eventType with signerAddress := some signer }

/-- `ThreshSet`. -/
def decodeThreshSet (raw : RawSorobanEvent) (data : ScVal) : Option RawEvent := do
  let threshold ← asU32 (some data)
  pure { blankRow raw "ThreshSet" with newThreshold := some threshold }

/-- `AuthOk`: a vector of two numbers, and a row without them for any other data. -/
def decodeAuthOk (raw : RawSorobanEvent) (data : ScVal) : RawEvent :=
  match data with
  | .vec [v0, v1] =>
    { blankRow raw "AuthOk" with
      validCount := asU32 (some v0), newThreshold := asU32 (some v1) }
  | _ => blankRow raw "AuthOk"

/-- The events whose second topic is the address they are about. -/
def decodeAddressed (raw : RawSorobanEvent) (eventType : String) (topics : List ScVal)
    (data : ScVal) : Option RawEvent := do
  let address ← asAddress topics[1]?
  let blocked := decide (eventType = "Blocked")
  pure
    { blankRow raw eventType with
      address := some address
      addressTo := if blocked then asAddress topics[2]? else none
      amount := if blocked then asAmount (mapField data "amount") else none
      jurisdiction :=
        if eventType = "JurisdictionSet" then asString (mapField data "code") else none }

/-- What remains of `decodeEvent` once topics and data are parsed. -/
def decodeVals (raw : RawSorobanEvent) (topics : List ScVal) (data : ScVal) : Option RawEvent :=
  match decodeComplianceEvent raw topics data with
  | some row => some row
  | none =>
    match topics with
    | .symbol name :: _ =>
      let eventType := eventTypeOf name
      if eventType = "Frozen" ∨ eventType = "Unfrozen" then some (blankRow raw eventType)
      else if eventType ∉ knownEvents then none
      else if eventType = "PolicyResult" then decodePolicyResult raw topics data
      else if eventType = "AdminSet" ∨ eventType = "DenylistGateSet" ∨
          eventType = "JurisdictionFlagSet" ∨ eventType = "CircuitBreakerSet" then
        decodeConfigSet raw eventType topics
      else if eventType = "SignerAdd" ∨ eventType = "SignerRm" then
        decodeSigner raw eventType topics
      else if eventType = "ThreshSet" then decodeThreshSet raw data
      else if eventType = "AuthOk" then some (decodeAuthOk raw data)
      else decodeAddressed raw eventType topics data
    | _ => none

/-- One base64 text, parsed. -/
def decodeText (b64 : String) : Option ScVal := do
  let bytes ← base64ToBytes b64
  decodeBytes bytes

/-- `decodeEvent`. -/
def decodeEvent (raw : RawSorobanEvent) : Option RawEvent :=
  if raw.topic.isEmpty then none
  else do
    let topics ← raw.topic.mapM decodeText
    let data ← if raw.value.isEmpty then some .void else decodeText raw.value
    decodeVals raw topics data

/-! ### What a row is made from -/

/-- The row is made from the event, as one of the type. -/
structure RowOf (raw : RawSorobanEvent) (eventType : String) (row : RawEvent) : Prop where
  /-- The ledger is that of the event, -/
  ledgerSequence_eq : row.ledgerSequence = raw.ledger
  /-- the contract is, -/
  contractId_eq : row.contractId = raw.contractId
  /-- and the type is the one that was recognized. -/
  eventType_eq : row.eventType = eventType

/-- A name of an event the indexer knows. -/
def IsKnown (name : String) : Prop :=
  name = "compliance_event" ∨ eventTypeOf name ∈ knownEvents

instance (name : String) : Decidable (IsKnown name) := inferInstanceAs (Decidable (_ ∨ _))

/-- The type of the row of an event, by the name in its first topic. -/
def rowType (name : String) : String :=
  if name = "compliance_event" then "ComplianceEvent" else eventTypeOf name

section

variable {raw : RawSorobanEvent} {topics : List ScVal} {data : ScVal} {eventType : String}
  {row : RawEvent}

theorem decodeComplianceEvent_rowOf (h : decodeComplianceEvent raw topics data = some row) :
    (∃ rest, topics = .symbol "compliance_event" :: rest) ∧ RowOf raw "ComplianceEvent" row := by
  unfold decodeComplianceEvent at h
  split at h
  · split_ifs at h with hname
    split at h
    · cases h
      exact ⟨⟨_, by rw [hname]⟩, rfl, rfl, rfl⟩
    · cases h
  · cases h

theorem decodePolicyResult_rowOf (h : decodePolicyResult raw topics data = some row) :
    RowOf raw "PolicyResult" row := by
  unfold decodePolicyResult at h
  split at h <;> cases h
  exact ⟨rfl, rfl, rfl⟩

theorem decodeConfigSet_rowOf (h : decodeConfigSet raw eventType topics = some row) :
    RowOf raw eventType row := by
  obtain ⟨address, -, hrow⟩ := Option.bind_eq_some_iff.1 h
  cases hrow
  exact ⟨rfl, rfl, rfl⟩

theorem decodeSigner_rowOf (h : decodeSigner raw eventType topics = some row) :
    RowOf raw eventType row := by
  obtain ⟨signer, -, hrow⟩ := Option.bind_eq_some_iff.1 h
  cases hrow
  exact ⟨rfl, rfl, rfl⟩

theorem decodeThreshSet_rowOf (h : decodeThreshSet raw data = some row) :
    RowOf raw "ThreshSet" row := by
  obtain ⟨threshold, -, hrow⟩ := Option.bind_eq_some_iff.1 h
  cases hrow
  exact ⟨rfl, rfl, rfl⟩

theorem decodeAuthOk_rowOf : RowOf raw "AuthOk" (decodeAuthOk raw data) := by
  unfold decodeAuthOk
  split <;> exact ⟨rfl, rfl, rfl⟩

theorem decodeAddressed_rowOf (h : decodeAddressed raw eventType topics data = some row) :
    RowOf raw eventType row := by
  obtain ⟨address, -, hrow⟩ := Option.bind_eq_some_iff.1 h
  cases hrow
  exact ⟨rfl, rfl, rfl⟩

/-- **A row is of the type its first topic names**, which is one the indexer knows. -/
theorem decodeVals_rowOf (h : decodeVals raw topics data = some row) :
    ∃ name rest, topics = .symbol name :: rest ∧ IsKnown name ∧
      RowOf raw (rowType name) row := by
  unfold decodeVals at h
  split at h
  next hcompliance =>
    cases h
    obtain ⟨⟨rest, htopics⟩, hrow⟩ := decodeComplianceEvent_rowOf hcompliance
    exact ⟨_, rest, htopics, .inl rfl, hrow⟩
  next =>
    split at h
    next name rest _ =>
      have hrow : eventTypeOf name ∈ knownEvents ∧ RowOf raw (eventTypeOf name) row := by
        dsimp only at h
        split_ifs at h with hfrozen hknown hpolicy hconfig hsigner hthresh hauth
        · cases h
          refine ⟨?_, rfl, rfl, rfl⟩
          rcases hfrozen with heq | heq <;> rw [heq] <;> decide
        all_goals refine ⟨hknown, ?_⟩
        · rw [hpolicy]
          exact decodePolicyResult_rowOf h
        · exact decodeConfigSet_rowOf h
        · exact decodeSigner_rowOf h
        · rw [hthresh]
          exact decodeThreshSet_rowOf h
        · cases h
          rw [hauth]
          exact decodeAuthOk_rowOf
        · exact decodeAddressed_rowOf h
      -- the audit log's name is not in the table, so it is not known under it
      have hname : name ≠ "compliance_event" := by
        rintro rfl
        exact absurd hrow.1 (by decide)
      have htype : rowType name = eventTypeOf name := if_neg hname
      exact ⟨name, rest, rfl, .inr hrow.1, htype ▸ hrow.2⟩
    next => cases h

/-- **A row says which event it is from.** -/
theorem decodeEvent_rowOf (h : decodeEvent raw = some row) :
    ∃ name rest, raw.topic.mapM decodeText = some (.symbol name :: rest) ∧ IsKnown name ∧
      RowOf raw (rowType name) row := by
  unfold decodeEvent at h
  split_ifs at h
  all_goals
    obtain ⟨topics, htopics, hrest⟩ := Option.bind_eq_some_iff.1 h
    obtain ⟨data, -, hvals⟩ := Option.bind_eq_some_iff.1 hrest
    obtain ⟨name, rest, rfl, hknown, hrow⟩ := decodeVals_rowOf hvals
    exact ⟨name, rest, htopics, hknown, hrow⟩

theorem decodeEvent_ledgerSequence (h : decodeEvent raw = some row) :
    row.ledgerSequence = raw.ledger := by
  obtain ⟨_, _, -, -, hrow⟩ := decodeEvent_rowOf h
  exact hrow.ledgerSequence_eq

end

end Indexer
