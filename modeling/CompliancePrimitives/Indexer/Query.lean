import CompliancePrimitives.Indexer.Database
import CompliancePrimitives.Indexer.Delivery
import CompliancePrimitives.Indexer.StrKeys

/-!
# Looking up events by address

`queryEventsByAddress` selects the rows whose primary or secondary address is the text it is given,
newest first. The documented text is the address as people write it, `G…` or `C…`; the text in the
tables is what the decoder made of the address.

Of an account these are the same. Of a contract they never are: every address in a row is the
rendering of some address (`rowAddresses`), and the StrKey of a contract renders none. So a query
for a contract finds nothing, and finds every event exactly when there is none
(`query_findsAll_iff`).

The other half of the statement is about what is in the tables: which columns a row has addresses in
depends on its type, and `AddressesFrom` says for all types at once that they come from the topics,
as the decoder rendered them, so that no other text can match.
-/

namespace Indexer

open Encoding Soroban

/-! ### The query -/

/-- The options of a query; `offset` and `limit` are 0 and 100 where they are not given. -/
structure QueryOptions where
  contractId : Option String
  eventType : Option String
  limit : Option ℕ
  offset : Option ℕ

/-- The `WHERE` clause. A filter that is empty is not made. -/
def Matches (address : String) (options : QueryOptions) (e : RawEvent) : Prop :=
  (e.address = some address ∨ e.addressTo = some address) ∧
    (∀ contractId ∈ ComplianceDb.truthy options.contractId, e.contractId = contractId) ∧
    ∀ eventType ∈ ComplianceDb.truthy options.eventType, e.eventType = eventType

instance (address : String) (options : QueryOptions) (e : RawEvent) :
    Decidable (Matches address options e) :=
  inferInstanceAs (Decidable (_ ∧ _ ∧ _))

/-- `ORDER BY ledger_sequence DESC, id DESC`, for rows with their `id`. -/
def newer (x y : RawEvent × ℕ) : Prop :=
  y.1.ledgerSequence < x.1.ledgerSequence ∨
    (y.1.ledgerSequence = x.1.ledgerSequence ∧ y.2 ≤ x.2)

instance : DecidableRel newer := fun _ _ ↦ inferInstanceAs (Decidable (_ ∨ _))

instance : Std.Total newer where
  total x y := by
    unfold newer
    omega

instance : IsTrans (RawEvent × ℕ) newer where
  trans x y z hxy hyz := by
    unfold newer at *
    omega

/-- `queryEventsByAddress`. Rows are numbered from one in the order of their insertion. -/
def ComplianceDb.queryEventsByAddress (address : String) (options : QueryOptions)
    (db : ComplianceDb) : List RawEvent :=
  let rows := (db.events.zipIdx 1).filter fun row ↦ decide (Matches address options row.1)
  (((rows.insertionSort newer).drop (options.offset.getD 0)).take
    (options.limit.getD 100)).map Prod.fst

/-! ### The addresses of a row -/

/-- What is taken is as long as was asked for. -/
theorem length_of_takeBytes {n skip : ℕ} {r r' : XdrReader} {bytes : Bytes}
    (h : takeBytes n skip r = .ok (bytes, r')) : bytes.length = n := by
  obtain ⟨hroom, rfl, -⟩ := takeBytes_eq_ok_iff.1 h
  rw [List.length_take, List.length_drop]
  omega

/-- 32 bytes, as a key or a hash. -/
def bytes32 (raw : Bytes) (h : raw.length = 32) : Bytes32 := ⟨raw.toArray, by simpa using h⟩

/-- Whatever is read as an address renders one. -/
theorem readAddress_rendered {r r' : XdrReader} {v : ScVal}
    (h : readAddress r = .ok (v, r')) : ∃ a, v = .address (rendered a) := by
  obtain ⟨addrType, _, -, h⟩ := Tx.bind_eq_ok_iff.1 h
  split_ifs at h with haccount
  · obtain ⟨_, _, -, h⟩ := Tx.bind_eq_ok_iff.1 h
    obtain ⟨raw, hraw, rfl⟩ := Tx.bind_pure_eq_ok_iff.1 h
    exact ⟨.account (bytes32 raw (length_of_takeBytes hraw)), rfl⟩
  · obtain ⟨raw, hraw, rfl⟩ := Tx.bind_pure_eq_ok_iff.1 h
    exact ⟨.contract (bytes32 raw (length_of_takeBytes hraw)), rfl⟩

/-- A reader of something else than an address. -/
def NoAddress (x : Reader ScVal) : Prop :=
  ∀ ⦃r v r'⦄, x r = .ok (v, r') → ∀ text, v ≠ .address text

theorem noAddress_pure {v : ScVal} (hv : ∀ text, v ≠ .address text) :
    NoAddress (pure v : Reader ScVal) := by
  intro r w r' h
  rw [(Tx.pure_eq_ok_iff.1 h).1]
  exact hv

/-- What is read before does not matter. -/
theorem noAddress_bind {α : Type} {x : Reader α} {k : α → Reader ScVal}
    (hk : ∀ a, NoAddress (k a)) : NoAddress (x >>= k) := by
  intro r v r' h
  obtain ⟨a, r₁, -, hrest⟩ := Tx.bind_eq_ok_iff.1 h
  exact hk a hrest

/-- A value that is an address renders one. -/
theorem decodeScVal_address {depth : ℕ} {r r' : XdrReader} {text : String}
    (h : decodeScVal depth r = .ok (.address text, r')) : ∃ a, text = rendered a := by
  cases depth with
  | zero => cases h
  | succ depth =>
    obtain ⟨disc, r₁, -, hrest⟩ := Tx.bind_eq_ok_iff.1 h
    -- no kind of value but an address is one, whatever is read for it
    split at hrest
    next => exact absurd rfl (noAddress_bind (fun word ↦ noAddress_pure (by simp)) hrest text)
    next => exact absurd rfl (noAddress_pure (by simp) hrest text)
    next => exact absurd rfl (noAddress_bind (fun value ↦ noAddress_pure (by simp)) hrest text)
    next => exact absurd rfl (noAddress_bind (fun value ↦ noAddress_pure (by simp)) hrest text)
    next => exact absurd rfl (noAddress_bind (fun value ↦ noAddress_pure (by simp)) hrest text)
    next =>
      exact absurd rfl (noAddress_bind (fun hi ↦ noAddress_bind fun lo ↦ noAddress_pure (by simp))
        hrest text)
    next =>
      obtain ⟨a, ha⟩ := readAddress_rendered hrest
      cases ha
      exact ⟨a, rfl⟩
    next =>
      refine absurd rfl (noAddress_bind (fun present ↦ ?_) hrest text)
      split_ifs
      · exact noAddress_pure (by simp)
      · exact noAddress_bind fun len ↦ noAddress_bind fun items ↦ noAddress_pure (by simp)
    next =>
      refine absurd rfl (noAddress_bind (fun present ↦ ?_) hrest text)
      split_ifs
      · exact noAddress_pure (by simp)
      · exact noAddress_bind fun len ↦ noAddress_bind fun entries ↦ noAddress_pure (by simp)
    next => exact absurd rfl (noAddress_pure (by simp) hrest text)

theorem decodeText_address {b64 text : String} (h : decodeText b64 = some (.address text)) :
    ∃ a, text = rendered a := by
  obtain ⟨bytes, -, hbytes⟩ := Option.bind_eq_some_iff.1 h
  rw [decodeBytes] at hbytes
  split at hbytes
  next value r hread =>
    cases hbytes
    exact decodeScVal_address hread
  next => cases hbytes

/-- What is parsed is parsed text by text. -/
theorem exists_of_mem_topics {topic : List String} {topics : List ScVal}
    (h : topic.mapM decodeText = some topics) {v : ScVal} (hv : v ∈ topics) :
    ∃ b64, decodeText b64 = some v := by
  induction topic generalizing topics with
  | nil =>
    cases h
    cases hv
  | cons b64 topic ih =>
    rw [List.mapM_cons] at h
    obtain ⟨first, hfirst, hrest⟩ := Option.bind_eq_some_iff.1 h
    obtain ⟨others, hothers, hcons⟩ := Option.bind_eq_some_iff.1 hrest
    cases hcons
    rcases List.mem_cons.1 hv with rfl | hv
    · exact ⟨b64, hfirst⟩
    · exact ih hothers hv

/-- The primary and the secondary address are among the topics. -/
def AddressesFrom (topics : List ScVal) (row : RawEvent) : Prop :=
  ∀ text, row.address = some text ∨ row.addressTo = some text → .address text ∈ topics

theorem addressesFrom_of_none {topics : List ScVal} {row : RawEvent} (h : row.address = none)
    (hto : row.addressTo = none) : AddressesFrom topics row := by
  rintro text (htext | htext)
  · rw [h] at htext
    cases htext
  · rw [hto] at htext
    cases htext

theorem mem_of_asAddress {topics : List ScVal} {i : ℕ} {text : String}
    (h : asAddress topics[i]? = some text) : .address text ∈ topics := by
  unfold asAddress at h
  split at h
  next value hvalue =>
    cases h
    exact List.mem_of_getElem? hvalue
  next => cases h

section

variable {raw : RawSorobanEvent} {topics : List ScVal} {data : ScVal} {eventType : String}
  {row : RawEvent}

theorem decodeComplianceEvent_addressesFrom
    (h : decodeComplianceEvent raw topics data = some row) : AddressesFrom topics row := by
  unfold decodeComplianceEvent at h
  split at h
  · split_ifs at h
    split at h
    · cases h
      rintro text (htext | htext)
      · cases htext
        exact .tail _ (.tail _ (.head _))
      · cases htext
    · cases h
  · cases h

theorem decodeAddressed_addressesFrom (h : decodeAddressed raw eventType topics data = some row) :
    AddressesFrom topics row := by
  obtain ⟨address, haddress, hrow⟩ := Option.bind_eq_some_iff.1 h
  cases hrow
  rintro text (htext | htext)
  · cases htext
    exact mem_of_asAddress haddress
  · dsimp only at htext
    split_ifs at htext
    exact mem_of_asAddress htext

/-- **Where the addresses of a row come from**, for every type of event. -/
theorem decodeVals_addressesFrom (h : decodeVals raw topics data = some row) :
    AddressesFrom topics row := by
  unfold decodeVals at h
  split at h
  next hcompliance =>
    cases h
    exact decodeComplianceEvent_addressesFrom hcompliance
  next =>
    split at h
    next name rest =>
      dsimp only at h
      -- the others by their name; a policy result keeps its parties in other columns
      split_ifs at h
      · cases h
        exact addressesFrom_of_none rfl rfl
      · unfold decodePolicyResult at h
        split at h <;> cases h
        exact addressesFrom_of_none rfl rfl
      · obtain ⟨address, haddress, hrow⟩ := Option.bind_eq_some_iff.1 h
        cases hrow
        rintro text (htext | htext) <;> cases htext
        exact mem_of_asAddress haddress
      · obtain ⟨signer, -, hrow⟩ := Option.bind_eq_some_iff.1 h
        cases hrow
        exact addressesFrom_of_none rfl rfl
      · obtain ⟨threshold, -, hrow⟩ := Option.bind_eq_some_iff.1 h
        cases hrow
        exact addressesFrom_of_none rfl rfl
      · cases h
        unfold decodeAuthOk
        split <;> exact addressesFrom_of_none rfl rfl
      · exact decodeAddressed_addressesFrom h
    next => cases h

/-- **Every address in a row renders one.** -/
theorem rowAddresses (h : decodeEvent raw = some row) {text : String}
    (htext : row.address = some text ∨ row.addressTo = some text) :
    ∃ a, text = rendered a := by
  unfold decodeEvent at h
  split_ifs at h
  all_goals
    obtain ⟨topics, htopics, hrest⟩ := Option.bind_eq_some_iff.1 h
    obtain ⟨data, -, hvals⟩ := Option.bind_eq_some_iff.1 hrest
    obtain ⟨b64, hb64⟩ :=
      exists_of_mem_topics htopics (decodeVals_addressesFrom hvals text htext)
    exact decodeText_address hb64

end

/-! ### What a query finds -/

/-- The event is about the party: its primary or secondary address is the party's. -/
def Names (party : ScAddress) (e : RawEvent) : Prop :=
  e.address = some (rendered party) ∨ e.addressTo = some (rendered party)

instance (party : ScAddress) (e : RawEvent) : Decidable (Names party e) :=
  inferInstanceAs (Decidable (_ ∨ _))

/-- **Every event about the party, and no other, newest first**: by ledger, and within a ledger by
the order of insertion. -/
def FindsAll (party : ScAddress) (events result : List RawEvent) : Prop :=
  ∃ order : List (RawEvent × ℕ),
    order.Perm ((events.zipIdx 1).filter fun row ↦ decide (Names party row.1)) ∧
      order.Pairwise newer ∧ result = order.map Prod.fst

/-- The database after batches of events of the chain. -/
def indexed (batches : List (List RawSorobanEvent)) : ComplianceDb :=
  batches.foldl (fun db raws ↦ db.applyEvents (raws.filterMap decodeEvent)) .fresh

/-- A query that only limits the number of rows. -/
def upTo (limit : ℕ) : QueryOptions := ⟨none, none, some limit, none⟩

/-- Its rows are the rows of the events, in order. -/
theorem events_indexed (batches : List (List RawSorobanEvent)) :
    (indexed batches).events = batches.flatten.filterMap decodeEvent := by
  have hfold : ∀ (batches : List (List RawSorobanEvent)) (db : ComplianceDb),
      (batches.foldl (fun db raws ↦ db.applyEvents (raws.filterMap decodeEvent)) db).events =
        db.events ++ batches.flatten.filterMap decodeEvent := by
    intro batches
    induction batches with
    | nil => simp
    | cons raws batches ih =>
      intro db
      rw [List.foldl_cons, ih, (ComplianceDb.applyEvents_spec _ db).1, List.flatten_cons,
        List.filterMap_append, List.append_assoc]
  exact hfold batches .fresh

section

variable {party : ScAddress} {db : ComplianceDb} {address : String} {limit : ℕ}

/-- The rows a query selects by their addresses alone. -/
theorem matches_upTo {e : RawEvent} :
    Matches address (upTo limit) e ↔ e.address = some address ∨ e.addressTo = some address := by
  simp [Matches, upTo, ComplianceDb.truthy]

/-- With room for every row, the query yields the rows that match, in order. -/
theorem query_upTo (hlimit : db.events.length ≤ limit) :
    db.queryEventsByAddress address (upTo limit) =
      (((db.events.zipIdx 1).filter fun row ↦
        decide (Matches address (upTo limit) row.1)).insertionSort newer).map Prod.fst := by
  have hroom : (((db.events.zipIdx 1).filter fun row ↦
      decide (Matches address (upTo limit) row.1)).insertionSort newer).length ≤ limit := by
    rw [List.length_insertionSort]
    refine (List.length_filter_le _ _).trans ?_
    rwa [List.length_zipIdx]
  rw [ComplianceDb.queryEventsByAddress]
  simp only [upTo, Option.getD_none, Option.getD_some, List.drop_zero]
  exact congrArg (List.map Prod.fst) (List.take_of_length_le hroom)

/-- **A query finds every event of a party** if the text selects the events that name it. -/
theorem findsAll_of_matches (hlimit : db.events.length ≤ limit)
    (hmatches : ∀ e ∈ db.events,
      (e.address = some address ∨ e.addressTo = some address) ↔ Names party e) :
    FindsAll party db.events (db.queryEventsByAddress address (upTo limit)) := by
  rw [query_upTo hlimit]
  refine ⟨_, (List.perm_insertionSort newer _).trans (.of_eq (List.filter_congr ?_)),
    List.pairwise_insertionSort newer _, rfl⟩
  intro row hrow
  rw [decide_eq_decide, matches_upTo]
  exact hmatches row.1 (List.fst_mem_of_mem_zipIdx hrow)

/-- A query finds nothing if the text selects nothing. -/
theorem query_eq_nil (hlimit : db.events.length ≤ limit)
    (hnone : ∀ e ∈ db.events, ¬(e.address = some address ∨ e.addressTo = some address)) :
    db.queryEventsByAddress address (upTo limit) = [] := by
  have hfilter : (db.events.zipIdx 1).filter
      (fun row ↦ decide (Matches address (upTo limit) row.1)) = [] := by
    refine List.filter_eq_nil_iff.2 fun row hrow ↦ ?_
    rw [decide_eq_true_eq, matches_upTo]
    exact hnone row.1 (List.fst_mem_of_mem_zipIdx hrow)
  rw [query_upTo hlimit, hfilter]
  rfl

/-- Nothing is every event of a party only if no event names it. -/
theorem not_names_of_findsAll_nil {events : List RawEvent} (h : FindsAll party events []) :
    ∀ e ∈ events, ¬Names party e := by
  intro e he hnames
  obtain ⟨order, hperm, -, hnil⟩ := h
  rw [List.map_eq_nil_iff.1 hnil.symm, List.nil_perm, List.filter_eq_nil_iff] at hperm
  rw [← List.zipIdx_map_fst 1 events] at he
  obtain ⟨row, hrow, rfl⟩ := List.mem_map.1 he
  exact hperm row hrow (decide_eq_true hnames)

end

/-- No row is found under the StrKey of a contract. -/
theorem not_matches_contract (batches : List (List RawSorobanEvent)) (hash : Bytes32) :
    ∀ e ∈ (indexed batches).events,
      ¬(e.address = some (ScAddress.contract hash).strKey ∨
        e.addressTo = some (ScAddress.contract hash).strKey) := by
  intro e he hmatches
  rw [events_indexed] at he
  obtain ⟨raw, -, hraw⟩ := List.mem_filterMap.1 he
  obtain ⟨a, ha⟩ := rowAddresses hraw hmatches
  exact strKey_contract_ne_rendered hash a ha

/-- **When a query by StrKey finds every event of a party**: if the party is an account, and
otherwise only if there is none. -/
theorem query_findsAll_iff (batches : List (List RawSorobanEvent)) (party : ScAddress) {limit : ℕ}
    (hlimit : (indexed batches).events.length ≤ limit) :
    FindsAll party (batches.flatten.filterMap decodeEvent)
        ((indexed batches).queryEventsByAddress party.strKey (upTo limit)) ↔
      (∃ key, party = .account key) ∨
        ∀ e ∈ batches.flatten.filterMap decodeEvent, ¬Names party e := by
  rw [← events_indexed]
  cases party with
  | account key =>
    refine iff_of_true (findsAll_of_matches hlimit fun e _ ↦ ?_) (.inl ⟨key, rfl⟩)
    rw [Names, rendered_account]
  | contract hash =>
    have hno := not_matches_contract batches hash
    rw [query_eq_nil hlimit hno]
    constructor
    · exact fun h ↦ .inr (not_names_of_findsAll_nil h)
    · rintro (⟨key, hkey⟩ | hnone)
      · cases hkey
      · rw [← query_eq_nil hlimit hno]
        exact findsAll_of_matches hlimit fun e he ↦ iff_of_false (hno e he) (hnone e he)

/-- A contract, for the examples. -/
def listedContract : ScAddress := .contract (Vector.replicate 32 7)

/-- It was put on an allowlist, and the event is delivered. -/
def listing : RawSorobanEvent :=
  delivery "CTOKEN" 7 (AllowlistToken.Event.allowAdd listedContract).published

/-- The row of the event names the contract. -/
theorem decodeEvent_listing : decodeEvent listing =
    some { blankRow listing "AllowAdd" with address := some (rendered listedContract) } := by
  have hdelivers : Delivers listing (contractEvent "allow_add" [.address listedContract] []) :=
    delivers_delivery "CTOKEN" 7 _
  rw [decodeEvent_contractEvent hdelivers (by decide) ⟨trivial, trivial⟩ (by decide) trivial]
  rfl

theorem events_listing : (indexed [[listing]]).events =
    [{ blankRow listing "AllowAdd" with address := some (rendered listedContract) }] := by
  rw [events_indexed, List.flatten_singleton, List.filterMap_cons, decodeEvent_listing]
  rfl

/-- With room for two rows, the query for the contract is complete only if no event names it. -/
theorem query_findsAll_iff_listing :
    FindsAll listedContract ([[listing]].flatten.filterMap decodeEvent)
        ((indexed [[listing]]).queryEventsByAddress listedContract.strKey (upTo 2)) ↔
      (∃ key, listedContract = .account key) ∨
        ∀ e ∈ [[listing]].flatten.filterMap decodeEvent, ¬Names listedContract e :=
  query_findsAll_iff [[listing]] listedContract (by rw [events_listing]; decide)

/-- **The documented query for a contract misses its event.** -/
theorem query_listing_misses :
    (∃ e ∈ (indexed [[listing]]).events, Names listedContract e) ∧
      (indexed [[listing]]).queryEventsByAddress listedContract.strKey (upTo 1) = [] ∧
      ¬FindsAll listedContract (indexed [[listing]]).events
        ((indexed [[listing]]).queryEventsByAddress listedContract.strKey (upTo 1)) := by
  have hnames : ∃ e ∈ (indexed [[listing]]).events, Names listedContract e := by
    rw [events_listing]
    exact ⟨_, .head _, .inl rfl⟩
  have hnil : (indexed [[listing]]).queryEventsByAddress listedContract.strKey (upTo 1) = [] :=
    query_eq_nil (by rw [events_listing]; exact le_rfl) (not_matches_contract [[listing]] _)
  refine ⟨hnames, hnil, fun h ↦ ?_⟩
  rw [hnil] at h
  obtain ⟨e, he, hparty⟩ := hnames
  exact not_names_of_findsAll_nil h e he hparty

end Indexer
