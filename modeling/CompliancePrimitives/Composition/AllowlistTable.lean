import CompliancePrimitives.Contracts.AllowlistToken.Roles
import CompliancePrimitives.Indexer.EventRoundTrip
import CompliancePrimitives.Indexer.Tables

/-!
# The allowlist and the table of it

The entries an `allowlist-token` stores are what its events make of them: every addition, single, in
a batch or delegated, announces an `AllowAdd`, and every removal an `AllowRemove`. The table of the
indexer replays these events, so it has the addresses with an entry (`mirrors_allowlist`).

An entry may expire, and then nothing is announced. So the answer of the indexer is the answer of
the contract exactly for those addresses whose entry has not expired (`isAllowlisted_agrees_iff`).

The condition is about a moment, not about a run: an entry that expires makes the two differ until
it is removed, and an addition that renews it makes them agree again. Nothing an indexer could read
of the chain tells it the expiry, since no event has it.
-/

open Indexer Indexer.ComplianceDb Soroban

namespace AllowlistToken

variable {Address : Type}

/-- The write to the allowlist that an event stands for. -/
def Event.write : Event Address → Option (Write Address Unit)
  | .allowAdd address => some ⟨address, some ()⟩
  | .allowRemove address => some ⟨address, none⟩
  | _ => none

/-! ### On the chain -/

/-- The addresses with an entry. -/
def State.allowlist (s : State Address) (a : Address) : Option Unit :=
  (s.allowed a).map fun _ ↦ ()

section

variable [DecidableEq Address] {ext : Externals Address} {env : Env Address}
  {s s' : State Address}

omit [DecidableEq Address] in
/-- What is not about an entry stands for no write. -/
theorem write_eq_none {e : Event Address} (h : e.isEntryEvent = false) : e.write = none := by
  cases e with
  | allowAdd | allowRemove => cases h
  | _ => rfl

/-- Nothing was announced about the entries, and they are as they were. -/
theorem madeBy_unannounced (hs : MadeBy Event.write s.allowlist s.events)
    (hquiet : Unannounced s s') (hallowed : s'.allowed = s.allowed) :
    MadeBy Event.write s'.allowlist s'.events := by
  obtain ⟨events, hevents, hother⟩ := hquiet
  have hwrites : events.filterMap Event.write = [] :=
    List.filterMap_eq_nil_iff.2 fun e he ↦ write_eq_none (hother e he)
  have hallowlist : s'.allowlist = s.allowlist := by
    funext a
    rw [State.allowlist, hallowed, State.allowlist]
  rw [hevents]
  exact hs.append hwrites hallowlist

/-- Entries are written or removed, and announced one by one. -/
theorem madeBy_write {addresses : List Address} {entry : Option AllowlistEntry}
    (hs : MadeBy Event.write s.allowlist s.events) :
    MadeBy Event.write (s.write addresses entry).allowlist (s.write addresses entry).events := by
  have hevent : ∀ address : Address, (entryEvent entry address).write =
      some ⟨address, entry.map fun _ ↦ ()⟩ := by
    intro address
    cases entry <;> rfl
  refine hs.append (filterMap_map_write hevent addresses) ?_
  rw [replay_map]
  funext a
  by_cases ha : a ∈ addresses <;> simp [State.allowlist, State.write, ha]

/-- A completed call announces what it does to the allowlist. -/
theorem madeBy_step {call : Call Address} (hs : MadeBy Event.write s.allowlist s.events)
    (h : RoleStep ext env call s s') : MadeBy Event.write s'.allowlist s'.events := by
  cases h with
  | handedOver _ _ _ hquiet hs' => exact madeBy_unannounced hs hquiet (by rw [hs'])
  | governed _ _ _ _ _ _ hquiet hs' => exact madeBy_unannounced hs hquiet (by rw [hs'])
  | granted _ _ _ _ _ _ _ _ hs' => exact hs' ▸ madeBy_write hs
  | delegated _ _ _ hs' => exact hs' ▸ madeBy_write hs
  | revoked _ _ _ _ _ _ hs' => exact hs' ▸ madeBy_write hs
  | blocked _ _ _ _ hquiet hs' => exact madeBy_unannounced hs hquiet (by rw [hs'])
  | forwarded _ _ _ _ _ hs' =>
    exact madeBy_unannounced hs (.of_eq (by rw [hs'])) (by rw [hs'])

/-- **The allowlist is what its events make of it**, after every run. -/
theorem allowlist_final (ext : Externals Address) (calls : List (Input Address)) :
    MadeBy Event.write ((system ext).final calls).allowlist ((system ext).final calls).events := by
  refine System.final_induction (system ext)
    (P := fun s ↦ MadeBy Event.write s.allowlist s.events) rfl (fun s i hs ↦ ?_) calls
  rcases exec_roleStep ext i s with ⟨-, hstep⟩ | ⟨-, hpost⟩
  · exact madeBy_step hs hstep
  · rwa [hpost]

end

/-! ### In the database -/

section

variable {raw : RawSorobanEvent} {contractId : String} {db : ComplianceDb}

/-- **Each event makes its write to the rows of the contract.** -/
theorem allowlistOf_applyRaw {e : Event ScAddress} (hraw : raw.contractId = contractId)
    (h : Delivers raw e.published) :
    allowlistOf contractId (db.applyRaw raw) = e.write.elim (allowlistOf contractId db) fun w ↦
      Function.update (allowlistOf contractId db) (rendered w.key) w.value := by
  subst hraw
  cases e with
  | allowAdd address =>
    have hrow : decodeEvent raw =
        some { blankRow raw "AllowAdd" with address := some (rendered address) } :=
      (decodeEvent_addressTopic h (by decide)).trans rfl
    rw [applyRaw, hrow]
    exact allowlistOf_allowAdd rfl rfl
  | allowRemove address =>
    have hrow : decodeEvent raw =
        some { blankRow raw "AllowRemove" with address := some (rendered address) } :=
      (decodeEvent_addressTopic h (by decide)).trans rfl
    rw [applyRaw, hrow]
    exact allowlistOf_allowRemove rfl rfl
  -- no other event has a name of the two types
  | _ => exact (sameRows_applyRaw_of_other h (by decide) (by decide)).allowlist_eq

/-- **The table refines the entries that are stored**, expired or not. -/
theorem mirrors_allowlist (ext : Externals ScAddress) (calls : List (Input ScAddress))
    (batches : List (List RawSorobanEvent))
    (hcarries : Carries contractId batches
      (((system ext).final calls).events.map Event.published))
    (hdb : ∀ row ∈ db.allowlist, row.1 ≠ contractId) :
    Mirrors rendered (allowlistOf contractId (db.applyBatches batches))
      ((system ext).final calls).allowlist := by
  have hempty : ∀ x, allowlistOf contractId db x = none :=
    fun x ↦ if_neg fun hmem ↦ hdb _ hmem rfl
  rw [allowlist_final ext calls]
  exact mirrors_applyBatches (fun db raw hraw ↦ (sameRows_applyRaw_of_ne hraw).allowlist_eq)
    (fun db raw hraw e _ h ↦ allowlistOf_applyRaw hraw h) hcarries hempty

/-- The entry of an address has expired by a ledger. -/
def HasExpired (sequence : ℕ) (s : State ScAddress) (a : ScAddress) : Prop :=
  ∃ exp, s.allowed a = some ⟨some exp⟩ ∧ exp < sequence

/-- **The indexer and the contract agree about an address exactly if its entry has not expired.** -/
theorem isAllowlisted_agrees_iff (ext : Externals ScAddress) (calls : List (Input ScAddress))
    (sequence : ℕ) (contractId : String) (batches : List (List RawSorobanEvent))
    (db : ComplianceDb)
    (hcarries : Carries contractId batches
      (((system ext).final calls).events.map Event.published))
    (hdb : ∀ row ∈ db.allowlist, row.1 ≠ contractId) (a : ScAddress) :
    (db.applyBatches batches).isAllowlisted contractId (rendered a) =
        isAllowed sequence ((system ext).final calls) a ↔
      ¬HasExpired sequence ((system ext).final calls) a := by
  have hrow := (mirrors_allowlist ext calls batches hcarries hdb).table_name rendered_injective a
  have hindexed : (db.applyBatches batches).isAllowlisted contractId (rendered a) =
      (((system ext).final calls).allowed a).isSome := by
    rw [isAllowlisted, Bool.eq_iff_iff, decide_eq_true_eq, ← members_eq_some_iff]
    show allowlistOf contractId _ _ = _ ↔ _
    rw [hrow, State.allowlist]
    cases ((system ext).final calls).allowed a <;> simp
  rw [hindexed, isAllowed, HasExpired]
  rcases ((system ext).final calls).allowed a with _ | ⟨_ | exp⟩
  · simp
  · simp
  · simp

end

/-! ### An entry that expires -/

/-- A host that grants everything, in ledger 7. -/
def openHost : Env ScAddress where
  sequence := 7
  timestamp := 0
  auths := fun _ ↦ true
  tokenAnswer := fun _ ↦ true

/-- Externals in which the administrator and the officer may remove, if they authorize. -/
def officerExternals : Externals ScAddress where
  addressString := rendered
  verifySig := fun _ _ _ ↦ false
  complianceAuthority := fun s auths caller ↦
    auths caller && (decide (s.admin = some caller) || decide (s.complianceOfficer = some caller))
  lookupEnding := fun allowed ↦ allowed

/-- An account is allowed through ledger 10. -/
def expiringRun : List (Input ScAddress) :=
  [⟨openHost, .addToAllowlist someContract someAccount (some 10)⟩,
    ⟨openHost, .initialise someContract someContract⟩]

/-- The event of the addition, in a batch of its own. -/
def expiringBatches : List (List RawSorobanEvent) :=
  [[], [delivery "CALLOW" 7 (Event.allowAdd someAccount).published]]

theorem carries_expiringBatches :
    Carries "CALLOW" expiringBatches
      (((system officerExternals).final expiringRun).events.map Event.published) := by
  have hevents : ((system officerExternals).final expiringRun).events = [.allowAdd someAccount] :=
    rfl
  rw [hevents]
  exact .cons (delivers_delivery "CALLOW" 7 _) .nil

theorem allowed_expiringRun :
    ((system officerExternals).final expiringRun).allowed someAccount = some ⟨some 10⟩ := by
  rfl

/-- In ledger 10 the two agree. -/
theorem isAllowlisted_agrees_in_time :
    (fresh.applyBatches expiringBatches).isAllowlisted "CALLOW" (rendered someAccount) =
        isAllowed 10 ((system officerExternals).final expiringRun) someAccount ↔
      ¬HasExpired 10 ((system officerExternals).final expiringRun) someAccount :=
  isAllowlisted_agrees_iff officerExternals expiringRun 10 "CALLOW" expiringBatches fresh
    carries_expiringBatches (fun _ hrow ↦ absurd hrow List.not_mem_nil) someAccount

/-- One ledger later the contract no longer allows the account, and the indexer still lists it. -/
theorem isAllowlisted_after_expiry :
    Carries "CALLOW" expiringBatches
        (((system officerExternals).final expiringRun).events.map Event.published) ∧
      (fresh.applyBatches expiringBatches).isAllowlisted "CALLOW" (rendered someAccount) = true ∧
      isAllowed 11 ((system officerExternals).final expiringRun) someAccount = false := by
  have hrow := (mirrors_allowlist officerExternals expiringRun expiringBatches
    carries_expiringBatches
    (fun row hrow ↦ absurd (a := row ∈ fresh.allowlist) hrow List.not_mem_nil)).table_name
      rendered_injective someAccount
  refine ⟨carries_expiringBatches, ?_, ?_⟩
  · refine decide_eq_true (members_eq_some_iff.1 (hrow.trans ?_))
    rw [State.allowlist, allowed_expiringRun]
    rfl
  · rw [isAllowed, allowed_expiringRun]
    rfl

end AllowlistToken
