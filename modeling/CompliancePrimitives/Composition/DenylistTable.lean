import CompliancePrimitives.Contracts.DenylistGate.AuditTrail
import CompliancePrimitives.Indexer.EventRoundTrip
import CompliancePrimitives.Indexer.Tables

/-!
# The denylist and the table of it

The denylist of a `denylist-gate` is what its events make of it: an address is on it if the last
event about it is a `DenyAdd`. That is so on the chain, where every edit is announced
(`denylist_final`), and in the database, where the two events have their cases
(`denylistOf_applyRaw`). So after any run the table has exactly the addresses that `check` rejects,
however the events were divided into batches (`denylistTable_refines`).

Batches play no part in it: the table replays the events of the contract one after another, and what
lies between them, of other contracts or of other kinds, does not touch its rows. An `audit_log`
that refuses a record is no difference either, as an event tells of the edit in any case.
-/

open Indexer Indexer.ComplianceDb Soroban

namespace DenylistGate

variable {Address : Type}

/-- The write to the denylist that an event stands for. -/
def Event.write : Event Address → Option (Write Address Unit)
  | .denyAdd address => some ⟨address, some ()⟩
  | .denyRemove address => some ⟨address, none⟩
  | _ => none

/-! ### On the chain -/

/-- The denylist. -/
def State.denylist (s : State Address) (a : Address) : Option Unit :=
  if check s a then none else some ()

theorem denylist_eq (s : State Address) :
    s.denylist = fun a ↦ if (s.denied a).getD false then some () else none := by
  funext a
  cases h : (s.denied a).getD false <;> simp [State.denylist, check, h]

theorem write_eq_none {e : Event Address} (h : e.isDenylistEvent = false) : e.write = none := by
  cases e <;> first | rfl | cases h

/-- The audit call stands for no write, whether or not it fails. -/
theorem write_audited (env : Env Address) (kind : Symbol) (subject : Address) (detail : String)
    (s : State Address) :
    (audited env kind subject detail s).denylist = s.denylist ∧
      (audited env kind subject detail s).events.filterMap Event.write =
        s.events.filterMap Event.write := by
  unfold audited
  split
  · exact ⟨rfl, rfl⟩
  · refine ⟨rfl, ?_⟩
    dsimp only
    split_ifs
    · rfl
    · rw [List.filterMap_append]
      exact List.append_nil _

section

variable [DecidableEq Address]

/-- One entry of the denylist changes. -/
theorem denylist_update {s s' : State Address} {address : Address} {v : Option Bool}
    (h : s'.denied = Function.update s.denied address v) :
    s'.denylist = Function.update s.denylist address (if v.getD false then some () else none) := by
  have hdenylist : ∀ s : State Address, s.denylist =
      (fun entry : Option Bool ↦ if entry.getD false then some () else none) ∘ s.denied :=
    denylist_eq
  rw [hdenylist, h, Function.comp_update, hdenylist]

theorem madeBy_step {env : Env Address} {call : Call Address} {s s' : State Address}
    (hs : MadeBy Event.write s.denylist s.events) (h : DenylistStep env call s s') :
    MadeBy Event.write s'.denylist s'.events := by
  cases h with
  | kept _ hdenied events hevents hother _ =>
    have hwrites : events.filterMap Event.write = [] :=
      List.filterMap_eq_nil_iff.2 fun e he ↦ write_eq_none (hother e he)
    rw [hevents]
    refine hs.append hwrites ?_
    rw [denylist_eq, denylist_eq, hdenied, replay_nil]
  | added _ address _ hs' =>
    obtain ⟨hdenylist, hwrites⟩ := write_audited env "deny_add" address
      "address added to denylist" (denied s address)
    have hupdate : (denied s address).denied = Function.update s.denied address (some true) := rfl
    rw [hs', MadeBy, hdenylist, hwrites]
    exact hs.append rfl (denylist_update hupdate)
  | removed _ address _ hs' =>
    obtain ⟨hdenylist, hwrites⟩ := write_audited env "deny_remove" address
      "address removed from denylist" (cleared s address)
    have hupdate : (cleared s address).denied = Function.update s.denied address none := rfl
    rw [hs', MadeBy, hdenylist, hwrites]
    exact hs.append rfl (denylist_update hupdate)
  -- a batch announces its removals one by one, listed addresses twice included
  | removedAll _ addresses _ _ _ _ _ hs' =>
    rw [hs']
    have hevent : ∀ address : Address, (Event.denyRemove address).write = some ⟨address, none⟩ :=
      fun _ ↦ rfl
    refine hs.append (filterMap_map_write hevent addresses) ?_
    rw [replay_map]
    funext a
    by_cases ha : a ∈ addresses <;> simp [denylist_eq, clearedAll, ha]

/-- **The denylist is what its events make of it**, after every run. -/
theorem denylist_final (calls : List (Input Address)) :
    MadeBy Event.write (system.final calls).denylist (system.final calls).events := by
  refine System.final_induction system
    (P := fun s ↦ MadeBy Event.write s.denylist s.events) rfl (fun s i hs ↦ ?_) calls
  rcases exec_denylistStep i s with hstep | ⟨-, hsame⟩
  · exact madeBy_step hs hstep
  · rw [hsame]
    exact hs

end

/-! ### In the database -/

section

variable {raw : RawSorobanEvent} {contractId : String} {db : ComplianceDb}

/-- **Each event makes its write to the rows of the contract.** -/
theorem denylistOf_applyRaw {e : Event ScAddress} (hraw : raw.contractId = contractId)
    (h : Delivers raw e.published) :
    denylistOf contractId (db.applyRaw raw) = e.write.elim (denylistOf contractId db) fun w ↦
      Function.update (denylistOf contractId db) (rendered w.key) w.value := by
  subst hraw
  cases e with
  | denyAdd address =>
    have hrow : decodeEvent raw =
        some { blankRow raw "DenyAdd" with address := some (rendered address) } :=
      (decodeEvent_addressTopic h (by decide)).trans rfl
    rw [applyRaw, hrow]
    exact denylistOf_denyAdd rfl rfl
  | denyRemove address =>
    have hrow : decodeEvent raw =
        some { blankRow raw "DenyRemove" with address := some (rendered address) } :=
      (decodeEvent_addressTopic h (by decide)).trans rfl
    rw [applyRaw, hrow]
    exact denylistOf_denyRemove rfl rfl
  -- no other event has a name of the two types
  | _ => exact (sameRows_applyRaw_of_other h (by decide) (by decide)).denylist_eq

/-- **The table refines the denylist.** After every run of the contract, the rows of the contract
are the addresses that `check` rejects, each under its text, however its events were divided into
batches, and whatever else the batches had in between. -/
theorem denylistTable_refines (calls : List (Input ScAddress)) (contractId : String)
    (batches : List (List RawSorobanEvent)) (db : ComplianceDb)
    (hcarries : Carries contractId batches ((system.final calls).events.map Event.published))
    (hdb : ∀ row ∈ db.denylist, row.1 ≠ contractId) (x : String) :
    (contractId, x) ∈ (db.applyBatches batches).denylist ↔
      ∃ a, x = rendered a ∧ check (system.final calls) a = false := by
  have hempty : ∀ x, denylistOf contractId db x = none :=
    fun x ↦ if_neg fun hmem ↦ hdb _ hmem rfl
  have hmirrors := mirrors_applyBatches
    (fun db raw hraw ↦ (sameRows_applyRaw_of_ne hraw).denylist_eq)
    (fun db raw hraw e _ h ↦ denylistOf_applyRaw hraw h) hcarries hempty
  rw [← denylist_final calls] at hmirrors
  rw [← members_eq_some_iff]
  refine (hmirrors x ()).trans ?_
  refine exists_congr fun a ↦ and_congr_right fun _ ↦ ?_
  cases hcheck : check (system.final calls) a <;> simp [State.denylist, hcheck]

end

/-- A host that grants everything. -/
def openHost : Env ScAddress where
  sequence := 7
  timestamp := 0
  auths := fun _ ↦ true
  auditAnswer := fun _ ↦ true

/-- An account is denied, and another call does not complete. -/
def denyingRun : List (Input ScAddress) :=
  [⟨openHost, .removeFromDenylist someAccount someAccount⟩,
    ⟨openHost, .addToDenylist someContract someAccount⟩, ⟨openHost, .initialise someContract⟩]

theorem events_denyingRun : (system.final denyingRun).events = [.denyAdd someAccount] := by
  rfl

/-- The row of the account is there, in a batch of its own. -/
theorem denylistTable_refines_denyingRun :
    ("CDENY", rendered someAccount) ∈ (fresh.applyBatches
        [[], [delivery "CDENY" 7 (Event.denyAdd someAccount).published]]).denylist ↔
      ∃ a, rendered someAccount = rendered a ∧ check (system.final denyingRun) a = false := by
  refine denylistTable_refines denyingRun "CDENY" _ fresh ?_ ?_ (rendered someAccount)
  · rw [events_denyingRun]
    exact .cons (delivers_delivery "CDENY" 7 _) .nil
  · exact fun row hrow ↦ absurd hrow List.not_mem_nil

end DenylistGate
