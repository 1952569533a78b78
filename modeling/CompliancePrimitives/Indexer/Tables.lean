import CompliancePrimitives.Foundation.Replay
import CompliancePrimitives.Indexer.Database
import CompliancePrimitives.Indexer.Delivery

/-!
# What the events of a contract do to the materialized tables

A table is looked at for one contract at a time: `allowlistOf`, `denylistOf` and `jurisdictionsOf`
give the row of an address text, if there is one.

`applyBatches` is what the poll loop does with the events it fetched, in batches of any size. An
event of another contract leaves the tables of a contract alone, and an event of the contract does
what the type of its row says. So each table mirrors the log of the writes that the events of the
contract stand for, as far as `updateState` has a case for them.

The log of writes is made from the decoded events by type: an addition or a removal of the allowlist
or the denylist, or a jurisdiction that is set. There is no case for a jurisdiction that is removed,
which is where the table and the contract part. What the log is for the contract is said in
`Composition`, where both are in sight.
-/

namespace Indexer

open Soroban

namespace ComplianceDb

/-! ### Batches -/

/-- The database after one delivered event, which is dropped if it cannot be decoded. -/
def applyRaw (db : ComplianceDb) (raw : RawSorobanEvent) : ComplianceDb :=
  match decodeEvent raw with
  | some row => updateState row (insertEvent row db)
  | none => db

/-- The database after batches of delivered events, each of them decoded and applied. -/
def applyBatches (batches : List (List RawSorobanEvent)) (db : ComplianceDb) : ComplianceDb :=
  batches.foldl (fun db batch ↦ db.applyEvents (batch.filterMap decodeEvent)) db

/-- It does not matter how the events are divided into batches. -/
theorem applyBatches_eq (batches : List (List RawSorobanEvent)) (db : ComplianceDb) :
    db.applyBatches batches = batches.flatten.foldl applyRaw db := by
  have hbatch : ∀ (batch : List RawSorobanEvent) (db : ComplianceDb),
      db.applyEvents (batch.filterMap decodeEvent) = batch.foldl applyRaw db := by
    intro batch db
    rw [applyEvents, List.foldl_filterMap]
    congr 1
    funext db raw
    rw [applyRaw]
    cases decodeEvent raw <;> rfl
  rw [applyBatches, List.foldl_flatten]
  congr 1
  funext db batch
  exact hbatch batch db

/-! ### The tables of a contract -/

/-- The rows of a contract in a table that is all key. -/
def members (contractId : String) (table : List (String × String)) (address : String) :
    Option Unit :=
  if (contractId, address) ∈ table then some () else none

/-- The rows of a contract in a table with a code for each key. -/
def codes (contractId : String) (table : List ((String × String) × String)) (address : String) :
    Option String :=
  (table.find? fun row ↦ decide (row.1 = (contractId, address))).map Prod.snd

theorem members_eq_some_iff {contractId address : String} {table : List (String × String)} :
    members contractId table address = some () ↔ (contractId, address) ∈ table := by
  rw [members, Option.ite_none_right_eq_some]
  exact and_iff_left rfl

/-- The rows of `allowlist`. -/
def allowlistOf (contractId : String) (db : ComplianceDb) : String → Option Unit :=
  members contractId db.allowlist

/-- The rows of `denylist`. -/
def denylistOf (contractId : String) (db : ComplianceDb) : String → Option Unit :=
  members contractId db.denylist

/-- The rows of `jurisdictions`. -/
def jurisdictionsOf (contractId : String) (db : ComplianceDb) : String → Option String :=
  codes contractId db.jurisdictions

section

variable {contractId address : String} {row : String × String} {code : String}
  {table : List (String × String)} {coded : List ((String × String) × String)}

/-- A statement about another contract's row. -/
theorem ne_of_fst_ne (h : row.1 ≠ contractId) (x : String) : (contractId, x) ≠ row :=
  fun heq ↦ h (congrArg Prod.fst heq).symm

theorem mem_insertOrIgnore {row' : String × String} :
    row' ∈ insertOrIgnore row table ↔ row' = row ∨ row' ∈ table := by
  unfold insertOrIgnore
  split_ifs with hmem
  · exact ⟨.inr, fun h ↦ h.elim (fun heq ↦ heq ▸ hmem) id⟩
  · rw [List.mem_append, List.mem_singleton, or_comm]

theorem members_insertOrIgnore :
    members contractId (insertOrIgnore (contractId, address) table) =
      Function.update (members contractId table) address (some ()) := by
  funext x
  by_cases hx : x = address <;> simp [members, mem_insertOrIgnore, hx]

theorem members_insertOrIgnore_of_ne (h : row.1 ≠ contractId) :
    members contractId (insertOrIgnore row table) = members contractId table := by
  funext x
  simp [members, mem_insertOrIgnore, ne_of_fst_ne h x]

theorem members_delete :
    members contractId (table.filter (decide <| · ≠ (contractId, address))) =
      Function.update (members contractId table) address none := by
  funext x
  by_cases hx : x = address <;> simp [members, hx]

theorem members_delete_of_ne (h : row.1 ≠ contractId) :
    members contractId (table.filter (decide <| · ≠ row)) = members contractId table := by
  funext x
  simp [members, ne_of_fst_ne h x]

/-- `DO UPDATE`, where there is a row. -/
theorem find?_replace (key key' : String × String) :
    ((coded.map fun row ↦ if row.1 = key then (key, code) else row).find? fun row ↦
        decide (row.1 = key')).map Prod.snd =
      if key' = key then (coded.find? fun row ↦ decide (row.1 = key)).map fun _ ↦ code
      else (coded.find? fun row ↦ decide (row.1 = key')).map Prod.snd := by
  induction coded with
  | nil => simp
  | cons row coded ih =>
    rw [List.map_cons, List.find?_cons, List.find?_cons, List.find?_cons]
    by_cases hrow : row.1 = key
    · by_cases hkey : key' = key
      · simp [hrow, hkey]
      · have hne : key ≠ key' := fun h ↦ hkey h.symm
        simpa [hrow, hkey, hne] using ih
    · by_cases hkey' : row.1 = key'
      · have hne : key' ≠ key := fun h ↦ hrow (hkey'.trans h)
        simp [hkey', hne]
      · simpa [hrow, hkey'] using ih

/-- The row an upsert is about has the new code, and no other row changes. -/
theorem find?_upsert (key key' : String × String) :
    ((upsert key code coded).find? fun row ↦ decide (row.1 = key')).map Prod.snd =
      if key' = key then some code
      else (coded.find? fun row ↦ decide (row.1 = key')).map Prod.snd := by
  unfold upsert
  split_ifs with hany hkey hkey
  · rw [find?_replace, if_pos hkey]
    obtain ⟨row, hrow⟩ := Option.isSome_iff_exists.1 (List.find?_isSome.2 (List.any_eq_true.1 hany))
    rw [hrow]
    rfl
  · rw [find?_replace, if_neg hkey]
  · subst hkey
    have hnone : (coded.find? fun row ↦ decide (row.1 = key')) = none := by
      rw [List.find?_eq_none]
      intro row hrow hkey
      exact hany (List.any_eq_true.2 ⟨row, hrow, hkey⟩)
    simp [List.find?_append, hnone]
  · have hne : key ≠ key' := fun h ↦ hkey h.symm
    simp [List.find?_append, hne]

theorem codes_upsert :
    codes contractId (upsert (contractId, address) code coded) =
      Function.update (codes contractId coded) address (some code) := by
  funext x
  rw [codes, find?_upsert]
  by_cases hx : x = address <;> simp [codes, hx]

theorem codes_upsert_of_ne (h : row.1 ≠ contractId) :
    codes contractId (upsert row code coded) = codes contractId coded := by
  funext x
  rw [codes, find?_upsert, if_neg (ne_of_fst_ne h x), codes]

end

/-! ### One event -/

/-- Two databases have the same rows of a contract. -/
structure SameRows (contractId : String) (db' db : ComplianceDb) : Prop where
  /-- In the allowlist, -/
  allowlist_eq : allowlistOf contractId db' = allowlistOf contractId db
  /-- in the denylist, -/
  denylist_eq : denylistOf contractId db' = denylistOf contractId db
  /-- and among the jurisdictions. -/
  jurisdictions_eq : jurisdictionsOf contractId db' = jurisdictionsOf contractId db

section

variable {e : RawEvent} {raw : RawSorobanEvent} {db : ComplianceDb} {contractId : String}

theorem sameRows_refl : SameRows contractId db db := ⟨rfl, rfl, rfl⟩

theorem truthy_rendered (a : ScAddress) : truthy (some (rendered a)) = some (rendered a) := by
  rw [truthy, rendered_ne_empty]
  rfl

/-- An event of a type without a case changes no row. -/
theorem sameRows_updateState_of_other (hallow : e.eventType ≠ "AllowAdd")
    (hdisallow : e.eventType ≠ "AllowRemove") (hdeny : e.eventType ≠ "DenyAdd")
    (hundeny : e.eventType ≠ "DenyRemove") (hset : e.eventType ≠ "JurisdictionSet") :
    SameRows contractId (updateState e db) db := by
  rw [updateState, if_neg hallow, if_neg hdisallow, if_neg hdeny, if_neg hundeny, if_neg hset]
  cases auditRow e <;> exact ⟨rfl, rfl, rfl⟩

/-- An event of another contract changes no row of a contract. -/
theorem sameRows_updateState_of_ne (h : e.contractId ≠ contractId) :
    SameRows contractId (updateState e db) db := by
  unfold updateState
  split_ifs
  · refine onAddress_induction (P := (SameRows contractId · db)) sameRows_refl fun row hrow ↦ ?_
    exact ⟨members_insertOrIgnore_of_ne (hrow.trans_ne h), rfl, rfl⟩
  · refine onAddress_induction (P := (SameRows contractId · db)) sameRows_refl fun row hrow ↦ ?_
    exact ⟨members_delete_of_ne (hrow.trans_ne h), rfl, rfl⟩
  · refine onAddress_induction (P := (SameRows contractId · db)) sameRows_refl fun row hrow ↦ ?_
    exact ⟨rfl, members_insertOrIgnore_of_ne (hrow.trans_ne h), rfl⟩
  · refine onAddress_induction (P := (SameRows contractId · db)) sameRows_refl fun row hrow ↦ ?_
    exact ⟨rfl, members_delete_of_ne (hrow.trans_ne h), rfl⟩
  · split
    · refine onAddress_induction (P := (SameRows contractId · db)) sameRows_refl fun row hrow ↦ ?_
      exact ⟨rfl, rfl, codes_upsert_of_ne (hrow.trans_ne h)⟩
    · exact sameRows_refl
  · cases auditRow e <;> exact ⟨rfl, rfl, rfl⟩

/-- **A delivered event of another contract** changes no row of a contract. -/
theorem sameRows_applyRaw_of_ne (h : raw.contractId ≠ contractId) :
    SameRows contractId (db.applyRaw raw) db := by
  unfold applyRaw
  split
  next row hrow =>
    obtain ⟨_, _, -, -, hof⟩ := decodeEvent_rowOf hrow
    have hsame : SameRows contractId (updateState row (insertEvent row db)) (insertEvent row db) :=
      sameRows_updateState_of_ne (hof.contractId_eq.trans_ne h)
    exact ⟨hsame.allowlist_eq, hsame.denylist_eq, hsame.jurisdictions_eq⟩
  next => exact sameRows_refl

/-- **A delivered event with a name of a type without a case** changes no row. -/
theorem sameRows_applyRaw_of_other {name : Symbol} {topics : List Val} {data : Val}
    (h : Delivers raw ⟨.symbol name :: topics, data⟩) (hname : Legible name)
    (hother : rowType name ∉
      ["AllowAdd", "AllowRemove", "DenyAdd", "DenyRemove", "JurisdictionSet"]) :
    SameRows contractId (db.applyRaw raw) db := by
  unfold applyRaw
  split
  next row hrow =>
    have htype := (rowOf_of_delivers h hname hrow).2.eventType_eq
    simp only [List.mem_cons, List.not_mem_nil, or_false, not_or, ← htype] at hother
    obtain ⟨hallow, hdisallow, hdeny, hundeny, hset⟩ := hother
    have hsame : SameRows contractId (updateState row (insertEvent row db)) (insertEvent row db) :=
      sameRows_updateState_of_other hallow hdisallow hdeny hundeny hset
    exact ⟨hsame.allowlist_eq, hsame.denylist_eq, hsame.jurisdictions_eq⟩
  next => exact sameRows_refl

/-! ### The types with a case -/

variable {a : ScAddress} {code : String}

theorem onAddress_rendered (h : e.address = some (rendered a))
    (f : String × String → ComplianceDb → ComplianceDb) :
    onAddress e f db = f (e.contractId, rendered a) db := by
  rw [onAddress, h, truthy_rendered]

theorem allowlistOf_allowAdd (htype : e.eventType = "AllowAdd")
    (h : e.address = some (rendered a)) :
    allowlistOf e.contractId (updateState e db) =
      Function.update (allowlistOf e.contractId db) (rendered a) (some ()) := by
  rw [updateState, if_pos htype, onAddress_rendered h]
  exact members_insertOrIgnore

theorem allowlistOf_allowRemove (htype : e.eventType = "AllowRemove")
    (h : e.address = some (rendered a)) :
    allowlistOf e.contractId (updateState e db) =
      Function.update (allowlistOf e.contractId db) (rendered a) none := by
  rw [updateState, if_neg (by rw [htype]; decide), if_pos htype, onAddress_rendered h]
  exact members_delete

theorem denylistOf_denyAdd (htype : e.eventType = "DenyAdd") (h : e.address = some (rendered a)) :
    denylistOf e.contractId (updateState e db) =
      Function.update (denylistOf e.contractId db) (rendered a) (some ()) := by
  rw [updateState, if_neg (by rw [htype]; decide), if_neg (by rw [htype]; decide), if_pos htype,
    onAddress_rendered h]
  exact members_insertOrIgnore

theorem denylistOf_denyRemove (htype : e.eventType = "DenyRemove")
    (h : e.address = some (rendered a)) :
    denylistOf e.contractId (updateState e db) =
      Function.update (denylistOf e.contractId db) (rendered a) none := by
  rw [updateState, if_neg (by rw [htype]; decide), if_neg (by rw [htype]; decide),
    if_neg (by rw [htype]; decide), if_pos htype, onAddress_rendered h]
  exact members_delete

theorem jurisdictionsOf_jurisdictionSet (htype : e.eventType = "JurisdictionSet")
    (h : e.address = some (rendered a)) (hcode : truthy e.jurisdiction = some code) :
    jurisdictionsOf e.contractId (updateState e db) =
      Function.update (jurisdictionsOf e.contractId db) (rendered a) (some code) := by
  rw [updateState, if_neg (by rw [htype]; decide), if_neg (by rw [htype]; decide),
    if_neg (by rw [htype]; decide), if_neg (by rw [htype]; decide), if_pos htype, hcode]
  dsimp only
  rw [onAddress_rendered h]
  exact codes_upsert

/-! ### Batches of events -/

/-- **Batches carry the published events of a contract**: each of them once and in order. The
events of other contracts may come in between. -/
def Carries (contractId : String) (batches : List (List RawSorobanEvent))
    (events : List Published) : Prop :=
  List.Forall₂ Delivers
    (batches.flatten.filter fun raw ↦ decide (raw.contractId = contractId)) events

/-- **The rows of a contract mirror what its events make of a map**, if each of its events makes
its write to them. -/
theorem mirrors_applyBatches {ε ν : Type} {published : ε → Published}
    {write : ε → Option (Write ScAddress ν)} {rows : ComplianceDb → String → Option ν}
    {batches : List (List RawSorobanEvent)} {events : List ε}
    (hskip : ∀ db raw, raw.contractId ≠ contractId → rows (applyRaw db raw) = rows db)
    (hwrite : ∀ db raw, raw.contractId = contractId → ∀ e ∈ events, Delivers raw (published e) →
      rows (applyRaw db raw) = (write e).elim (rows db) fun w ↦
        Function.update (rows db) (rendered w.key) w.value)
    (hcarries : Carries contractId batches (events.map published))
    (hdb : ∀ x, rows db x = none) :
    Mirrors rendered (rows (db.applyBatches batches))
      (replay (fun _ ↦ none) (events.filterMap write)) := by
  have hstart : Mirrors rendered (rows db) (fun _ : ScAddress ↦ (none : Option ν)) := by
    rw [funext hdb]
    exact mirrors_empty
  rw [applyBatches_eq]
  exact mirrors_foldl rendered_injective
    (fun db raw hmine ↦ hskip db raw (of_decide_eq_false hmine))
    (fun db raw hmine ↦ hwrite db raw (of_decide_eq_true hmine))
    (List.forall₂_map_right_iff.1 hcarries) hstart

end

end ComplianceDb

end Indexer
