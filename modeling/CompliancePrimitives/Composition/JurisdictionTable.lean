import CompliancePrimitives.Contracts.JurisdictionFlag.Refinement
import CompliancePrimitives.Indexer.EventRoundTrip
import CompliancePrimitives.Indexer.Tables

/-!
# The jurisdictions and the table of them

The table has one row for an address, with the code of the last `JurisdictionSet` about it. The
contract stores a list of codes, of which the head is the one it answers with. The two go together
as long as every edit makes its code the head: an assignment does so, but `add_jurisdiction`
announces a code that goes to the end of the list, and a removal is announced by an event the table
has no case for.

A call that **drifts** is one that passes its checks and then moves the head without the table, or
the row without the list. `jurisdictionTable_follows_iff` says that the table follows the contract
through a run exactly if no call of the run drifts.
-/

open Indexer Indexer.ComplianceDb Soroban

namespace JurisdictionFlag

variable {Address : Type}

/-- The write to the table that an event stands for. -/
def Event.write : Event Address → Option (Write Address String)
  | .jurisdictionSet address code => some ⟨address, some (textDecode code)⟩
  | _ => none

/-- The head of the codes stored for an address, as text. -/
def State.heads (s : State Address) (a : Address) : Option String :=
  (s.keys a).codes.head?.map textDecode

/-! ### Codes as text -/

theorem IsCode.ascii {code : Bytes} (h : IsCode code) : ∀ b ∈ code, b.toNat ≤ 0x7F := by
  intro b hb
  have hle : b ≤ 90 := (h.2 b hb).2
  exact (UInt8.le_iff_toNat_le.1 hle).trans (by decide)

theorem IsCode.textDecode_inj {code code' : Bytes} (h : IsCode code) (h' : IsCode code')
    (heq : textDecode code = textDecode code') : code = code' :=
  textDecode_ascii_inj h.ascii h'.ascii heq

theorem IsCode.truthy_textDecode {code : Bytes} (h : IsCode code) :
    truthy (some (textDecode code)) = some (textDecode code) := by
  have hne : (textDecode code).isEmpty = false := by
    rw [Bool.eq_false_iff]
    intro hempty
    have hchars := congrArg String.toList (String.isEmpty_iff.1 hempty)
    rw [toList_textDecode_ascii h.ascii] at hchars
    have hlength := congrArg List.length hchars
    rw [List.length_map, h.1] at hlength
    exact absurd hlength (by decide)
  rw [truthy, hne]
  rfl

/-! ### One edit -/

section

variable [DecidableEq Address] {s s' : State Address} {address : Address} {x : Edit}

/-- An edit changes the head of its address. -/
theorem heads_edit (s : State Address) (address : Address) (x : Edit) :
    (s.edit address x).heads =
      Function.update s.heads address (((s.keys address).edit x).codes.head?.map textDecode) := by
  have hheads : ∀ s : State Address, s.heads = (fun k ↦ k.codes.head?.map textDecode) ∘ s.keys :=
    fun _ ↦ rfl
  rw [hheads, State.keys_edit, Function.comp_update, hheads]

/-- **The table follows the edits of a call**: the events that announce them leave its rows as the
heads of the codes. -/
def Follows (s : State Address) (edits : List (Address × Edit)) : Prop :=
  (s.editAll edits).heads =
    replay s.heads ((edits.map fun p ↦ p.2.event p.1).filterMap Event.write)

/-- Assignments move the head and the row together. -/
theorem follows_assign (edits : List (Address × Edit))
    (h : ∀ p ∈ edits, ∃ code expiry, p.2 = .assign code expiry) : Follows s edits := by
  induction edits generalizing s with
  | nil => rfl
  | cons p edits ih =>
    obtain ⟨hp, hedits⟩ := List.forall_mem_cons.1 h
    obtain ⟨address, x⟩ := p
    obtain ⟨code, expiry, hx⟩ := hp
    have hx : x = .assign code expiry := hx
    subst hx
    have hone : (s.edit address (.assign code expiry)).heads =
        Function.update s.heads address (some (textDecode code)) := heads_edit s address _
    rw [Follows, State.editAll_cons, ih hedits, hone]
    rfl

/-- An added code is the row, so it has to be the head. -/
theorem follows_add_iff {code : Bytes} (hcode : IsCode code)
    (hstored : ∀ c ∈ (s.keys address).codes, IsCode c) :
    Follows s [(address, .add code)] ↔
      ∀ first, (s.keys address).codes.head? = some first → first = code := by
  have hfollows : Follows s [(address, .add code)] ↔
      ((s.keys address).edit (.add code)).codes.head?.map textDecode =
        some (textDecode code) := by
    rw [Follows, State.editAll_cons, State.editAll_nil, heads_edit]
    exact (Function.update_injective s.heads address).eq_iff
  -- the head after the addition is the head before it, if there was one
  have hhead : ((s.keys address).edit (.add code)).codes.head? =
      some ((s.keys address).codes.head?.getD code) := by
    rw [Keys.edit]
    split_ifs with hmem
    · cases hcodes : (s.keys address).codes with
      | nil => rw [hcodes] at hmem; cases hmem
      | cons first rest => rfl
    · rw [Keys.codes_store]
      cases (s.keys address).codes <;> rfl
  rw [hfollows, hhead, Option.map_some, Option.some_inj]
  cases hcodes : (s.keys address).codes with
  | nil => simp
  | cons first rest =>
    have hfirst : IsCode first := hstored first (hcodes ▸ List.mem_cons_self)
    simp only [List.head?_cons, Option.getD_some, Option.some_inj, forall_eq']
    exact ⟨hfirst.textDecode_inj hcode, congrArg textDecode⟩

/-- A removed code may not be the head. -/
theorem follows_remove_iff {code : Bytes} (hstored : ∀ c ∈ (s.keys address).codes, IsCode c) :
    Follows s [(address, .remove code)] ↔ (s.keys address).codes.head? ≠ some code := by
  have hfollows : Follows s [(address, .remove code)] ↔
      ((s.keys address).codes.filter fun existing ↦ decide (existing ≠ code)).head?.map
        textDecode = (s.keys address).codes.head?.map textDecode := by
    rw [Follows, State.editAll_cons, State.editAll_nil, heads_edit, Keys.edit, Keys.codes_store]
    exact Function.update_eq_self_iff
  rw [hfollows]
  cases hcodes : (s.keys address).codes with
  | nil => simp
  | cons first rest =>
    rw [hcodes] at hstored
    rw [List.head?_cons, Option.map_some, Ne, Option.some_inj]
    by_cases hfirst : first = code
    · -- what is left starts with another code, if with any
      refine iff_of_false (fun heq ↦ ?_) (not_not_intro hfirst)
      obtain ⟨c, hc, htext⟩ := Option.map_eq_some_iff.1 heq
      obtain ⟨hmem, hne⟩ := List.mem_filter.1 (List.mem_of_head? hc)
      have hsame := (hstored c hmem).textDecode_inj (hstored first List.mem_cons_self) htext
      exact of_decide_eq_true hne (hsame.trans hfirst)
    · refine iff_of_true ?_ hfirst
      rw [List.filter_cons_of_pos (by simpa using hfirst), List.head?_cons, Option.map_some]

theorem heads_editAll_clear (addresses : List Address) :
    (s.editAll (addresses.map fun address ↦ (address, .clear))).heads =
      replay s.heads (addresses.map fun address ↦ ⟨address, none⟩) := by
  induction addresses generalizing s with
  | nil => rfl
  | cons address addresses ih =>
    have hone : (s.edit address .clear).heads = Function.update s.heads address none :=
      heads_edit s address .clear
    rw [List.map_cons, State.editAll_cons, ih, hone]
    rfl

/-- An address that is cleared may not have had a code. -/
theorem follows_clear_iff {addresses : List Address} :
    Follows s (addresses.map fun address ↦ (address, .clear)) ↔
      ∀ address ∈ addresses, (s.keys address).codes = [] := by
  have hwrites : ((addresses.map fun address ↦ (address, Edit.clear)).map fun p ↦
      p.2.event p.1).filterMap Event.write = [] := by
    refine List.filterMap_eq_nil_iff.2 fun e he ↦ ?_
    obtain ⟨p, hp, rfl⟩ := List.mem_map.1 he
    obtain ⟨address, -, rfl⟩ := List.mem_map.1 hp
    rfl
  have hempty : ∀ a, s.heads a = none ↔ (s.keys a).codes = [] := fun a ↦ by
    rw [State.heads, Option.map_eq_none_iff, List.head?_eq_none_iff]
  rw [Follows, hwrites, replay_nil, heads_editAll_clear, replay_map, funext_iff]
  refine forall_congr' fun a ↦ ?_
  by_cases ha : a ∈ addresses
  · rw [if_pos ha, eq_comm, hempty]
    exact ⟨fun h _ ↦ h, fun h ↦ h ha⟩
  · rw [if_neg ha]
    exact iff_of_true rfl fun hmem ↦ absurd hmem ha

/-! ### One call -/

/-- **A call drifts**: it passes its checks, and then adds a code behind another one, removes the
head, or clears an address that has codes. -/
inductive Drifts (i : Input Address) (s : State Address) : Prop
  | added (issuer address : Address) (code first : Bytes)
      (hcall : i.call = .addJurisdiction issuer address code)
      (hauth : i.env.auths issuer = true) (hauthority : HasAuthority s issuer)
      (hpaused : s.paused.getD false = false)
      (hadm : (Edit.add code).Admissible (s.keys address))
      (hfirst : (s.keys address).codes.head? = some first) (hne : first ≠ code)
  | removed (issuer address : Address) (code : Bytes)
      (hcall : i.call = .removeJurisdiction issuer address code)
      (hauth : i.env.auths issuer = true) (hissuer : s.issuer = some issuer)
      (hpaused : s.paused.getD false = false)
      (hfirst : (s.keys address).codes.head? = some code)
  | cleared (issuer : Address) (addresses : List Address) (address : Address)
      (hcall : i.call = .removeJurisdictionMultiple issuer addresses)
      (hauth : i.env.auths issuer = true) (hissuer : s.issuer = some issuer)
      (hpaused : s.paused.getD false = false) (hmem : address ∈ addresses)
      (hstored : (s.keys address).codes ≠ [])

variable {i : Input Address}

/-- A call that drifts completes. -/
theorem Drifts.completes (h : Drifts i s) : ∃ v s', invoke i.env i.call s = .ok (v, s') := by
  cases h with
  | added issuer address code first hcall hauth hauthority hpaused hadm hfirst hne =>
    rw [hcall]
    exact ⟨_, _, Tx.bind_pure_eq_ok_iff.2
      ⟨(), addJurisdiction_eq_ok_iff.2 ⟨hauth, hauthority, hpaused, hadm, rfl⟩, rfl⟩⟩
  | removed issuer address code hcall hauth hissuer hpaused hfirst =>
    rw [hcall]
    exact ⟨_, _, Tx.bind_pure_eq_ok_iff.2
      ⟨(), removeJurisdiction_eq_ok_iff.2 ⟨hauth, hissuer, hpaused, rfl⟩, rfl⟩⟩
  | cleared issuer addresses address hcall hauth hissuer hpaused hmem hstored =>
    rw [hcall]
    exact ⟨_, _, Tx.bind_pure_eq_ok_iff.2
      ⟨(), removeJurisdictionMultiple_eq_ok_iff.2 ⟨hauth, hissuer, hpaused, rfl⟩, rfl⟩⟩

/-- A call that drifts has edits that the table does not follow. -/
theorem Drifts.not_follows (hwf : ∀ a, (s.keys a).WellFormed) (h : Drifts i s) :
    ¬Follows s i.call.edits := by
  intro hfollows
  cases h with
  | added issuer address code first hcall _ _ _ hadm hfirst hne =>
    rw [hcall] at hfollows
    exact hne ((follows_add_iff hadm.1 (hwf address).codes_spec.2.2).1 hfollows first hfirst)
  | removed issuer address code hcall _ _ _ hfirst =>
    rw [hcall] at hfollows
    exact (follows_remove_iff (hwf address).codes_spec.2.2).1 hfollows hfirst
  | cleared issuer addresses address hcall _ _ _ hmem hstored =>
    rw [hcall] at hfollows
    exact hstored (follows_clear_iff.1 hfollows address hmem)

/-- A completed call that does not drift has edits that the table follows. -/
theorem follows_of_not_drifts {v : Value} (hwf : ∀ a, (s.keys a).WellFormed)
    (hok : invoke i.env i.call s = .ok (v, s')) (hno : ¬Drifts i s) : Follows s i.call.edits := by
  cases hcall : i.call with
  | setJurisdiction issuer address code => exact follows_assign _ (by simp [Call.edits])
  | setMultipleJurisdictions caller entries =>
    refine follows_assign _ fun p hp ↦ ?_
    obtain ⟨entry, -, rfl⟩ := List.mem_map.1 hp
    exact ⟨entry.2, none, rfl⟩
  | setJurisdictionUntil issuer address code validUntil =>
    exact follows_assign _ (by simp [Call.edits])
  | addJurisdiction issuer address code =>
    rw [hcall] at hok
    obtain ⟨_, h, -⟩ := Tx.bind_pure_eq_ok_iff.1 hok
    obtain ⟨hauth, hauthority, hpaused, hadm, -⟩ := addJurisdiction_eq_ok_iff.1 h
    refine (follows_add_iff hadm.1 (hwf address).codes_spec.2.2).2 fun first hfirst ↦ ?_
    by_contra hne
    exact hno (.added issuer address code first hcall hauth hauthority hpaused hadm hfirst hne)
  | removeJurisdiction issuer address code =>
    rw [hcall] at hok
    obtain ⟨_, h, -⟩ := Tx.bind_pure_eq_ok_iff.1 hok
    obtain ⟨hauth, hissuer, hpaused, -⟩ := removeJurisdiction_eq_ok_iff.1 h
    exact (follows_remove_iff (hwf address).codes_spec.2.2).2 fun hfirst ↦
      hno (.removed issuer address code hcall hauth hissuer hpaused hfirst)
  | removeJurisdictionMultiple issuer addresses =>
    rw [hcall] at hok
    obtain ⟨_, h, -⟩ := Tx.bind_pure_eq_ok_iff.1 hok
    obtain ⟨hauth, hissuer, hpaused, -⟩ := removeJurisdictionMultiple_eq_ok_iff.1 h
    refine follows_clear_iff.2 fun address hmem ↦ ?_
    by_contra hstored
    exact hno (.cleared issuer addresses address hcall hauth hissuer hpaused hmem hstored)
  -- the other calls edit nothing
  | _ => exact follows_assign [] (by simp)

/-- **The rows follow a step exactly if its call does not drift.** -/
theorem madeBy_exec_iff (hwf : ∀ a, (s.keys a).WellFormed)
    (hs : MadeBy Event.write s.heads s.events) :
    MadeBy Event.write ((system deploy).exec i s).2.heads ((system deploy).exec i s).2.events ↔
      ¬Drifts i s := by
  rcases Tx.commit_cases (invoke i.env i.call) s with ⟨v, s', hok, hcommit⟩ | ⟨f, hfail, hcommit⟩
  · have hpost : ((system deploy).exec i s).2 = s' := congrArg Prod.snd hcommit
    rw [hpost]
    -- a completed call announces its edits, and the rows replay these
    have hfollows : MadeBy Event.write s'.heads s'.events ↔ Follows s i.call.edits := by
      cases invoke_codeStep hok with
      | edited _ hs' =>
        rw [hs', MadeBy, State.events_editAll, List.filterMap_append, replay_append, ← hs]
        rfl
      | kept hcall hkeys events hevents hother =>
        have hheads : s'.heads = s.heads := by
          funext a
          rw [State.heads, State.heads, hkeys]
        have hwrites : events.filterMap Event.write = [] :=
          List.filterMap_eq_nil_iff.2 fun e he ↦ by
            cases e <;> first | rfl | cases hother _ he
        rw [hcall, hheads, hevents]
        exact iff_of_true (hs.append hwrites rfl) rfl
    rw [hfollows]
    exact ⟨fun h hdrifts ↦ hdrifts.not_follows hwf h, follows_of_not_drifts hwf hok⟩
  -- a call that fails cannot drift, as a call that drifts completes
  · have hpost : ((system deploy).exec i s).2 = s := congrArg Prod.snd hcommit
    rw [hpost]
    refine iff_of_true hs fun hdrifts ↦ ?_
    obtain ⟨v, s', hok⟩ := hdrifts.completes
    rw [hfail] at hok
    cases hok

/-- **The rows follow a run exactly if none of its calls drifts.** -/
theorem madeBy_final_iff (calls : List (Input Address)) :
    (∀ past, past <:+ calls → MadeBy Event.write ((system deploy).final past).heads
        ((system deploy).final past).events) ↔
      ∀ e ∈ (system deploy).history calls, ¬Drifts e.input e.pre := by
  induction calls with
  | nil =>
    refine iff_of_true (fun past hpast ↦ ?_) (by simp)
    rw [List.suffix_nil.1 hpast]
    rfl
  | cons i calls ih =>
    rw [System.history_cons, List.forall_mem_cons, ← ih]
    constructor
    · intro h
      have hpast := fun past (hsuffix : past <:+ calls) ↦
        h past (hsuffix.trans (List.suffix_cons _ _))
      refine ⟨?_, hpast⟩
      exact (madeBy_exec_iff (wellFormed_final calls) (hpast calls (List.suffix_refl _))).1
        (h (i :: calls) (List.suffix_refl _))
    · rintro ⟨hno, hpast⟩ past hsuffix
      rcases List.suffix_cons_iff.1 hsuffix with rfl | hsuffix
      · exact (madeBy_exec_iff (wellFormed_final calls) (hpast calls (List.suffix_refl _))).2 hno
      · exact hpast past hsuffix

/-! ### The codes that are announced -/

/-- An announced code is one. -/
def Event.Proper : Event Address → Prop
  | .jurisdictionSet _ code => IsCode code
  | _ => True

omit [DecidableEq Address] in
theorem Event.proper_of_not_isEdit {e : Event Address} (h : e.isEdit = false) : e.Proper := by
  cases e with
  | jurisdictionSet address code => cases h
  | _ => trivial

theorem AdmissibleAll.proper {edits : List (Address × Edit)} (h : AdmissibleAll s edits) :
    ∀ p ∈ edits, (p.2.event p.1).Proper := by
  induction edits generalizing s with
  | nil => exact fun p hp ↦ absurd hp List.not_mem_nil
  | cons p edits ih =>
    obtain ⟨address, x⟩ := p
    obtain ⟨hx, hrest⟩ := h
    refine List.forall_mem_cons.2 ⟨?_, ih hrest⟩
    cases x with
    | assign code expiry => exact hx
    | add code => exact hx.1
    | remove code => trivial
    | clear => trivial

theorem proper_final (calls : List (Input Address)) :
    ∀ e ∈ ((system deploy).final calls).events, e.Proper := by
  refine System.final_induction (system deploy)
    (P := fun s : State Address ↦ ∀ e ∈ s.events, e.Proper)
    (fun e he ↦ absurd he List.not_mem_nil) (fun s i hs ↦ ?_) calls
  rcases exec_codeStep deploy i s with ⟨v, -, hstep⟩ | ⟨-, hpost⟩
  · cases hstep with
    | edited hadm hs' =>
      rw [hs', State.events_editAll]
      refine List.forall_mem_append.2 ⟨hs, fun e he ↦ ?_⟩
      obtain ⟨p, hp, rfl⟩ := List.mem_map.1 he
      exact hadm.proper p hp
    | kept _ _ events hevents hother =>
      rw [hevents]
      exact List.forall_mem_append.2 ⟨hs, fun e he ↦ Event.proper_of_not_isEdit (hother e he)⟩
  · rwa [hpost]

end

/-! ### In the database -/

section

variable {raw : RawSorobanEvent} {contractId : String} {db : ComplianceDb}

/-- **Each event makes its write to the rows of the contract.** -/
theorem jurisdictionsOf_applyRaw {e : Event ScAddress} (hraw : raw.contractId = contractId)
    (he : e.Proper) (h : Delivers raw e.published) :
    jurisdictionsOf contractId (db.applyRaw raw) =
      e.write.elim (jurisdictionsOf contractId db) fun w ↦
        Function.update (jurisdictionsOf contractId db) (rendered w.key) w.value := by
  subst hraw
  cases e with
  | jurisdictionSet address code =>
    have hcode : IsCode code := he
    have hlength : code.length < 2 ^ 32 := by
      rw [hcode.1]
      decide
    have hnames : LegibleNames ["code"] := by decide
    let row : RawEvent := { blankRow raw "JurisdictionSet" with
      address := some (rendered address), jurisdiction := some (textDecode code) }
    have hrow : decodeEvent raw = some row :=
      (decodeEvent_contractEvent h (by decide) ⟨trivial, trivial⟩ hnames
        ⟨hlength, trivial⟩).trans rfl
    have htruthy : truthy row.jurisdiction = some (textDecode code) := hcode.truthy_textDecode
    rw [applyRaw, hrow]
    exact jurisdictionsOf_jurisdictionSet rfl rfl htruthy
  -- no other event has a name of the type
  | _ => exact (sameRows_applyRaw_of_other h (by decide) (by decide)).jurisdictions_eq

/-- **The table follows the contract**: once the events of a run are applied, in any batches and
with whatever in between, the row of an address is there if the contract stores codes for it, and
has the first of them. -/
def TableFollows (calls : List (Input ScAddress)) : Prop :=
  ∀ (contractId : String) (batches : List (List RawSorobanEvent)) (db : ComplianceDb),
    Carries contractId batches (((system deploy).final calls).events.map Event.published) →
      (∀ row ∈ db.jurisdictions, row.1.1 ≠ contractId) →
        ∀ x code, jurisdictionsOf contractId (db.applyBatches batches) x = some code ↔
          ∃ a, x = rendered a ∧ ∃ first,
            (loadJurisdictions ((system deploy).final calls) a).head? = some first ∧
              textDecode first = code

/-- The rows are what the events make of them. -/
theorem mirrors_jurisdictions {calls : List (Input ScAddress)}
    {batches : List (List RawSorobanEvent)}
    (hcarries : Carries contractId batches
      (((system deploy).final calls).events.map Event.published))
    (hdb : ∀ row ∈ db.jurisdictions, row.1.1 ≠ contractId) :
    Mirrors rendered (jurisdictionsOf contractId (db.applyBatches batches))
      (replay (fun _ ↦ none) (((system deploy).final calls).events.filterMap Event.write)) := by
  have hempty : ∀ x, jurisdictionsOf contractId db x = none := by
    intro x
    rw [jurisdictionsOf, codes, Option.map_eq_none_iff, List.find?_eq_none]
    intro row hrow hkey
    exact hdb row hrow (congrArg Prod.fst (of_decide_eq_true hkey))
  exact mirrors_applyBatches (fun db raw hraw ↦ (sameRows_applyRaw_of_ne hraw).jurisdictions_eq)
    (fun db raw hraw e he h ↦ jurisdictionsOf_applyRaw hraw (proper_final calls e he) h)
    hcarries hempty

/-- The events of a run can be delivered: all in one batch. -/
theorem carries_delivery (contractId : String) (events : List Published) :
    Carries contractId [events.map (delivery contractId 0)] events := by
  have hmine : (events.map (delivery contractId 0)).filter
      (fun raw ↦ decide (raw.contractId = contractId)) = events.map (delivery contractId 0) := by
    refine List.filter_eq_self.2 fun raw hraw ↦ ?_
    obtain ⟨e, -, rfl⟩ := List.mem_map.1 hraw
    exact decide_eq_true rfl
  rw [Carries, List.flatten_singleton, hmine, List.forall₂_map_left_iff, List.forall₂_same]
  exact fun e _ ↦ delivers_delivery contractId 0 e

/-- A table that mirrors the heads has the rows of the contract. -/
theorem mirrors_heads_iff {s : State ScAddress} {table : String → Option String} :
    Mirrors rendered table s.heads ↔
      ∀ x code, table x = some code ↔ ∃ a, x = rendered a ∧ ∃ first,
        (loadJurisdictions s a).head? = some first ∧ textDecode first = code := by
  simp only [Mirrors, State.heads, Option.map_eq_some_iff, loadJurisdictions_eq]

/-- The table follows a run exactly if what its events make are the heads of the codes. -/
theorem tableFollows_iff (calls : List (Input ScAddress)) :
    TableFollows calls ↔ MadeBy Event.write ((system deploy).final calls).heads
      ((system deploy).final calls).events := by
  constructor
  · intro h
    have hcarries := carries_delivery "" (((system deploy).final calls).events.map Event.published)
    have hfresh : ∀ row ∈ fresh.jurisdictions, row.1.1 ≠ "" := fun row hrow ↦ by cases hrow
    -- the rows mirror both maps, so that the two are one
    have hheads := mirrors_heads_iff.2 (h "" _ fresh hcarries hfresh)
    have hreplay := mirrors_jurisdictions hcarries hfresh
    funext a
    rw [← hheads.table_name rendered_injective a, ← hreplay.table_name rendered_injective a]
  · intro h contractId batches db hcarries hdb
    have hmirrors := mirrors_jurisdictions hcarries hdb
    rw [← h] at hmirrors
    exact mirrors_heads_iff.1 hmirrors

/-- **The table follows the contract through a run exactly if no call of the run drifts.** -/
theorem jurisdictionTable_follows_iff (calls : List (Input ScAddress)) :
    (∀ past, past <:+ calls → TableFollows past) ↔
      ∀ e ∈ (system deploy).history calls, ¬Drifts e.input e.pre := by
  rw [← madeBy_final_iff]
  exact forall_congr' fun past ↦ imp_congr_right fun _ ↦ tableFollows_iff past

end

/-! ### A removal that the table has no case for -/

/-- A host that grants everything. -/
def openHost : Env ScAddress where
  sequence := 7
  timestamp := 0
  auths := fun _ ↦ true

/-- An account is assigned a code, which is then removed. -/
def removedRun : List (Input ScAddress) :=
  [⟨openHost, .removeJurisdiction someContract someAccount [85, 83]⟩,
    ⟨openHost, .setJurisdiction someContract someAccount [85, 83]⟩,
    ⟨openHost, .initialise someContract⟩]

/-- The code of the account is gone, and its row stays. -/
theorem not_tableFollows_removedRun : ¬TableFollows removedRun := by
  rw [tableFollows_iff]
  intro h
  have hheads : ((system deploy).final removedRun).heads someAccount = none := by rfl
  have hevents : ((system deploy).final removedRun).events =
      [.jurisdictionSet someAccount [85, 83], .jurisdictionRemoved someAccount] := by rfl
  have hentry := congrFun h someAccount
  rw [hheads, hevents] at hentry
  cases hentry

end JurisdictionFlag
