import CompliancePrimitives.Contracts.JurisdictionFlag

/-!
# `jurisdiction-flag`: the registry behind the three keys

What the contract is for is a **registry**: for each address a list of codes and an optional last
ledger they are valid at. The storage is not that. An address has three keys, one of them a legacy
code that is read only when the list is missing, and the operations write different ones of them.

Both levels are described by the same four **edits** of one address. `Record.edit` is what an edit
means for the registry, `Keys.edit` what it does to the three keys, and `Keys.record` reads a record
off the keys.

Two facts connect them. An admissible edit means the same for the keys and for their record
(`Keys.record_edit`), and keeps the keys in one of two shapes (`Keys.WellFormed.edit`). And a
completed call makes the edits it asks for and no others (`invoke_codeStep`), so that whole runs
are lists of edits.
-/

namespace JurisdictionFlag

open Soroban

/-! ### Records and edits -/

/-- An ISO 3166-1 alpha-2 code in canonical form. -/
def IsCode (code : Bytes) : Prop :=
  code.length = jurisdictionCodeLen ∧ ∀ b ∈ code, 65 ≤ b ∧ b ≤ 90

/-- A change to the codes of one address. -/
inductive Edit where
  | assign (code : Bytes) (expiry : Option ℕ)
  | add (code : Bytes)
  | remove (code : Bytes)
  | clear
  deriving DecidableEq

/-- What the registry knows of an address. -/
@[ext]
structure Record where
  codes : List Bytes
  expiry : Option ℕ
  deriving DecidableEq

namespace Record

/-- The record of an address nobody wrote about. -/
def empty : Record := ⟨[], none⟩

/-- The codes that count at a ledger: none once the expiry has passed. -/
def active (sequence : ℕ) (r : Record) : List Bytes :=
  match r.expiry with
  | none => r.codes
  | some expiry => if expiry < sequence then [] else r.codes

/-- What an edit makes of a record. A record without codes has no expiry. -/
def edit (r : Record) : Edit → Record
  | .assign code expiry => ⟨[code], expiry⟩
  | .add code =>
    if code ∉ r.codes ∧ r.codes.length < maxCodesPerAddress then
      ⟨r.codes ++ [code], r.expiry⟩
    else r
  | .remove code =>
    match r.codes.filter fun existing ↦ decide (existing ≠ code) with
    | [] => empty
    | codes@(_ :: _) => ⟨codes, r.expiry⟩
  | .clear => empty

end Record

/-- The registry: one record for each address. -/
abbrev Registry (Address : Type) := Address → Record

/-- The edits a call asks for, in order. -/
def Call.edits {Address : Type} : Call Address → List (Address × Edit)
  | .setJurisdiction _ address code => [(address, .assign code none)]
  | .setMultipleJurisdictions _ entries => entries.map fun entry ↦ (entry.1, .assign entry.2 none)
  | .setJurisdictionUntil _ address code validUntil => [(address, .assign code (some validUntil))]
  | .addJurisdiction _ address code => [(address, .add code)]
  | .removeJurisdiction _ address code => [(address, .remove code)]
  | .removeJurisdictionMultiple _ addresses => addresses.map fun address ↦ (address, .clear)
  | _ => []

/-- The registry after a list of edits. -/
def Registry.editAll {Address : Type} [DecidableEq Address] :
    Registry Address → List (Address × Edit) → Registry Address
  | r, [] => r
  | r, (address, x) :: edits => editAll (Function.update r address ((r address).edit x)) edits

/-! ### The three keys of an address -/

/-- What is stored for one address. -/
@[ext]
structure Keys where
  list : Option (List Bytes)
  legacy : Option Bytes
  validUntil : Option ℕ
  deriving DecidableEq

namespace Keys

/-- No key is set. -/
def empty : Keys := ⟨none, none, none⟩

/-- The codes the keys stand for: the list, or else the legacy code. -/
def codes (k : Keys) : List Bytes :=
  match k.list with
  | some codes => codes
  | none => k.legacy.toList

/-- The record the keys stand for. -/
def record (k : Keys) : Record := ⟨k.codes, k.validUntil⟩

/-- `store_jurisdictions`, for the keys of one address. -/
def store (k : Keys) : List Bytes → Keys
  | [] => empty
  | codes@(firstCode :: _) => ⟨some codes, some firstCode, k.validUntil⟩

/-- What an edit makes of the keys. -/
def edit (k : Keys) : Edit → Keys
  | .assign code expiry => ⟨some [code], some code, expiry⟩
  | .add code => if code ∈ k.codes then k else k.store (k.codes ++ [code])
  | .remove code => k.store (k.codes.filter fun existing ↦ decide (existing ≠ code))
  | .clear => empty

@[simp] theorem codes_empty : empty.codes = [] := rfl

@[simp] theorem record_empty : empty.record = .empty := rfl

@[simp] theorem store_nil (k : Keys) : k.store [] = empty := rfl

@[simp] theorem codes_store (k : Keys) (codes : List Bytes) : (k.store codes).codes = codes := by
  cases codes <;> rfl

theorem record_store_append (k : Keys) (code : Bytes) :
    (k.store (k.codes ++ [code])).record = ⟨k.codes ++ [code], k.validUntil⟩ := by
  cases h : k.codes <;> rfl

end Keys

/-- What a call checks about an edit before it makes it: a code that is written is one, and a list
that is added to has room. -/
def Edit.Admissible (k : Keys) : Edit → Prop
  | .assign code _ => IsCode code
  | .add code => IsCode code ∧ (code ∈ k.codes ∨ k.codes.length < maxCodesPerAddress)
  | _ => True

/-- **An edit means the same for the keys and for the record they stand for.** -/
theorem Keys.record_edit {k : Keys} {x : Edit} (hx : x.Admissible k) :
    (k.edit x).record = k.record.edit x := by
  cases x with
  | assign code expiry => rfl
  | add code =>
    obtain ⟨-, hroom⟩ := hx
    by_cases hmem : code ∈ k.codes
    · simp [edit, Record.edit, record, hmem]
    · have hlt : k.codes.length < maxCodesPerAddress := hroom.resolve_left hmem
      simp only [edit, Record.edit, hmem, if_false, record_store_append]
      simp [record, hmem, hlt]
  | remove code =>
    simp only [edit, Record.edit, record]
    rcases k.codes.filter fun existing ↦ decide (existing ≠ code) with _ | ⟨first, rest⟩ <;> rfl
  | clear => rfl

/-- The shape of the keys of an address: all three absent, or a proper list with its head under the
legacy key. -/
structure Keys.WellFormed (k : Keys) : Prop where
  /-- The legacy key has the head of the list, and is absent with it. -/
  legacy_eq : k.legacy = k.list.bind List.head?
  /-- A list that is stored is not empty, -/
  ne_nil : ∀ codes, k.list = some codes → codes ≠ []
  /-- has no code twice, -/
  nodup : ∀ codes, k.list = some codes → codes.Nodup
  /-- is not longer than permitted, -/
  length_le : ∀ codes, k.list = some codes → codes.length ≤ maxCodesPerAddress
  /-- and has codes in it and nothing else. -/
  isCode : ∀ codes, k.list = some codes → ∀ code ∈ codes, IsCode code
  /-- A term stands only beside a list. -/
  list_of_validUntil : k.validUntil.isSome = true → k.list.isSome = true

namespace Keys

theorem wellFormed_empty : empty.WellFormed where
  legacy_eq := rfl
  ne_nil _ h := by cases h
  nodup _ h := by cases h
  length_le _ h := by cases h
  isCode _ h := by cases h
  list_of_validUntil h := by cases h

/-- A list that is stored in full, with its head under the legacy key, is in shape. -/
theorem wellFormed_of_list {code : Bytes} {rest : List Bytes} {expiry : Option ℕ}
    (hnodup : (code :: rest).Nodup) (hlength : (code :: rest).length ≤ maxCodesPerAddress)
    (hcodes : ∀ c ∈ code :: rest, IsCode c) :
    WellFormed ⟨some (code :: rest), some code, expiry⟩ where
  legacy_eq := rfl
  ne_nil _ h := by cases h; exact List.cons_ne_nil _ _
  nodup _ h := by cases h; exact hnodup
  length_le _ h := by cases h; exact hlength
  isCode _ h := by cases h; exact hcodes
  list_of_validUntil _ := rfl

theorem wellFormed_store {k : Keys} {codes : List Bytes} (hnodup : codes.Nodup)
    (hlength : codes.length ≤ maxCodesPerAddress) (hcodes : ∀ c ∈ codes, IsCode c) :
    (k.store codes).WellFormed := by
  cases codes with
  | nil => exact wellFormed_empty
  | cons code rest => exact wellFormed_of_list hnodup hlength hcodes

/-- The codes of keys in shape, whether or not there are any. -/
theorem WellFormed.codes_spec {k : Keys} (hk : k.WellFormed) :
    k.codes.Nodup ∧ k.codes.length ≤ maxCodesPerAddress ∧ ∀ c ∈ k.codes, IsCode c := by
  cases hlist : k.list with
  | none =>
    have hlegacy : k.legacy = none := by rw [hk.legacy_eq, hlist]; rfl
    have hcodes : k.codes = [] := by rw [codes, hlist, hlegacy]; rfl
    simp [hcodes]
  | some codes =>
    have hcodes : k.codes = codes := by rw [Keys.codes, hlist]
    rw [hcodes]
    exact ⟨hk.nodup codes hlist, hk.length_le codes hlist, hk.isCode codes hlist⟩

/-- **An admissible edit keeps the shape.** -/
theorem WellFormed.edit {k : Keys} (hk : k.WellFormed) {x : Edit} (hx : x.Admissible k) :
    (k.edit x).WellFormed := by
  obtain ⟨hnodup, hlength, hcodes⟩ := hk.codes_spec
  cases x with
  | assign code expiry =>
    have hcode : IsCode code := hx
    have hone : [code].length ≤ maxCodesPerAddress := by simp [maxCodesPerAddress]
    exact wellFormed_of_list (List.nodup_singleton code) hone (by simpa using hcode)
  | add code =>
    obtain ⟨hcode, hroom⟩ := hx
    rw [Keys.edit]
    split_ifs with hmem
    · exact hk
    · have hlt : k.codes.length < maxCodesPerAddress := hroom.resolve_left hmem
      refine wellFormed_store ?_ ?_ ?_
      · exact hnodup.append (List.nodup_singleton code) (by simpa using hmem)
      · rw [List.length_append, List.length_singleton]
        omega
      · intro c hc
        rcases List.mem_append.1 hc with hc | hc
        · exact hcodes c hc
        · rwa [List.mem_singleton.1 hc]
  -- what is left is a sublist, and an empty one is stored as absent keys
  | remove code =>
    have hsub := List.filter_sublist (l := k.codes) (p := fun existing ↦ decide (existing ≠ code))
    exact wellFormed_store (hnodup.sublist hsub) (hsub.length_le.trans hlength)
      fun c hc ↦ hcodes c (hsub.subset hc)
  | clear => exact wellFormed_empty

end Keys

/-! ### Edits of the storage -/

variable {Address : Type}

/-- The keys of one address. -/
def State.keys (s : State Address) (address : Address) : Keys :=
  ⟨s.jurisdictions address, s.jurisdiction address, s.validUntil address⟩

/-- The event that announces an edit. -/
def Edit.event (address : Address) : Edit → Event Address
  | .assign code _ | .add code => .jurisdictionSet address code
  | .remove _ | .clear => .jurisdictionRemoved address

/-- The events that announce edits. -/
def Event.isEdit : Event Address → Bool
  | .jurisdictionSet .. | .jurisdictionRemoved _ => true
  | _ => false

theorem loadJurisdictions_eq (s : State Address) (address : Address) :
    loadJurisdictions s address = (s.keys address).codes := by
  cases hlist : s.jurisdictions address <;> cases hlegacy : s.jurisdiction address <;>
    simp [loadJurisdictions, Keys.codes, State.keys, hlist, hlegacy]

/-! ### Reads -/

/-- What a read of an address announces: that its codes have expired, if it has any. -/
def expiryNotice (env : Env Address) (address : Address) (s : State Address) :
    List (Event Address) :=
  match s.validUntil address with
  | none => []
  | some validUntil =>
    if validUntil < env.sequence ∧ (s.keys address).codes ≠ [] then
      [.jurisdictionExpired address]
    else []

/-- The state after a read: the same, but for what is announced. -/
def afterRead (env : Env Address) (address : Address) (s : State Address) : State Address :=
  { s with events := s.events ++ expiryNotice env address s }

theorem isEdit_of_mem_expiryNotice {env : Env Address} {address : Address} {s : State Address}
    {e : Event Address} (he : e ∈ expiryNotice env address s) : e.isEdit = false := by
  rw [expiryNotice] at he
  split at he
  · cases he
  · split_ifs at he
    · rw [List.mem_singleton.1 he]
      rfl
    · cases he

/-- **Reading the codes of an address** yields those that count at the ledger. -/
theorem loadActiveJurisdictions_eq (env : Env Address) (address : Address) (s : State Address) :
    loadActiveJurisdictions env address s =
      .ok ((s.keys address).record.active env.sequence, afterRead env address s) := by
  have hexpiry : (s.keys address).record.expiry = s.validUntil address := rfl
  have hcodes : (s.keys address).record.codes = (s.keys address).codes := rfl
  by_cases hempty : (s.keys address).codes = []
  · -- without codes, the expiry is not looked at
    cases hvalid : s.validUntil address <;>
      simp [loadActiveJurisdictions, loadJurisdictions_eq, Record.active, afterRead,
        expiryNotice, hexpiry, hcodes, hempty, hvalid]
  · rcases hvalid : s.validUntil address with _ | validUntil
    · simp [loadActiveJurisdictions, loadJurisdictions_eq, Record.active, afterRead,
        expiryNotice, hexpiry, hcodes, hempty, hvalid]
    · by_cases hexpired : validUntil < env.sequence <;>
        simp [loadActiveJurisdictions, loadJurisdictions_eq, Record.active, afterRead,
          expiryNotice, publish, hexpiry, hcodes, hempty, hvalid, hexpired]

theorem listJurisdictions_eq (env : Env Address) (address : Address) (s : State Address) :
    listJurisdictions env address s =
      .ok ((s.keys address).record.active env.sequence, afterRead env address s) :=
  loadActiveJurisdictions_eq env address s

theorem getJurisdiction_eq (env : Env Address) (address : Address) (s : State Address) :
    getJurisdiction env address s =
      .ok (((s.keys address).record.active env.sequence).head?, afterRead env address s) := by
  rw [getJurisdiction, Tx.bind_of_ok (loadActiveJurisdictions_eq env address s)]
  rfl

theorem isPermittedJurisdiction_eq (env : Env Address) (address : Address)
    {allowedCodes : List Bytes} (hallowed : allowedCodes ≠ []) (s : State Address) :
    isPermittedJurisdiction env address allowedCodes s =
      .ok (allowedCodes.any fun allowed ↦
          ((s.keys address).record.active env.sequence).any fun code ↦ decide (code = allowed),
        afterRead env address s) := by
  have hensure : Tx.ensure (allowedCodes ≠ []) Error.emptyAllowedCodes s = .ok ((), s) :=
    Tx.ensure_eq_ok_iff.2 ⟨hallowed, rfl⟩
  rw [isPermittedJurisdiction, Tx.bind_of_ok hensure,
    Tx.bind_of_ok (loadActiveJurisdictions_eq env address s)]
  rfl

theorem isCompliant_eq (env : Env Address) (address : Address) (s : State Address) :
    isCompliant env address s =
      .ok (((s.keys address).record.active env.sequence).head?.isSome,
        afterRead env address s) := by
  rw [isCompliant, Tx.bind_of_ok (getJurisdiction_eq env address s)]
  rfl

section

variable [DecidableEq Address] {env : Env Address} {s s' : State Address} {u : Unit}

/-- The state with other keys for one address. -/
def State.write (s : State Address) (address : Address) (k : Keys) : State Address :=
  { s with
    jurisdictions := Function.update s.jurisdictions address k.list
    jurisdiction := Function.update s.jurisdiction address k.legacy
    validUntil := Function.update s.validUntil address k.validUntil }

/-- The state after one edit, with the event that announces it. -/
def State.edit (s : State Address) (address : Address) (x : Edit) : State Address :=
  { s.write address ((s.keys address).edit x) with events := s.events ++ [x.event address] }

/-- The state after a list of edits. -/
def State.editAll : State Address → List (Address × Edit) → State Address
  | s, [] => s
  | s, (address, x) :: edits => editAll (s.edit address x) edits

/-- Each edit of a list is admissible when its turn comes. -/
def AdmissibleAll : State Address → List (Address × Edit) → Prop
  | _, [] => True
  | s, (address, x) :: edits =>
    x.Admissible (s.keys address) ∧ AdmissibleAll (s.edit address x) edits

@[simp]
theorem State.keys_write (s : State Address) (address : Address) (k : Keys) :
    (s.write address k).keys = Function.update s.keys address k := by
  funext b
  by_cases hb : b = address
  · subst hb
    simp [keys, write]
  · simp [keys, write, hb]

@[simp]
theorem State.write_self (s : State Address) (address : Address) :
    s.write address (s.keys address) = s := by
  simp [write, keys]

@[simp]
theorem State.keys_edit (s : State Address) (address : Address) (x : Edit) :
    (s.edit address x).keys = Function.update s.keys address ((s.keys address).edit x) :=
  State.keys_write s address _

@[simp] theorem State.editAll_nil (s : State Address) : s.editAll [] = s := rfl

@[simp] theorem State.editAll_cons (s : State Address) (address : Address) (x : Edit)
    (edits : List (Address × Edit)) :
    s.editAll ((address, x) :: edits) = (s.edit address x).editAll edits := rfl

/-- Every edit of a list is announced, in order. -/
theorem State.events_editAll (s : State Address) (edits : List (Address × Edit)) :
    (s.editAll edits).events = s.events ++ edits.map fun p ↦ p.2.event p.1 := by
  induction edits generalizing s with
  | nil => simp
  | cons p edits ih =>
    obtain ⟨address, x⟩ := p
    have hevents : (s.edit address x).events = s.events ++ [x.event address] := rfl
    rw [State.editAll_cons, ih, hevents, List.append_assoc, List.map_cons, List.singleton_append]

/-- Edits that are admissible for any keys are admissible one after the other. -/
theorem admissibleAll_of_forall {edits : List (Address × Edit)}
    (h : ∀ p ∈ edits, ∀ k, p.2.Admissible k) : AdmissibleAll s edits := by
  induction edits generalizing s with
  | nil => exact trivial
  | cons p edits ih =>
    exact ⟨h p List.mem_cons_self _, ih fun q hq ↦ h q (List.mem_cons_of_mem _ hq)⟩

/-- What admissible edits keep, edit by edit, they keep for every address. -/
theorem AdmissibleAll.induction {P : Keys → Prop}
    (hstep : ∀ k x, P k → x.Admissible k → P (k.edit x)) {edits : List (Address × Edit)}
    (hadm : AdmissibleAll s edits) (hs : ∀ a, P (s.keys a)) :
    ∀ a, P ((s.editAll edits).keys a) := by
  induction edits generalizing s with
  | nil => exact hs
  | cons p edits ih =>
    obtain ⟨address, x⟩ := p
    obtain ⟨hx, hrest⟩ := hadm
    refine ih hrest fun a ↦ ?_
    rw [State.keys_edit]
    by_cases ha : a = address
    · subst ha
      rw [Function.update_self]
      exact hstep _ x (hs a) hx
    · rw [Function.update_of_ne ha]
      exact hs a

/-- **A list of edits refines the same list for the registry.** -/
theorem AdmissibleAll.record_editAll {edits : List (Address × Edit)}
    (hadm : AdmissibleAll s edits) :
    (fun a ↦ ((s.editAll edits).keys a).record) =
      Registry.editAll (fun a ↦ (s.keys a).record) edits := by
  induction edits generalizing s with
  | nil => rfl
  | cons p edits ih =>
    obtain ⟨address, x⟩ := p
    obtain ⟨hx, hrest⟩ := hadm
    have hone : (fun a ↦ ((s.edit address x).keys a).record) =
        Function.update (fun a ↦ (s.keys a).record) address ((s.keys address).record.edit x) := by
      funext a
      by_cases ha : a = address
      · subst ha
        simp [Keys.record_edit hx]
      · simp [ha]
    rw [State.editAll_cons, ih hrest, hone]
    rfl

/-! ### What a completed call does -/

omit [DecidableEq Address] in
@[simp]
theorem publish_eq_ok_iff {e : Event Address} :
    publish e s = .ok (u, s') ↔ s' = { s with events := s.events ++ [e] } :=
  Tx.modify_eq_ok_iff

omit [DecidableEq Address] in
@[simp]
theorem validateJurisdictionCode_eq_ok_iff {code : Bytes} :
    validateJurisdictionCode code s = .ok (u, s') ↔ IsCode code ∧ s' = s := by
  simp [validateJurisdictionCode, IsCode, isAsciiUppercase, and_assoc]

@[simp]
theorem storeJurisdictions_eq_ok_iff {address : Address} {codes : List Bytes} :
    storeJurisdictions address codes s = .ok (u, s') ↔
      s' = s.write address ((s.keys address).store codes) := by
  cases codes with
  | nil => simp [storeJurisdictions, State.write, Keys.empty]
  | cons code rest => simp [storeJurisdictions, State.write, State.keys, Keys.store]

@[simp]
theorem assignCode_eq_ok_iff {address : Address} {code : Bytes} :
    assignCode address code s = .ok (u, s') ↔ s' = s.edit address (.assign code none) := by
  simp [assignCode, clearValidUntil, State.edit, State.write, Keys.store, Keys.edit, Edit.event]

@[simp]
theorem clearCodes_eq_ok_iff {address : Address} :
    clearCodes address s = .ok (u, s') ↔ s' = s.edit address .clear := by
  simp [clearCodes, State.edit, State.write, Keys.edit, Edit.event]

@[simp]
theorem requireIssuer_eq_ok_iff {issuer : Address} :
    requireIssuer env issuer s = .ok (u, s') ↔
      env.auths issuer = true ∧ s.issuer = some issuer ∧ s' = s :=
  requireStored_eq_ok_iff

omit [DecidableEq Address] in
@[simp]
theorem rejectIfPaused_eq_ok_iff :
    rejectIfPaused s = .ok (u, s') ↔ s.paused.getD false = false ∧ s' = s := by
  simp [rejectIfPaused, and_comm]

/-- Who may write codes. -/
def HasAuthority (s : State Address) (caller : Address) : Prop :=
  ∃ issuer, s.issuer = some issuer ∧ (issuer = caller ∨ s.complianceOfficer = some caller)

@[simp]
theorem requireComplianceAuthority_eq_ok_iff {caller : Address} :
    requireComplianceAuthority env caller s = .ok (u, s') ↔
      env.auths caller = true ∧ HasAuthority s caller ∧ s' = s := by
  simp only [requireComplianceAuthority, Tx.bind_eq_ok_iff, requireAuth_eq_ok_iff,
    Tx.get_eq_ok_iff, Tx.okOr_eq_ok_iff, Tx.ensure_eq_ok_iff, HasAuthority, and_assoc,
    exists_and_left, exists_eq_left, exists_const]
  constructor
  · rintro ⟨hauth, issuer, hissuer, hrole, rfl⟩
    exact ⟨hauth, ⟨issuer, hissuer, hrole⟩, rfl⟩
  · rintro ⟨hauth, ⟨issuer, hissuer, hrole⟩, rfl⟩
    exact ⟨hauth, issuer, hissuer, hrole, rfl⟩

theorem setJurisdiction_eq_ok_iff {issuer address : Address} {code : Bytes} :
    setJurisdiction env issuer address code s = .ok (u, s') ↔
      env.auths issuer = true ∧ HasAuthority s issuer ∧ s.paused.getD false = false ∧
        IsCode code ∧ s' = s.edit address (.assign code none) := by
  simp [setJurisdiction, and_assoc]

theorem setJurisdictionUntil_eq_ok_iff {issuer address : Address} {code : Bytes}
    {validUntil : ℕ} :
    setJurisdictionUntil env issuer address code validUntil s = .ok (u, s') ↔
      env.auths issuer = true ∧ HasAuthority s issuer ∧ s.paused.getD false = false ∧
        IsCode code ∧ env.sequence ≤ validUntil ∧
        s' = s.edit address (.assign code (some validUntil)) := by
  simp [setJurisdictionUntil, State.edit, State.write, Keys.store, Keys.edit, Edit.event,
    and_assoc]

/-- An address can be given a code it already has, however many it has: that writes nothing, and is
announced all the same. -/
theorem addJurisdiction_eq_ok_iff {issuer address : Address} {code : Bytes} :
    addJurisdiction env issuer address code s = .ok (u, s') ↔
      env.auths issuer = true ∧ HasAuthority s issuer ∧ s.paused.getD false = false ∧
        (Edit.add code).Admissible (s.keys address) ∧ s' = s.edit address (.add code) := by
  by_cases hmem : code ∈ (s.keys address).codes
  · have hkeys : s.edit address (.add code) =
        { s with events := s.events ++ [.jurisdictionSet address code] } := by
      rw [State.edit, Keys.edit, if_pos hmem, State.write_self]
      rfl
    simp [addJurisdiction, loadJurisdictions_eq, hmem, Edit.Admissible, hkeys, and_assoc]
  · simp [addJurisdiction, loadJurisdictions_eq, hmem, Edit.Admissible, State.edit, State.write,
      Keys.edit, Edit.event, and_assoc]

theorem removeJurisdiction_eq_ok_iff {issuer address : Address} {code : Bytes} :
    removeJurisdiction env issuer address code s = .ok (u, s') ↔
      env.auths issuer = true ∧ s.issuer = some issuer ∧ s.paused.getD false = false ∧
        s' = s.edit address (.remove code) := by
  simp [removeJurisdiction, loadJurisdictions_eq, State.edit, State.write, Keys.edit, Edit.event,
    and_assoc]

omit [DecidableEq Address] in
/-- The first loop of `set_multiple_jurisdictions`. -/
theorem foldlM_validate_eq_ok_iff {entries : List (Address × Bytes)} :
    entries.foldlM (fun _ entry ↦ validateJurisdictionCode entry.2) () s = .ok (u, s') ↔
      (∀ entry ∈ entries, IsCode entry.2) ∧ s' = s := by
  induction entries with
  | nil => simp
  | cons entry entries ih =>
    simp only [List.foldlM_cons, Tx.bind_eq_ok_iff, validateJurisdictionCode_eq_ok_iff,
      List.forall_mem_cons, and_assoc]
    constructor
    · rintro ⟨_, _, hcode, rfl, hrest⟩
      exact ⟨hcode, ih.1 hrest⟩
    · rintro ⟨hcode, hrest⟩
      exact ⟨(), s, hcode, rfl, ih.2 hrest⟩

/-- The second loop of `set_multiple_jurisdictions`. -/
theorem foldlM_assignCode_eq_ok_iff {entries : List (Address × Bytes)} :
    entries.foldlM (fun _ entry ↦ assignCode entry.1 entry.2) () s = .ok (u, s') ↔
      s' = s.editAll (entries.map fun entry ↦ (entry.1, .assign entry.2 none)) :=
  Tx.foldlM_eq_ok_iff (k := fun entry : Address × Bytes ↦ assignCode entry.1 entry.2)
    (F := fun entries s ↦ s.editAll (entries.map fun entry ↦ (entry.1, .assign entry.2 none)))
    (fun _ _ _ ↦ assignCode_eq_ok_iff) (fun _ ↦ rfl) fun _ _ _ ↦ rfl

/-- The loop of `remove_jurisdiction_multiple`. -/
theorem foldlM_clearCodes_eq_ok_iff {addresses : List Address} :
    addresses.foldlM (fun _ address ↦ clearCodes address) () s = .ok (u, s') ↔
      s' = s.editAll (addresses.map fun address ↦ (address, .clear)) :=
  Tx.foldlM_eq_ok_iff (k := clearCodes)
    (F := fun addresses s ↦ s.editAll (addresses.map fun address ↦ (address, .clear)))
    (fun _ _ _ ↦ clearCodes_eq_ok_iff) (fun _ ↦ rfl) fun _ _ _ ↦ rfl

theorem setMultipleJurisdictions_eq_ok_iff {caller : Address} {entries : List (Address × Bytes)} :
    setMultipleJurisdictions env caller entries s = .ok (u, s') ↔
      env.auths caller = true ∧ HasAuthority s caller ∧ s.paused.getD false = false ∧
        (entries ≠ [] ∧ entries.length ≤ maxBatchSize) ∧ (∀ entry ∈ entries, IsCode entry.2) ∧
        s' = s.editAll (entries.map fun entry ↦ (entry.1, .assign entry.2 none)) := by
  simp [setMultipleJurisdictions, foldlM_validate_eq_ok_iff, foldlM_assignCode_eq_ok_iff,
    and_assoc]

theorem removeJurisdictionMultiple_eq_ok_iff {issuer : Address} {addresses : List Address} :
    removeJurisdictionMultiple env issuer addresses s = .ok (u, s') ↔
      env.auths issuer = true ∧ s.issuer = some issuer ∧ s.paused.getD false = false ∧
        s' = s.editAll (addresses.map fun address ↦ (address, .clear)) := by
  simp [removeJurisdictionMultiple, foldlM_clearCodes_eq_ok_iff, and_assoc]

/-! ### Issuer and officer -/

omit [DecidableEq Address] in
theorem initialise_eq_ok_iff {issuer : Address} :
    initialise env issuer s = .ok (u, s') ↔
      s.issuer = none ∧ env.auths issuer = true ∧
        s' = { s with issuer := some issuer, paused := some false } := by
  simp [initialise]

theorem transferIssuer_eq_ok_iff {currentIssuer newIssuer : Address} :
    transferIssuer env currentIssuer newIssuer s = .ok (u, s') ↔
      env.auths currentIssuer = true ∧ s.issuer = some currentIssuer ∧
        s' = { s with issuer := some newIssuer, pendingIssuer := none,
                      events := s.events ++ [.issuerTransferred currentIssuer newIssuer] } := by
  simp [transferIssuer, and_assoc]

theorem proposeIssuer_eq_ok_iff {issuer newIssuer : Address} :
    proposeIssuer env issuer newIssuer s = .ok (u, s') ↔
      env.auths issuer = true ∧ s.issuer = some issuer ∧
        s' = { s with pendingIssuer := some newIssuer,
                      events := s.events ++ [.issuerProposed issuer newIssuer] } := by
  simp [proposeIssuer, and_assoc]

theorem acceptIssuer_eq_ok_iff {newIssuer : Address} :
    acceptIssuer env newIssuer s = .ok (u, s') ↔
      env.auths newIssuer = true ∧ s.pendingIssuer = some newIssuer ∧
        ∃ oldIssuer, s.issuer = some oldIssuer ∧
          s' = { s with issuer := some newIssuer, pendingIssuer := none,
                        events := s.events ++ [.issuerTransferred oldIssuer newIssuer] } := by
  simp [acceptIssuer, and_assoc]

theorem cancelIssuerProposal_eq_ok_iff {issuer : Address} :
    cancelIssuerProposal env issuer s = .ok (u, s') ↔
      env.auths issuer = true ∧ s.issuer = some issuer ∧
        s' = { s with pendingIssuer := none,
                      events := s.events ++ [.issuerProposalCancelled issuer] } := by
  simp [cancelIssuerProposal, and_assoc]

theorem setComplianceOfficer_eq_ok_iff {issuer officer : Address} :
    setComplianceOfficer env issuer officer s = .ok (u, s') ↔
      env.auths issuer = true ∧ s.issuer = some issuer ∧
        s' = { s with complianceOfficer := some officer } := by
  simp [setComplianceOfficer, and_assoc]

theorem revokeComplianceOfficer_eq_ok_iff {issuer : Address} :
    revokeComplianceOfficer env issuer s = .ok (u, s') ↔
      env.auths issuer = true ∧ s.issuer = some issuer ∧
        s' = { s with complianceOfficer := none } := by
  simp [revokeComplianceOfficer, and_assoc]

theorem pause_eq_ok_iff {issuer : Address} :
    pause env issuer s = .ok (u, s') ↔
      env.auths issuer = true ∧ s.issuer = some issuer ∧
        s' = { s with paused := some true, events := s.events ++ [.paused issuer] } := by
  simp [pause, and_assoc]

theorem unpause_eq_ok_iff {issuer : Address} :
    unpause env issuer s = .ok (u, s') ↔
      env.auths issuer = true ∧ s.issuer = some issuer ∧
        s' = { s with paused := some false, events := s.events ++ [.unpaused issuer] } := by
  simp [unpause, and_assoc]

theorem upgrade_eq_ok_iff {issuer : Address} {newWasmHash : Bytes32} :
    upgrade env issuer newWasmHash s = .ok (u, s') ↔
      env.auths issuer = true ∧ s.issuer = some issuer ∧
        s' = { s with pendingUpgrade := none } := by
  simp [upgrade, and_assoc]

/-! ### Every completed call -/

/-- What a completed call can do to the codes of addresses. -/
inductive CodeStep (call : Call Address) (s s' : State Address) : Prop
  /-- The edits of the call, each admissible, are made and announced. -/
  | edited (hadm : AdmissibleAll s call.edits) (hs' : s' = s.editAll call.edits)
  /-- A call without edits leaves the keys alone, and announces no edit. -/
  | kept (hcall : call.edits = []) (hkeys : s'.keys = s.keys) (events : List (Event Address))
      (hevents : s'.events = s.events ++ events) (hother : ∀ e ∈ events, e.isEdit = false)

/-- A read announces no edit. -/
theorem codeStep_afterRead {call : Call Address} (hcall : call.edits = []) (address : Address) :
    CodeStep call s (afterRead env address s) :=
  .kept hcall rfl (expiryNotice env address s) rfl fun _ he ↦ isEdit_of_mem_expiryNotice he

/-- **Every completed call is one of these.** -/
theorem invoke_codeStep {call : Call Address} {v : Value}
    (h : invoke env call s = .ok (v, s')) : CodeStep call s s' := by
  cases call with
  -- the administration leaves every key alone
  | initialise issuer =>
    obtain ⟨_, h, -⟩ := Tx.bind_pure_eq_ok_iff.1 h
    obtain ⟨-, -, rfl⟩ := initialise_eq_ok_iff.1 h
    exact .kept rfl rfl [] (List.append_nil _).symm (by simp)
  | transferIssuer currentIssuer newIssuer =>
    obtain ⟨_, h, -⟩ := Tx.bind_pure_eq_ok_iff.1 h
    obtain ⟨-, -, rfl⟩ := transferIssuer_eq_ok_iff.1 h
    exact .kept rfl rfl [.issuerTransferred currentIssuer newIssuer] rfl (by simp [Event.isEdit])
  | proposeIssuer issuer newIssuer =>
    obtain ⟨_, h, -⟩ := Tx.bind_pure_eq_ok_iff.1 h
    obtain ⟨-, -, rfl⟩ := proposeIssuer_eq_ok_iff.1 h
    exact .kept rfl rfl [.issuerProposed issuer newIssuer] rfl (by simp [Event.isEdit])
  | acceptIssuer newIssuer =>
    obtain ⟨_, h, -⟩ := Tx.bind_pure_eq_ok_iff.1 h
    obtain ⟨-, -, oldIssuer, -, rfl⟩ := acceptIssuer_eq_ok_iff.1 h
    exact .kept rfl rfl [.issuerTransferred oldIssuer newIssuer] rfl (by simp [Event.isEdit])
  | cancelIssuerProposal issuer =>
    obtain ⟨_, h, -⟩ := Tx.bind_pure_eq_ok_iff.1 h
    obtain ⟨-, -, rfl⟩ := cancelIssuerProposal_eq_ok_iff.1 h
    exact .kept rfl rfl [.issuerProposalCancelled issuer] rfl (by simp [Event.isEdit])
  | setComplianceOfficer issuer officer =>
    obtain ⟨_, h, -⟩ := Tx.bind_pure_eq_ok_iff.1 h
    obtain ⟨-, -, rfl⟩ := setComplianceOfficer_eq_ok_iff.1 h
    exact .kept rfl rfl [] (List.append_nil _).symm (by simp)
  | revokeComplianceOfficer issuer =>
    obtain ⟨_, h, -⟩ := Tx.bind_pure_eq_ok_iff.1 h
    obtain ⟨-, -, rfl⟩ := revokeComplianceOfficer_eq_ok_iff.1 h
    exact .kept rfl rfl [] (List.append_nil _).symm (by simp)
  | pause issuer =>
    obtain ⟨_, h, -⟩ := Tx.bind_pure_eq_ok_iff.1 h
    obtain ⟨-, -, rfl⟩ := pause_eq_ok_iff.1 h
    exact .kept rfl rfl [.paused issuer] rfl (by simp [Event.isEdit])
  | unpause issuer =>
    obtain ⟨_, h, -⟩ := Tx.bind_pure_eq_ok_iff.1 h
    obtain ⟨-, -, rfl⟩ := unpause_eq_ok_iff.1 h
    exact .kept rfl rfl [.unpaused issuer] rfl (by simp [Event.isEdit])
  | upgrade issuer newWasmHash =>
    obtain ⟨_, h, -⟩ := Tx.bind_pure_eq_ok_iff.1 h
    obtain ⟨-, -, rfl⟩ := upgrade_eq_ok_iff.1 h
    exact .kept rfl rfl [] (List.append_nil _).symm (by simp)
  -- a write makes the edits of its call, each admissible for the keys it finds
  | setJurisdiction issuer address code =>
    obtain ⟨_, h, -⟩ := Tx.bind_pure_eq_ok_iff.1 h
    obtain ⟨-, -, -, hcode, rfl⟩ := setJurisdiction_eq_ok_iff.1 h
    exact .edited ⟨hcode, trivial⟩ rfl
  | setMultipleJurisdictions caller entries =>
    obtain ⟨_, h, -⟩ := Tx.bind_pure_eq_ok_iff.1 h
    obtain ⟨-, -, -, -, hcodes, rfl⟩ := setMultipleJurisdictions_eq_ok_iff.1 h
    refine .edited (admissibleAll_of_forall fun p hp k ↦ ?_) rfl
    obtain ⟨entry, hentry, rfl⟩ := List.mem_map.1 hp
    exact hcodes entry hentry
  | setJurisdictionUntil issuer address code validUntil =>
    obtain ⟨_, h, -⟩ := Tx.bind_pure_eq_ok_iff.1 h
    obtain ⟨-, -, -, hcode, -, rfl⟩ := setJurisdictionUntil_eq_ok_iff.1 h
    exact .edited ⟨hcode, trivial⟩ rfl
  | addJurisdiction issuer address code =>
    obtain ⟨_, h, -⟩ := Tx.bind_pure_eq_ok_iff.1 h
    obtain ⟨-, -, -, hadm, rfl⟩ := addJurisdiction_eq_ok_iff.1 h
    exact .edited ⟨hadm, trivial⟩ rfl
  | removeJurisdiction issuer address code =>
    obtain ⟨_, h, -⟩ := Tx.bind_pure_eq_ok_iff.1 h
    obtain ⟨-, -, -, rfl⟩ := removeJurisdiction_eq_ok_iff.1 h
    exact .edited ⟨trivial, trivial⟩ rfl
  | removeJurisdictionMultiple issuer addresses =>
    obtain ⟨_, h, -⟩ := Tx.bind_pure_eq_ok_iff.1 h
    obtain ⟨-, -, -, rfl⟩ := removeJurisdictionMultiple_eq_ok_iff.1 h
    refine .edited (admissibleAll_of_forall fun p hp k ↦ ?_) rfl
    obtain ⟨address, -, rfl⟩ := List.mem_map.1 hp
    exact trivial
  -- a read makes none, whatever it publishes about expired codes
  | listJurisdictions address =>
    obtain ⟨codes, h, -⟩ := Tx.bind_pure_eq_ok_iff.1 h
    obtain ⟨-, rfl⟩ :=
      Prod.mk.inj (Except.ok.inj ((listJurisdictions_eq env address s).symm.trans h))
    exact codeStep_afterRead rfl address
  | getJurisdiction address =>
    obtain ⟨code, h, -⟩ := Tx.bind_pure_eq_ok_iff.1 h
    obtain ⟨-, rfl⟩ := Prod.mk.inj (Except.ok.inj ((getJurisdiction_eq env address s).symm.trans h))
    exact codeStep_afterRead rfl address
  | isPermittedJurisdiction address allowedCodes =>
    obtain ⟨permitted, h, -⟩ := Tx.bind_pure_eq_ok_iff.1 h
    by_cases hallowed : allowedCodes = []
    · rw [hallowed, isPermittedJurisdiction_nil] at h
      cases h
    · obtain ⟨-, rfl⟩ := Prod.mk.inj (Except.ok.inj
        ((isPermittedJurisdiction_eq env address hallowed s).symm.trans h))
      exact codeStep_afterRead rfl address
  | isCompliant address =>
    obtain ⟨compliant, h, -⟩ := Tx.bind_pure_eq_ok_iff.1 h
    obtain ⟨-, rfl⟩ := Prod.mk.inj (Except.ok.inj ((isCompliant_eq env address s).symm.trans h))
    exact codeStep_afterRead rfl address

/-- A committed invocation either completed as one of these, or changed nothing. -/
theorem exec_codeStep (start : State Address) (i : Input Address) (s : State Address) :
    (∃ v, ((system start).exec i s).1 = .ok v ∧
        CodeStep i.call s ((system start).exec i s).2) ∨
      (∃ f, ((system start).exec i s).1 = .error f) ∧ ((system start).exec i s).2 = s := by
  rcases Tx.commit_answer (invoke i.env i.call) s with ⟨v, hresult, hok⟩ | hkept
  · exact .inl ⟨v, hresult, invoke_codeStep hok⟩
  · exact .inr hkept

end

end JurisdictionFlag
