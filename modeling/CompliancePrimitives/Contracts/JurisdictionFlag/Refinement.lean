import CompliancePrimitives.Contracts.JurisdictionFlag.Registry

/-!
# `jurisdiction-flag`: runs of the registry

Three results about whole runs, all read off `invoke_codeStep`.

* `keys_wellFormed` — from a fresh deployment on, the three keys of an address are absent, or a
  proper list with its head under the legacy key.
* `reads_eq_registry` — also from a storage with legacy codes, the reads answer what the registry
  answers that the completed calls have built up.
* `same_runs_of_canonical_eq` — how the codes of an address are stored is never visible. The
  operations are run from a state and from its canonical form, in which every list is stored in
  full, and are blind to the difference (`Tx.Commutes`).

The second says what the answers are, the third that nothing else — no failure, no event — depends
on how they are stored. Together they are `refines_registry`.
-/

namespace JurisdictionFlag

open Soroban

variable {Address : Type} [DecidableEq Address]

/-- One step of a run of the contract. -/
abbrev Moment (Address : Type) :=
  Step (State Address) (Input Address) (Except (Failure Error) Value)

/-! ### The shape of the keys -/

theorem wellFormed_final (inputs : List (Input Address)) :
    ∀ a, (((system deploy).final inputs).keys a).WellFormed := by
  refine System.final_induction (system deploy)
    (P := fun s : State Address ↦ ∀ a, (s.keys a).WellFormed)
    (fun _ ↦ Keys.wellFormed_empty) (fun s i hwf ↦ ?_) inputs
  rcases exec_codeStep deploy i s with ⟨v, -, hstep⟩ | ⟨-, hpost⟩
  · cases hstep with
    | edited hadm hs' =>
      rw [hs']
      exact hadm.induction (fun _ _ hk hx ↦ hk.edit hx) hwf
    | kept _ hkeys =>
      rw [hkeys]
      exact hwf
  · rwa [hpost]

/-- **The representation invariant.** From a fresh deployment on, whatever is called: a list is
stored exactly when a legacy code is, and then the legacy code is its head; a stored list is a
nonempty one of at most eight different codes, each of two uppercase letters; and an expiry is
stored only with a list. -/
theorem keys_wellFormed (inputs : List (Input Address)) (a : Address) :
    let s := (system deploy).final inputs
    ((s.jurisdictions a).isSome = (s.jurisdiction a).isSome) ∧
    (∀ codes, s.jurisdictions a = some codes →
      s.jurisdiction a = codes.head? ∧ codes ≠ [] ∧ codes.Nodup ∧
        codes.length ≤ maxCodesPerAddress ∧
        ∀ code ∈ codes, code.length = 2 ∧ ∀ b ∈ code, 65 ≤ b ∧ b ≤ 90) ∧
    ((s.validUntil a).isSome = true → (s.jurisdictions a).isSome = true) := by
  intro s
  have hwf : (s.keys a).WellFormed := wellFormed_final inputs a
  refine ⟨?_, fun codes hlist ↦ ?_, hwf.list_of_validUntil⟩
  · have hlegacy : s.jurisdiction a = (s.jurisdictions a).bind List.head? := hwf.legacy_eq
    rw [hlegacy]
    rcases hlist : s.jurisdictions a with _ | codes
    · rfl
    · have hne : codes ≠ [] := hwf.ne_nil codes hlist
      simp [hne]
  · have hlegacy : s.jurisdiction a = codes.head? := by
      have h : s.jurisdiction a = (s.jurisdictions a).bind List.head? := hwf.legacy_eq
      rw [h, hlist]
      rfl
    exact ⟨hlegacy, hwf.ne_nil codes hlist, hwf.nodup codes hlist, hwf.length_le codes hlist,
      hwf.isCode codes hlist⟩

/-! ### The answers -/

/-- The registry after a history: every completed call made its edits, and no other step any. -/
def Registry.after (r : Registry Address) : List (Moment Address) → Registry Address
  | [] => r
  | e :: h =>
    match e.result with
    | .ok _ => (Registry.after r h).editAll e.input.call.edits
    | .error _ => Registry.after r h

/-- The registry of an earlier version's storage: at most one code, and it does not expire. -/
def Registry.ofLegacy (legacy : Address → Option Bytes) : Registry Address :=
  fun a ↦ ⟨(legacy a).toList, none⟩

/-- No address has a list or an expiry: nothing is stored for it, or a legacy code alone. -/
def LegacyOnly (s : State Address) : Prop :=
  ∀ a, s.jurisdictions a = none ∧ s.validUntil a = none

omit [DecidableEq Address] in
theorem LegacyOnly.record_eq {s : State Address} (hs : LegacyOnly s) :
    (fun a ↦ (s.keys a).record) = Registry.ofLegacy s.jurisdiction := by
  funext a
  obtain ⟨hlist, hvalid⟩ := hs a
  simp [Keys.record, Keys.codes, State.keys, hlist, hvalid, Registry.ofLegacy]

/-- **The keys refine the registry**: after every run they stand for the records that the completed
calls have built up. -/
theorem record_final {start : State Address} (hstart : LegacyOnly start)
    (inputs : List (Input Address)) :
    (fun a ↦ (((system start).final inputs).keys a).record) =
      (Registry.ofLegacy start.jurisdiction).after ((system start).history inputs) := by
  refine System.history_induction (system start)
    (P := fun h s ↦ (fun a ↦ (s.keys a).record) = (Registry.ofLegacy start.jurisdiction).after h)
    hstart.record_eq (fun h s i ih ↦ ?_) inputs
  rcases exec_codeStep start i s with ⟨v, hok, hstep⟩ | ⟨⟨f, hfail⟩, hpost⟩
  · have hafter : (Registry.ofLegacy start.jurisdiction).after
        ((system start).stepFrom s i :: h) =
          ((Registry.ofLegacy start.jurisdiction).after h).editAll i.call.edits := by
      rw [Registry.after, System.stepFrom_result, hok]
      rfl
    rw [hafter, ← ih]
    cases hstep with
    | edited hadm hs' =>
      rw [hs']
      exact hadm.record_editAll
    | kept hcall hkeys =>
      rw [hcall, hkeys]
      rfl
  · rw [hpost, Registry.after, System.stepFrom_result, hfail]
    exact ih

/-- What the registry answers to `is_permitted_jurisdiction`. -/
def Record.permits (sequence : ℕ) (r : Record) (allowedCodes : List Bytes) :
    Except (Failure Error) Bool :=
  if allowedCodes = [] then .error (.error .emptyAllowedCodes)
  else .ok (decide (∃ code ∈ allowedCodes, code ∈ r.active sequence))

/-- **The reads answer what the registry answers.** Start from any storage in which an address has
nothing but perhaps a legacy code, and make any calls: at every ledger the four reads complete with
the answers of the registry which the completed calls have built up. -/
theorem reads_eq_registry {start : State Address} (hstart : LegacyOnly start)
    (inputs : List (Input Address)) (env : Env Address) (a : Address)
    (allowedCodes : List Bytes) :
    let s := (system start).final inputs
    let r := (Registry.ofLegacy start.jurisdiction).after ((system start).history inputs) a
    ((listJurisdictions env a).commit s).1 = .ok (r.active env.sequence) ∧
    ((getJurisdiction env a).commit s).1 = .ok (r.active env.sequence).head? ∧
    ((isPermittedJurisdiction env a allowedCodes).commit s).1 =
      r.permits env.sequence allowedCodes ∧
    ((isCompliant env a).commit s).1 = .ok (decide (r.active env.sequence ≠ [])) := by
  intro s r
  have hrecord : (s.keys a).record = r := congrFun (record_final hstart inputs) a
  refine ⟨?_, ?_, ?_, ?_⟩
  · rw [Tx.commit_of_ok (listJurisdictions_eq env a s), hrecord]
  · rw [Tx.commit_of_ok (getJurisdiction_eq env a s), hrecord]
  · rw [Record.permits]
    split_ifs with hallowed
    · rw [hallowed, Tx.commit_of_error (isPermittedJurisdiction_nil env a s)]
    · rw [Tx.commit_of_ok (isPermittedJurisdiction_eq env a hallowed s), hrecord]
      refine congrArg Except.ok (Bool.eq_iff_iff.2 ?_)
      simp
  · rw [Tx.commit_of_ok (isCompliant_eq env a s), hrecord]
    refine congrArg Except.ok (Bool.eq_iff_iff.2 ?_)
    rcases r.active env.sequence with _ | ⟨code, codes⟩ <;> simp

/-! ### How codes are stored is not visible -/

/-- The keys with the list stored in full. -/
def Keys.canonical (k : Keys) : Keys :=
  ⟨if k.codes = [] then none else some k.codes, k.codes.head?, k.validUntil⟩

/-- The state with every list stored in full. -/
def State.canonical (s : State Address) : State Address :=
  { s with
    jurisdictions := fun a ↦ (s.keys a).canonical.list
    jurisdiction := fun a ↦ (s.keys a).canonical.legacy }

namespace Keys

@[simp]
theorem codes_canonical (k : Keys) : k.canonical.codes = k.codes := by
  by_cases hcodes : k.codes = []
  · rw [canonical, if_pos hcodes, hcodes]
    rfl
  · rw [canonical, if_neg hcodes]
    rfl

@[simp]
theorem canonical_store (k : Keys) (codes : List Bytes) :
    (k.store codes).canonical = k.store codes := by
  cases codes <;> rfl

@[simp]
theorem store_canonical (k : Keys) (codes : List Bytes) :
    k.canonical.store codes = k.store codes := by
  cases codes <;> rfl

end Keys

omit [DecidableEq Address] in
theorem State.keys_canonical (s : State Address) (a : Address) :
    s.canonical.keys a = (s.keys a).canonical := rfl

omit [DecidableEq Address] in
theorem loadJurisdictions_canonical (s : State Address) (a : Address) :
    loadJurisdictions s.canonical a = loadJurisdictions s a := by
  rw [loadJurisdictions_eq, loadJurisdictions_eq, State.keys_canonical, Keys.codes_canonical]

section Blind

variable (env : Env Address)

omit [DecidableEq Address] in
theorem commutes_publish (e : Event Address) : Tx.Commutes State.canonical (publish e) :=
  Tx.commutes_modify fun _ ↦ rfl

omit [DecidableEq Address] in
/-- A write that does not depend on how codes are stored, and its event. -/
theorem commutes_announce {g : State Address → State Address}
    (hg : ∀ s, g s.canonical = (g s).canonical) (e : Event Address) :
    Tx.Commutes State.canonical (Tx.modify g >>= fun _ ↦ publish e : Op Address Unit) :=
  (Tx.commutes_modify hg).bind fun _ ↦ commutes_publish e

theorem commutes_requireIssuer (issuer : Address) :
    Tx.Commutes State.canonical (requireIssuer env issuer) :=
  commutes_requireStored (f := State.canonical) (fun _ ↦ rfl) env _ _ issuer

theorem commutes_requireComplianceAuthority (caller : Address) :
    Tx.Commutes State.canonical (requireComplianceAuthority env caller) := by
  refine (commutes_requireAuth env caller).bind fun _ ↦
    Tx.commutes_get_bind (fun _ ↦ rfl) fun s ↦ ?_
  exact (Tx.commutes_okOr _ _).bind fun _ ↦ Tx.commutes_ensure _ _

omit [DecidableEq Address] in
theorem commutes_rejectIfPaused :
    Tx.Commutes State.canonical (rejectIfPaused : Op Address Unit) :=
  Tx.commutes_get_bind (fun _ ↦ rfl) fun _ ↦ Tx.commutes_ensure _ _

omit [DecidableEq Address] in
theorem commutes_validateJurisdictionCode (code : Bytes) :
    Tx.Commutes State.canonical (validateJurisdictionCode code : Op Address Unit) :=
  (Tx.commutes_ensure _ _).bind fun _ ↦ Tx.commutes_ensure _ _

/-- Writing keys that are in canonical form already. -/
theorem canonical_write {s : State Address} {a : Address} {k : Keys} (hk : k.canonical = k) :
    (s.write a k).canonical = s.canonical.write a k := by
  have hkeys : ∀ b, ((s.write a k).keys b).canonical =
      Function.update (fun b ↦ (s.keys b).canonical) a k b := by
    intro b
    rw [State.keys_write]
    by_cases hb : b = a
    · subst hb
      simp [hk]
    · simp [hb]
  have hlist : (fun b ↦ ((s.write a k).keys b).canonical.list) =
      Function.update (fun b ↦ (s.keys b).canonical.list) a k.list := by
    funext b
    rw [hkeys]
    by_cases hb : b = a <;> simp [hb]
  have hlegacy : (fun b ↦ ((s.write a k).keys b).canonical.legacy) =
      Function.update (fun b ↦ (s.keys b).canonical.legacy) a k.legacy := by
    funext b
    rw [hkeys]
    by_cases hb : b = a <;> simp [hb]
  rw [State.canonical, hlist, hlegacy]
  rfl

theorem commutes_storeJurisdictions (a : Address) (codes : List Bytes) :
    Tx.Commutes State.canonical (storeJurisdictions a codes : Op Address Unit) := by
  intro s
  have hs : storeJurisdictions a codes s = .ok ((), s.write a ((s.keys a).store codes)) :=
    storeJurisdictions_eq_ok_iff.2 rfl
  have hcanonical : storeJurisdictions a codes s.canonical =
      .ok ((), s.canonical.write a ((s.canonical.keys a).store codes)) :=
    storeJurisdictions_eq_ok_iff.2 rfl
  rw [hs, hcanonical, State.keys_canonical, Keys.store_canonical,
    ← canonical_write (Keys.canonical_store _ _)]
  rfl

theorem commutes_assignCode (a : Address) (code : Bytes) :
    Tx.Commutes State.canonical (assignCode a code) :=
  (commutes_storeJurisdictions a [code]).bind fun _ ↦
    commutes_announce (fun _ ↦ by rfl) _

theorem commutes_clearCodes (a : Address) : Tx.Commutes State.canonical (clearCodes a) :=
  (commutes_storeJurisdictions a []).bind fun _ ↦ commutes_publish _

theorem commutes_addJurisdiction (issuer a : Address) (code : Bytes) :
    Tx.Commutes State.canonical (addJurisdiction env issuer a code) := by
  refine (commutes_requireComplianceAuthority env issuer).bind fun _ ↦
    commutes_rejectIfPaused.bind fun _ ↦ (commutes_validateJurisdictionCode code).bind fun _ ↦
      Tx.commutes_get_bind (fun s ↦ ?_) fun s ↦ ?_
  · dsimp only
    rw [loadJurisdictions_canonical]
  · dsimp only
    split_ifs
    · exact (Tx.commutes_pure ()).bind fun _ ↦ commutes_publish _
    · exact (Tx.commutes_ensure _ _).bind fun _ ↦
        (commutes_storeJurisdictions a _).bind fun _ ↦ commutes_publish _

omit [DecidableEq Address] in
theorem commutes_loadActiveJurisdictions (a : Address) :
    Tx.Commutes State.canonical (loadActiveJurisdictions env a) := by
  refine Tx.commutes_get_bind (fun s ↦ ?_) fun s ↦ ?_
  · simp only [loadJurisdictions_canonical]
    rfl
  · dsimp only
    split_ifs
    · exact Tx.commutes_pure _
    · rcases s.validUntil a with _ | validUntil
      · exact Tx.commutes_pure _
      · dsimp only
        split_ifs
        · exact (commutes_publish _).bind fun _ ↦ Tx.commutes_pure _
        · exact Tx.commutes_pure _

/-- **Every entry point is blind to how codes are stored.** -/
theorem commutes_invoke (call : Call Address) :
    Tx.Commutes State.canonical (invoke env call) := by
  cases call with
  -- the administration reads and writes other slots than the codes
  | initialise issuer =>
    refine Tx.Commutes.bind ?_ fun _ ↦ Tx.commutes_pure _
    exact Tx.commutes_get_bind (fun _ ↦ rfl) fun s ↦ (Tx.commutes_ensure _ _).bind fun _ ↦
      (commutes_requireAuth env issuer).bind fun _ ↦ Tx.commutes_modify fun _ ↦ rfl
  | transferIssuer currentIssuer newIssuer =>
    refine Tx.Commutes.bind ?_ fun _ ↦ Tx.commutes_pure _
    exact (commutes_requireIssuer env _).bind fun _ ↦
      commutes_announce (fun _ ↦ by rfl) _
  | proposeIssuer issuer newIssuer =>
    refine Tx.Commutes.bind ?_ fun _ ↦ Tx.commutes_pure _
    exact (commutes_requireIssuer env _).bind fun _ ↦
      commutes_announce (fun _ ↦ by rfl) _
  | acceptIssuer newIssuer =>
    refine Tx.Commutes.bind ?_ fun _ ↦ Tx.commutes_pure _
    exact (commutes_requireAuth env newIssuer).bind fun _ ↦
      Tx.commutes_get_bind (fun _ ↦ rfl) fun s ↦ (Tx.commutes_okOr _ _).bind fun _ ↦
        (Tx.commutes_ensure _ _).bind fun _ ↦ (Tx.commutes_okOr _ _).bind fun _ ↦
          commutes_announce (fun _ ↦ by rfl) _
  | cancelIssuerProposal issuer =>
    refine Tx.Commutes.bind ?_ fun _ ↦ Tx.commutes_pure _
    exact (commutes_requireIssuer env _).bind fun _ ↦
      commutes_announce (fun _ ↦ by rfl) _
  | setComplianceOfficer issuer officer =>
    refine Tx.Commutes.bind ?_ fun _ ↦ Tx.commutes_pure _
    exact (commutes_requireIssuer env _).bind fun _ ↦ Tx.commutes_modify fun _ ↦ rfl
  | revokeComplianceOfficer issuer =>
    refine Tx.Commutes.bind ?_ fun _ ↦ Tx.commutes_pure _
    exact (commutes_requireIssuer env _).bind fun _ ↦ Tx.commutes_modify fun _ ↦ rfl
  | pause issuer =>
    refine Tx.Commutes.bind ?_ fun _ ↦ Tx.commutes_pure _
    exact (commutes_requireIssuer env _).bind fun _ ↦
      commutes_announce (fun _ ↦ by rfl) _
  | unpause issuer =>
    refine Tx.Commutes.bind ?_ fun _ ↦ Tx.commutes_pure _
    exact (commutes_requireIssuer env _).bind fun _ ↦
      commutes_announce (fun _ ↦ by rfl) _
  | upgrade issuer newWasmHash =>
    refine Tx.Commutes.bind ?_ fun _ ↦ Tx.commutes_pure _
    exact (commutes_requireIssuer env _).bind fun _ ↦ Tx.commutes_modify fun _ ↦ rfl
  -- a write sees the codes through `loadJurisdictions` alone, and stores a whole list
  | setJurisdiction issuer a code =>
    refine Tx.Commutes.bind ?_ fun _ ↦ Tx.commutes_pure _
    exact (commutes_requireComplianceAuthority env issuer).bind fun _ ↦
      commutes_rejectIfPaused.bind fun _ ↦
        (commutes_validateJurisdictionCode code).bind fun _ ↦ commutes_assignCode a code
  | setMultipleJurisdictions caller entries =>
    refine Tx.Commutes.bind ?_ fun _ ↦ Tx.commutes_pure _
    exact (commutes_requireComplianceAuthority env caller).bind fun _ ↦
      commutes_rejectIfPaused.bind fun _ ↦ (Tx.commutes_ensure _ _).bind fun _ ↦
        (Tx.commutes_foldlM (fun _ entry ↦ commutes_validateJurisdictionCode entry.2)
          entries ()).bind fun _ ↦
            Tx.commutes_foldlM (fun _ entry ↦ commutes_assignCode entry.1 entry.2) entries ()
  | setJurisdictionUntil issuer a code validUntil =>
    refine Tx.Commutes.bind ?_ fun _ ↦ Tx.commutes_pure _
    exact (commutes_requireComplianceAuthority env issuer).bind fun _ ↦
      commutes_rejectIfPaused.bind fun _ ↦
        (commutes_validateJurisdictionCode code).bind fun _ ↦
          (Tx.commutes_ensure _ _).bind fun _ ↦
            (commutes_storeJurisdictions a [code]).bind fun _ ↦
              commutes_announce (fun _ ↦ by rfl) _
  | addJurisdiction issuer a code =>
    exact (commutes_addJurisdiction env issuer a code).bind fun _ ↦ Tx.commutes_pure _
  | removeJurisdiction issuer a code =>
    refine Tx.Commutes.bind ?_ fun _ ↦ Tx.commutes_pure _
    exact (commutes_requireIssuer env issuer).bind fun _ ↦ commutes_rejectIfPaused.bind fun _ ↦
      Tx.commutes_get_bind (fun s ↦ by simp only [loadJurisdictions_canonical]) fun s ↦
        (commutes_storeJurisdictions a _).bind fun _ ↦ commutes_publish _
  | removeJurisdictionMultiple issuer addresses =>
    refine Tx.Commutes.bind ?_ fun _ ↦ Tx.commutes_pure _
    exact (commutes_requireIssuer env issuer).bind fun _ ↦ commutes_rejectIfPaused.bind fun _ ↦
      Tx.commutes_foldlM (fun _ a ↦ commutes_clearCodes a) addresses ()
  -- a read may publish that it met expired codes, and is blind to where they were stored
  | listJurisdictions a =>
    exact (commutes_loadActiveJurisdictions env a).bind fun _ ↦ Tx.commutes_pure _
  | getJurisdiction a =>
    exact ((commutes_loadActiveJurisdictions env a).bind fun _ ↦ Tx.commutes_pure _).bind
      fun _ ↦ Tx.commutes_pure _
  | isPermittedJurisdiction a allowedCodes =>
    exact ((Tx.commutes_ensure _ _).bind fun _ ↦
      (commutes_loadActiveJurisdictions env a).bind fun _ ↦ Tx.commutes_pure _).bind
        fun _ ↦ Tx.commutes_pure _
  | isCompliant a =>
    exact (((commutes_loadActiveJurisdictions env a).bind fun _ ↦ Tx.commutes_pure _).bind
      fun _ ↦ Tx.commutes_pure _).bind fun _ ↦ Tx.commutes_pure _

end Blind

/-- Two storages with the same canonical form cannot be told apart: every call is answered alike,
and the same is announced. -/
theorem same_runs_of_canonical_eq {start start' : State Address}
    (h : start.canonical = start'.canonical) (inputs : List (Input Address)) :
    ((system start).history inputs).map Step.result =
        ((system start').history inputs).map Step.result ∧
      ((system start).final inputs).canonical = ((system start').final inputs).canonical := by
  refine System.same_results (M := system start) (N := system start')
    (R := fun s t ↦ s.canonical = t.canonical) h (fun s t i hst ↦ ?_) inputs
  have hs := (commutes_invoke i.env i.call).commit s
  have ht := (commutes_invoke i.env i.call).commit t
  rw [hst, ht] at hs
  exact ⟨(congrArg Prod.fst hs).symm, (congrArg Prod.snd hs).symm⟩

/-- The storage in which an address has the list `[code]`, and whatever legacy code. -/
def State.listed (s : State Address) (a : Address) (code : Bytes) (legacy : Option Bytes) :
    State Address :=
  { s with
    jurisdictions := Function.update s.jurisdictions a (some [code])
    jurisdiction := Function.update s.jurisdiction a legacy }

/-- A legacy code stands for the list of it. -/
theorem canonical_listed {s : State Address} {a : Address} {code : Bytes} (legacy : Option Bytes)
    (hlist : s.jurisdictions a = none) (hcode : s.jurisdiction a = some code) :
    (s.listed a code legacy).canonical = s.canonical := by
  have hkeys : ∀ b, ((s.listed a code legacy).keys b).canonical = (s.keys b).canonical := by
    intro b
    by_cases hb : b = a
    · subst hb
      simp [Keys.canonical, Keys.codes, State.keys, State.listed, hlist, hcode]
    · have hsame : (s.listed a code legacy).keys b = s.keys b := by
        simp [State.keys, State.listed, hb]
      rw [hsame]
  simp only [State.canonical, hkeys]
  rfl

/-- **The contract refines the registry.** Start from any storage in which an address has nothing
but perhaps a legacy code, and make any calls. At every ledger the four reads answer what the
registry answers which the completed calls have built up. And had the code of such an address been
stored as a list from the start, no answer and no event would have been another. -/
theorem refines_registry {start : State Address} (hstart : LegacyOnly start)
    (inputs : List (Input Address)) :
    (∀ (env : Env Address) (a : Address) (allowedCodes : List Bytes),
      let s := (system start).final inputs
      let r := (Registry.ofLegacy start.jurisdiction).after ((system start).history inputs) a
      ((listJurisdictions env a).commit s).1 = .ok (r.active env.sequence) ∧
      ((getJurisdiction env a).commit s).1 = .ok (r.active env.sequence).head? ∧
      ((isPermittedJurisdiction env a allowedCodes).commit s).1 =
        r.permits env.sequence allowedCodes ∧
      ((isCompliant env a).commit s).1 = .ok (decide (r.active env.sequence ≠ []))) ∧
    ∀ (a : Address) (code : Bytes) (legacy : Option Bytes), start.jurisdiction a = some code →
      ((system (start.listed a code legacy)).history inputs).map Step.result =
          ((system start).history inputs).map Step.result ∧
        ((system (start.listed a code legacy)).final inputs).events =
          ((system start).final inputs).events := by
  refine ⟨reads_eq_registry hstart inputs, fun a code legacy hcode ↦ ?_⟩
  have hcanonical := canonical_listed legacy (hstart a).1 hcode
  obtain ⟨hresults, hfinal⟩ := same_runs_of_canonical_eq hcanonical inputs
  have hevents := congrArg State.events hfinal
  exact ⟨hresults, hevents⟩

/-- A host which grants every authorization it is asked for. -/
def grantingHost : Env ℕ where
  sequence := 1
  timestamp := 0
  auths := fun _ ↦ true

/-- A storage with an issuer, and the legacy code `US` of address 1. -/
def earlierStorage : State ℕ :=
  { deploy with
    issuer := some 0
    jurisdiction := fun a ↦ if a = 1 then some [85, 83] else none }

/-- `DE` is added to a legacy `US`: the list is both, in this order. -/
theorem refines_registry_earlierStorage :
    LegacyOnly earlierStorage ∧
      ((listJurisdictions grantingHost 1).commit
        ((system earlierStorage).final [⟨grantingHost, .addJurisdiction 0 1 [68, 69]⟩])).1 =
          .ok [[85, 83], [68, 69]] := by
  have hstart : LegacyOnly earlierStorage := fun _ ↦ ⟨rfl, rfl⟩
  have hreads := (refines_registry hstart [⟨grantingHost, .addJurisdiction 0 1 [68, 69]⟩]).1
    grantingHost 1 []
  exact ⟨hstart, hreads.1.trans (by decide)⟩

end JurisdictionFlag
