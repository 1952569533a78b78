import CompliancePrimitives.Composition.AllowlistTable
import CompliancePrimitives.Composition.AuditTable
import CompliancePrimitives.Composition.DenylistTable
import CompliancePrimitives.Composition.JurisdictionTable
import CompliancePrimitives.Indexer.ProcessRuns

/-!
# What the indexer knows at a checkpoint

The contracts, the chain and the indexer in one statement. Contracts run; the chain has what they
publish, each event in the ledger it was published in (`Recorded`); and a process indexes the chain
from a ledger on in which none of the contracts had been called, through failures, stops and
restarts.

Whenever no poll is in flight, the tables are those of the contracts **as they were at the end of
the ledger of the checkpoint** (`tables_asOf_checkpoint`): the contracts may have gone on, and the
indexer may have heard of later ledgers, but nothing of them shows, and nothing before is missing.

What the tables lose is what they lose of events delivered in one go: the expiry of an entry of the
allowlist, which is not announced; every code of an account but its first, and that too after a call
that drifts; and of the log the entries of an empty kind and the details that are no text.
-/

open Indexer Indexer.ComplianceDb Soroban

namespace Composition

/-! ### The events of a run, on the chain and in the database -/

section

variable {σ ι ρ ε ν : Type} {M : System σ ι ρ} {events : σ → List ε} {clock : ι → ℕ}
  {published : ε → Published} {chain : Chain} {contractId : String} {contractIds : List String}
  {first ledger : ℕ} {is : List ι}

/-- **The chain has the events of a contract's run**, each in its ledger, and no others of it. -/
structure Recorded (chain : Chain) (contractId : String) (first : ℕ) (M : System σ ι ρ)
    (events : σ → List ε) (clock : ι → ℕ) (published : ε → Published) (is : List ι) : Prop where
  /-- The ledgers of the calls do not fall. -/
  chronological : Chronological clock is
  /-- No call was made before the first ledger that is indexed. -/
  born : ∀ i ∈ is, first ≤ clock i
  /-- The events of the contract on the chain are those of the run, in order. -/
  delivered : List.Forall₂ (DeliversAt published)
    (chain.events.filter fun raw ↦ decide (raw.contractId = contractId))
    (announced events clock (M.history is))

/-- The watched events of some ledgers. -/
def span (chain : Chain) (contractIds : List String) (first ledger : ℕ) : List RawSorobanEvent :=
  (chain.watched contractIds).filter fun raw ↦ decide (first ≤ raw.ledger ∧ raw.ledger ≤ ledger)

/-- What is indexed is the events of a span, in one batch. -/
theorem indexed_eq_applyBatches :
    chain.indexed contractIds first ledger =
      (fresh.applyBatches [span chain contractIds first ledger]).setLastIndexedLedger ledger :=
  rfl

/-- **The events of a span are those of the run through its last ledger.** -/
theorem Recorded.delivered_span (h : Recorded chain contractId first M events clock published is)
    (hid : contractId ∈ contractIds) :
    List.Forall₂ (DeliversAt published)
      ([span chain contractIds first ledger].flatten.filter fun raw ↦
        decide (raw.contractId = contractId))
      (announced events clock (M.history (runThrough clock ledger is))) := by
  have hspan : [span chain contractIds first ledger].flatten.filter
      (fun raw ↦ decide (raw.contractId = contractId)) =
        (chain.events.filter fun raw ↦ decide (raw.contractId = contractId)).filter
          fun raw ↦ decide (first ≤ raw.ledger ∧ raw.ledger ≤ ledger) := by
    rw [List.flatten_singleton, span, Chain.watched, List.filter_filter, List.filter_filter,
      List.filter_filter]
    refine List.filter_congr fun raw _ ↦ ?_
    by_cases hraw : raw.contractId = contractId <;> simp [hraw, hid]
  -- no event is from before the span
  have hborn : (announced events clock (M.history is)).filter
      (fun a ↦ decide (first ≤ a.2 ∧ a.2 ≤ ledger)) =
        (announced events clock (M.history is)).filter fun a ↦ decide (a.2 ≤ ledger) := by
    refine List.filter_congr fun a ha ↦ ?_
    obtain ⟨i, hi, hdate⟩ := exists_of_mem_announced ha
    simp [hdate, h.born i hi]
  rw [hspan, ← announced_through h.chronological, ← hborn]
  refine List.rel_filter (fun raw a hraw ↦ ?_) h.delivered
  simp [hraw.ledger_eq]

theorem Recorded.carries (h : Recorded chain contractId first M events clock published is)
    (hid : contractId ∈ contractIds) (hgrows : M.Announces events) (hstart : events M.start = []) :
    Carries contractId [span chain contractIds first ledger]
      ((events (M.final (runThrough clock ledger is))).map published) := by
  rw [← map_fst_announced hgrows hstart clock, List.map_map, Carries,
    List.forall₂_map_right_iff]
  exact (h.delivered_span hid).imp fun _ _ hraw ↦ hraw.delivers

/-- **The rows of a contract mirror its state at the end of a ledger**, if they follow its
events. -/
theorem Recorded.mirrors (h : Recorded chain contractId first M events clock published is)
    (hid : contractId ∈ contractIds) (hgrows : M.Announces events) (hstart : events M.start = [])
    {write : ε → Option (Write ScAddress ν)} {rows : ComplianceDb → String → Option ν}
    {view : ScAddress → Option ν}
    (hskip : ∀ db raw, raw.contractId ≠ contractId → rows (applyRaw db raw) = rows db)
    (hwrite : ∀ db raw, raw.contractId = contractId →
      ∀ e ∈ events (M.final (runThrough clock ledger is)), Delivers raw (published e) →
        rows (applyRaw db raw) = (write e).elim (rows db) fun w ↦
          Function.update (rows db) (rendered w.key) w.value)
    (hempty : ∀ x, rows fresh x = none)
    (hmade : MadeBy write view (events (M.final (runThrough clock ledger is)))) :
    Mirrors rendered (rows (fresh.applyBatches [span chain contractIds first ledger])) view := by
  rw [hmade]
  exact mirrors_applyBatches hskip hwrite (h.carries hid hgrows hstart) hempty

end

/-! ### Four contracts -/

section

variable {Address : Type} [DecidableEq Address]

theorem announces_allowlistToken (ext : AllowlistToken.Externals Address) :
    (AllowlistToken.system ext).Announces AllowlistToken.State.events := by
  intro s i
  rcases AllowlistToken.exec_roleStep ext i s with ⟨-, hstep⟩ | ⟨-, hpost⟩
  · cases hstep with
    | handedOver _ _ _ hquiet _ | governed _ _ _ _ _ _ hquiet _ | blocked _ _ _ _ hquiet _ =>
      obtain ⟨events, hevents, -⟩ := hquiet
      exact ⟨events, hevents.symm⟩
    | granted _ _ _ _ _ _ _ _ hs' | revoked _ _ _ _ _ _ hs' | delegated _ _ _ hs' =>
      rw [hs']
      exact List.prefix_append _ _
    | forwarded _ _ _ _ _ hs' =>
      rw [hs']
  · rw [hpost]

omit [DecidableEq Address] in
/-- What the audit call announces comes on top. -/
theorem prefix_audited (env : DenylistGate.Env Address) (kind : Symbol) (subject : Address)
    (detail : String) (s : DenylistGate.State Address) :
    s.events <+: (DenylistGate.audited env kind subject detail s).events := by
  unfold DenylistGate.audited
  split
  · exact List.prefix_rfl
  · dsimp only
    split_ifs
    · exact List.prefix_rfl
    · exact List.prefix_append _ _

theorem announces_denylistGate :
    (DenylistGate.system : System (DenylistGate.State Address) _ _).Announces
      DenylistGate.State.events := by
  intro s i
  rcases DenylistGate.exec_denylistStep i s with hstep | ⟨-, hpost⟩
  · cases hstep with
    | kept _ _ events hevents => exact ⟨events, hevents.symm⟩
    | added _ _ _ hs' | removed _ _ _ hs' =>
      rw [hs']
      refine List.IsPrefix.trans ?_ (prefix_audited _ _ _ _ _)
      exact List.prefix_append _ _
    | removedAll _ _ _ _ _ _ _ hs' =>
      rw [hs']
      exact List.prefix_append _ _
  · rw [hpost]

theorem announces_jurisdictionFlag :
    (JurisdictionFlag.system JurisdictionFlag.deploy :
      System (JurisdictionFlag.State Address) _ _).Announces JurisdictionFlag.State.events := by
  intro s i
  rcases JurisdictionFlag.exec_codeStep JurisdictionFlag.deploy i s with ⟨_, -, hstep⟩ | ⟨-, hpost⟩
  · cases hstep with
    | edited _ hs' =>
      rw [hs', JurisdictionFlag.State.events_editAll]
      exact List.prefix_append _ _
    | kept _ _ events hevents => exact ⟨events, hevents.symm⟩
  · rw [hpost]

end

/-- The calls of four contracts, latest first. -/
structure Deployment where
  /-- Those of an `allowlist-token`. -/
  allowlist : List (AllowlistToken.Input ScAddress)
  /-- Those of a `denylist-gate`. -/
  denylist : List (DenylistGate.Input ScAddress)
  /-- Those of a `jurisdiction-flag`. -/
  jurisdictions : List (JurisdictionFlag.Input ScAddress)
  /-- Those of an `audit-log`. -/
  auditLog : List (AuditLog.Input ScAddress)

namespace Deployment

variable (ext : AllowlistToken.Externals ScAddress) (d : Deployment) (ledger : ℕ)

/-- The calls through a ledger. -/
def through : Deployment where
  allowlist := runThrough (fun i ↦ i.env.sequence) ledger d.allowlist
  denylist := runThrough (fun i ↦ i.env.sequence) ledger d.denylist
  jurisdictions := runThrough (fun i ↦ i.env.sequence) ledger d.jurisdictions
  auditLog := runThrough (fun i ↦ i.env.sequence) ledger d.auditLog

/-- **The chain of a deployment**: it has the events of the contracts that are configured, called
from the first ledger to be indexed on. -/
structure RecordedOn (chain : Chain) (config : Config) : Prop where
  /-- The events of the allowlist, if it is configured. -/
  allowlist : config.allowlistContractId ≠ "" →
    Recorded chain config.allowlistContractId config.startLedger (AllowlistToken.system ext)
      AllowlistToken.State.events (fun i ↦ i.env.sequence) AllowlistToken.Event.published
      d.allowlist
  /-- The events of the denylist gate. -/
  denylist : config.denylistContractId ≠ "" →
    Recorded chain config.denylistContractId config.startLedger DenylistGate.system
      DenylistGate.State.events (fun i ↦ i.env.sequence) DenylistGate.Event.published d.denylist
  /-- The events of the jurisdiction flag. -/
  jurisdictions : config.jurisdictionContractId ≠ "" →
    Recorded chain config.jurisdictionContractId config.startLedger
      (JurisdictionFlag.system JurisdictionFlag.deploy) JurisdictionFlag.State.events
      (fun i ↦ i.env.sequence) JurisdictionFlag.Event.published d.jurisdictions
  /-- The events of the audit log. -/
  auditLog : config.auditLogContractId ≠ "" →
    Recorded chain config.auditLogContractId config.startLedger AuditLog.system
      AuditLog.State.events (fun i ↦ i.env.sequence) AuditLog.Event.published d.auditLog

/-- **The tables say what the contracts hold** after these calls. -/
structure Shown (config : Config) (db : ComplianceDb) : Prop where
  /-- The allowlist has the accounts that have an entry, without their expiry. -/
  allowlist : config.allowlistContractId ≠ "" →
    Mirrors rendered (allowlistOf config.allowlistContractId db)
      ((AllowlistToken.system ext).final d.allowlist).allowlist
  /-- The denylist has the accounts that are denied. -/
  denylist : config.denylistContractId ≠ "" →
    Mirrors rendered (denylistOf config.denylistContractId db)
      (DenylistGate.system.final d.denylist).denylist
  /-- The jurisdictions have the first code of an account, unless a call made them drift. -/
  jurisdictions : config.jurisdictionContractId ≠ "" →
    (∀ e ∈ (JurisdictionFlag.system JurisdictionFlag.deploy).history d.jurisdictions,
      ¬JurisdictionFlag.Drifts e.input e.pre) →
    Mirrors rendered (jurisdictionsOf config.jurisdictionContractId db)
      ((JurisdictionFlag.system JurisdictionFlag.deploy).final d.jurisdictions).heads
  /-- The log has the records of the entries that have a kind, if it can hold their texts. -/
  auditLog : config.auditLogContractId ≠ "" →
    (∀ entry ∈ AuditLog.trail (AuditLog.system.final d.auditLog), AuditLog.Storable entry.kind) →
    (∀ entry ∈ AuditLog.trail (AuditLog.system.final d.auditLog),
      ∃ text, AuditLog.Storable text ∧ entry.detail = Encoding.utf8 text) →
    List.Forall₂ AuditLog.Records
      (db.auditLog.filter fun row ↦ row.contractId = config.auditLogContractId)
      ((AuditLog.trail (AuditLog.system.final d.auditLog)).filter fun entry ↦ entry.kind ≠ "")

variable {ext d ledger} {chain : Chain} {config : Config} {db : ComplianceDb}

/-- The checkpoint is in no table. -/
theorem Shown.set (h : d.Shown ext config db) :
    d.Shown ext config (db.setLastIndexedLedger ledger) :=
  ⟨h.allowlist, h.denylist, h.jurisdictions, h.auditLog⟩

/-- A contract that is configured is watched. -/
theorem mem_contractIds {id : String} (h : id ∈ [config.allowlistContractId,
    config.denylistContractId, config.jurisdictionContractId, config.auditLogContractId])
    (hne : id ≠ "") : id ∈ config.contractIds := by
  refine List.mem_filter.2 ⟨?_, by simpa using hne⟩
  simp only [List.mem_cons, List.not_mem_nil, or_false] at h ⊢
  tauto

/-- **What is indexed through a ledger is what the contracts held at its end.** -/
theorem RecordedOn.shown (h : d.RecordedOn ext chain config) (ledger : ℕ) :
    (d.through ledger).Shown ext config
      (fresh.applyBatches [Composition.span chain config.contractIds config.startLedger ledger])
    where
  -- each table mirrors the log of one contract, and the others leave it alone
  allowlist hid := (h.allowlist hid).mirrors (mem_contractIds (by simp) hid)
    (announces_allowlistToken ext) rfl
    (fun _ _ hraw ↦ (sameRows_applyRaw_of_ne hraw).allowlist_eq)
    (fun _ _ hraw _ _ hdelivers ↦ AllowlistToken.allowlistOf_applyRaw hraw hdelivers)
    (fun _ ↦ rfl) (AllowlistToken.allowlist_final ext _)
  denylist hid := (h.denylist hid).mirrors (mem_contractIds (by simp) hid)
    announces_denylistGate rfl
    (fun _ _ hraw ↦ (sameRows_applyRaw_of_ne hraw).denylist_eq)
    (fun _ _ hraw _ _ hdelivers ↦ DenylistGate.denylistOf_applyRaw hraw hdelivers)
    (fun _ ↦ rfl) (DenylistGate.denylist_final _)
  jurisdictions hid hno := (h.jurisdictions hid).mirrors (mem_contractIds (by simp) hid)
    announces_jurisdictionFlag rfl
    (fun _ _ hraw ↦ (sameRows_applyRaw_of_ne hraw).jurisdictions_eq)
    (fun _ _ hraw e he hdelivers ↦ JurisdictionFlag.jurisdictionsOf_applyRaw hraw
      (JurisdictionFlag.proper_final _ e he) hdelivers)
    (fun _ ↦ rfl)
    ((JurisdictionFlag.madeBy_final_iff _).2 hno _ (List.suffix_refl _))
  -- the audit log is no map: its rows are the entries themselves, in order
  auditLog hid hkinds hdetails := by
    refine AuditLog.forall₂_records
      (fun entry hentry ↦ hdetails entry (List.mem_filter.1 hentry).1) ?_
    rw [AuditLog.trail_eq_recorded] at hkinds ⊢
    obtain ⟨hpublished, hlengths⟩ := AuditLog.recorded_eq_published (d.through ledger).auditLog
    have hwatched : config.auditLogContractId ∈ config.contractIds :=
      mem_contractIds (by simp) hid
    rw [hpublished] at hkinds hlengths ⊢
    exact AuditLog.auditRows_applyBatches ((h.auditLog hid).delivered_span hwatched)
      (fun row hrow ↦ absurd hrow List.not_mem_nil)
      fun entry hentry ↦ ⟨(hkinds entry hentry).legible, hlengths entry hentry⟩

/-- **The tables at a checkpoint.** In a run of the process without polls side by side, falling
horizons and polls caught between their pages, whenever no poll is in flight the tables of the
indexer say what the contracts held at the end of the ledger of its checkpoint. -/
theorem tables_asOf_checkpoint (ext : AllowlistToken.Externals ScAddress) (d : Deployment)
    (config : Config) (chain : Chain) (inputs : List Occurrence) (hstart : 0 < config.startLedger)
    (hrecorded : d.RecordedOn ext chain config)
    (hrestart : ∀ o ∈ inputs, ∀ c, o.happening = .restart c →
      c.contractIds = config.contractIds ∧ c.startLedger = config.startLedger)
    (hsteps : ∀ e ∈ (process config chain).history inputs, Alone e ∧ Unbroken e)
    (hidle : ((process config chain).final inputs).flights = []) :
    (d.through ((process config chain).final inputs).db.getLastIndexedLedger).Shown ext config
      ((process config chain).final inputs).db := by
  have hsound := sound_final config chain True
    (fun c ↦ c.contractIds = config.contractIds ∧ c.startLedger = config.startLedger) inputs
    ⟨rfl, rfl⟩ hrestart fun e he ↦ ⟨(hsteps e he).1, fun _ ↦ (hsteps e he).2⟩
  cases hsound with
  | flying _ h => cases h.flights.symm.trans hidle
  | idle hpolls _ hdb =>
    rw [hdb]
    -- nothing is indexed yet, or everything from the first ledger through the checkpoint
    rcases hpolls.indexed hstart fun _ hc ↦ hc with hfresh | ⟨ledger, -, hindexed⟩
    · have hnone : span chain config.contractIds config.startLedger 0 = [] :=
        List.filter_eq_nil_iff.2 fun raw _ ↦ by
          simpa using fun h : config.startLedger ≤ raw.ledger ↦ (hstart.trans_le h).ne'
      have hshown := hrecorded.shown 0
      rw [hnone] at hshown
      rw [hfresh]
      exact hshown
    · rw [hindexed, indexed_eq_applyBatches]
      exact (hrecorded.shown _).set

/-! ### An allowlist between an addition and a removal -/

/-- A host that grants everything, in some ledger. -/
def hostAt (ledger : ℕ) : AllowlistToken.Env ScAddress where
  sequence := ledger
  timestamp := 0
  auths := fun _ ↦ true
  tokenAnswer := fun _ ↦ true

/-- An account is allowed in ledger 4, and no longer in ledger 8. -/
def allowedForAWhile : Deployment where
  allowlist :=
    [⟨hostAt 8, .removeFromAllowlist someContract someAccount⟩,
      ⟨hostAt 4, .addToAllowlist someContract someAccount none⟩,
      ⟨hostAt 3, .initialise someContract someContract⟩]
  denylist := []
  jurisdictions := []
  auditLog := []

/-- The two events. -/
def allowanceChain : Chain where
  events :=
    [{ delivery "CALLOW" 4 (AllowlistToken.Event.allowAdd someAccount).published with
        pagingToken := 1 },
      { delivery "CALLOW" 8 (AllowlistToken.Event.allowRemove someAccount).published with
        pagingToken := 2 }]
  ordered := by simp [PagedLog.Ordered, delivery]
  tokens := by decide

/-- An indexer of the allowlist alone. -/
def allowlistConfig : Config :=
  { breakerConfig with allowlistContractId := "CALLOW", circuitBreakerContractId := "" }

/-- One poll, after a failure, while the network is at ledger 6. -/
def pollAtSix : List Occurrence :=
  [⟨50, .answer 0 (some 6)⟩, ⟨40, .answer 0 (some 6)⟩, ⟨30, .timeout 1⟩, ⟨20, .answer 0 none⟩,
    ⟨10, .start⟩]

theorem recordedOn_allowanceChain :
    allowedForAWhile.RecordedOn AllowlistToken.officerExternals allowanceChain allowlistConfig where
  allowlist _ := by
    refine ⟨by decide, by decide, ?_⟩
    have hannounced : announced AllowlistToken.State.events (fun i ↦ i.env.sequence)
        ((AllowlistToken.system AllowlistToken.officerExternals).history
          allowedForAWhile.allowlist) =
        [(.allowAdd someAccount, 4), (.allowRemove someAccount, 8)] := by
      rfl
    rw [hannounced]
    exact .cons ⟨⟨rfl, rfl⟩, rfl⟩ (.cons ⟨⟨rfl, rfl⟩, rfl⟩ .nil)
  denylist hid := absurd rfl hid
  jurisdictions hid := absurd rfl hid
  auditLog hid := absurd rfl hid

/-- At the checkpoint the account is still allowed. -/
theorem tables_asOf_checkpoint_pollAtSix :
    allowlistOf "CALLOW" ((process allowlistConfig allowanceChain).final pollAtSix).db
      (rendered someAccount) = some () := by
  have hshown := tables_asOf_checkpoint AllowlistToken.officerExternals allowedForAWhile
    allowlistConfig allowanceChain pollAtSix (by decide) recordedOn_allowanceChain
    (by simp [pollAtSix]) (by decide +kernel) (by decide +kernel)
  refine ((hshown.allowlist (by decide)).table_name rendered_injective someAccount).trans ?_
  have hcheckpoint : ((process allowlistConfig allowanceChain).final
      pollAtSix).db.getLastIndexedLedger = 6 := by
    decide +kernel
  rw [hcheckpoint]
  rfl

end Deployment

end Composition
