import CompliancePrimitives.Composition.FailsClosed
import CompliancePrimitives.Consumers.PolicyEngineAudit
import CompliancePrimitives.Contracts.AuditLog.Growth

/-!
# What the record of an audited engine is worth

The entries a `policy-engine-audit` contract has in a log are its completed evaluations, first to
last and each with what it answered (`decisions_on_record`): nothing it answers is missing from the
log, and nobody else can put an entry there under its name. So the log can be read backwards. An
entry of the contract stands for one moment at which its engine was asked, and under `All` it says
`policy_pass` exactly if every breaker was open and both parties passed every check **then**
(`approval_on_record`).

The other contracts of the site go on working, and others write into the same log. Nothing is
claimed about entries under other names.

The reason for both is one step lemma: of the entries under the name of the contract, a step adds to
a log the one of its own answer, and every other step of the site adds none (`exec_growsBy`). It
rests on the guard of `record`, which asks the source it is given for its authorization.
-/

namespace PolicyEngineAudit

open Soroban Composition
open AuditLog (LogEntry GrowsBy growsBy_refl)

variable {Address : Type} [DecidableEq Address]

/-! ### What reaches a log -/

section

variable {self log source subject : Address} {env : Env Address} {kind : Symbol} {detail : Bytes}
  {s s' : Site Address} {u : Unit}

/-- Between two sites, no log got an entry of `self`, and none appeared. -/
def Untouched (self : Address) (s s' : Site Address) : Prop :=
  ∀ log t', s'.logs log = some t' → ∃ t, s.logs log = some t ∧ ∃ new, GrowsBy t t' new ∧
    ∀ entry ∈ new, entry.source ≠ self

omit [DecidableEq Address] in
theorem untouched_of_logs (h : s'.logs = s.logs) : Untouched self s s' := by
  intro log t' ht'
  rw [h] at ht'
  exact ⟨t', ht', [], growsBy_refl, by simp⟩

omit [DecidableEq Address] in
theorem Untouched.after {s₁ : Site Address} (h : Untouched self s₁ s') (hlogs : s₁.logs = s.logs) :
    Untouched self s s' := by
  intro log t' ht'
  obtain ⟨t, ht, hnew⟩ := h log t' ht'
  exact ⟨t, hlogs ▸ ht, hnew⟩

theorem keeps_evaluate (env : Env Address) (engine source target : Address) :
    Tx.Keeps Site.logs (Site.evaluate env engine source target) := by
  intro s a s' h
  obtain ⟨_, _, -, -, rfl⟩ := Tx.within_eq_ok_iff.1 h
  rfl

theorem keeps_isFrozen (env : Env Address) (breaker : Address) :
    Tx.Keeps Site.logs (Site.isFrozen env breaker) := by
  intro s a s' h
  obtain ⟨_, _, -, -, rfl⟩ := Tx.within_eq_ok_iff.1 h
  rfl

/-- A call of one log leaves the others alone. -/
theorem onLog_growsBy {call : AuditLog.Call Address}
    (h : Site.onLog log (AuditLog.invoke env call) s = .ok (u, s')) :
    (∀ entry, (⟨env, call⟩ : AuditLog.Input Address).entry = some entry →
      env.auths entry.source = true) ∧
    ∀ log' t', s'.logs log' = some t' → ∃ t, s.logs log' = some t ∧
      GrowsBy t t' (if log' = log then (⟨env, call⟩ : AuditLog.Input Address).entry.toList
        else []) := by
  obtain ⟨t, t', ht, hinvoke, rfl⟩ := Tx.within_eq_ok_iff.1 h
  have hstep := AuditLog.invoke_logStep hinvoke
  refine ⟨fun entry hentry ↦ hstep.auths hentry, fun log' t'' ht'' ↦ ?_⟩
  by_cases hlog : log' = log
  · subst hlog
    obtain rfl : t' = t'' := by simpa using ht''
    exact ⟨t, ht, by simpa using hstep.growsBy⟩
  · refine ⟨t'', ?_, ?_⟩
    · simpa [hlog] using ht''
    · rw [if_neg hlog]
      exact growsBy_refl

/-- A call of a log that does not come from `self` adds no entry of it. -/
theorem untouched_of_onLog {call : AuditLog.Call Address}
    (h : Site.onLog log (AuditLog.invoke (env.outside self) call) s = .ok (u, s')) :
    Untouched self s s' := by
  obtain ⟨hauth, hgrows⟩ := onLog_growsBy h
  intro log' t' ht'
  obtain ⟨t, ht, hnew⟩ := hgrows log' t' ht'
  refine ⟨t, ht, _, hnew, fun entry hentry hself ↦ ?_⟩
  split_ifs at hentry
  · have hgranted := hauth entry (Option.mem_toList.1 hentry)
    rw [hself, Env.auths_outside] at hgranted
    cases hgranted
  · cases hentry

theorem untouched_of_record
    (h : Site.record (env.outside self) log source kind subject detail s = .ok (u, s')) :
    Untouched self s s' := by
  have hcall : Site.onLog log
      (AuditLog.invoke (env.outside self) (.record source kind subject detail)) s = .ok (u, s') := h
  exact untouched_of_onLog hcall

/-- **What does not come from `self` adds no entry of `self` to any log.** -/
theorem untouched_operate (ext : AllowlistToken.Externals Address) (op : SiteOperation Address) :
    Untouched self s (s.operate self ext op) := by
  cases op with
  -- a primitive has no log to write to
  | world op => exact untouched_of_logs rfl
  | engine contract i =>
    refine Tx.commit_induction (P := Untouched self s) (untouched_of_logs rfl) fun _ s' h ↦ ?_
    obtain ⟨_, _, -, -, rfl⟩ := Tx.within_eq_ok_iff.1 h
    exact untouched_of_logs rfl
  | evaluate env contract source target =>
    exact untouched_of_logs ((keeps_evaluate env contract source target).commit s)
  | log contract i =>
    exact Tx.commit_induction (P := Untouched self s) (untouched_of_logs rfl)
      fun _ _ h ↦ untouched_of_onLog h
  | executeTransfer env policyEngine circuitBreaker auditLog auditSource source target =>
    refine Tx.commit_induction (P := Untouched self s) (untouched_of_logs rfl) fun v s' h ↦ ?_
    -- the flow records under a name that has to authorize it, halted or not
    rcases ComplianceIntegrationFlow.executeTransfer_eq_ok_iff.1 h with
      ⟨s₁, hfrozen, hrecord, -⟩ | ⟨s₁, passed, s₂, hfrozen, hevaluate, hrecord, -⟩
    · exact (untouched_of_record hrecord).after (keeps_isFrozen _ _ hfrozen)
    · exact (untouched_of_record hrecord).after
        ((keeps_evaluate _ _ _ _ hevaluate).trans (keeps_isFrozen _ _ hfrozen))

/-! ### What the contract itself adds -/

/-- The entry that records an answer. -/
def entryFor (self : Address) (env : Env Address) (source : Address) (passed : Bool) :
    LogEntry Address where
  source := self
  kind := PolicyEngineAudit.kind passed
  subject := source
  detail := PolicyEngineAudit.detail passed
  ledger := env.sequence

/-- **When an evaluation is answered**: the engine the contract is wired to answers it, and the log
takes the record. -/
theorem evaluateAndLog_eq_ok_iff {target : Address} {passed : Bool}
    {p p' : State Address × Site Address} :
    evaluateAndLog self env source target p = .ok (passed, p') ↔
      p'.1 = p.1 ∧ ∃ engine log s, p.1.policyEngine = some engine ∧ p.1.auditLog = some log ∧
        Site.evaluate env engine source target p.2 = .ok (passed, s) ∧
        Site.record (env.invokedBy self) log self (PolicyEngineAudit.kind passed) source
          (PolicyEngineAudit.detail passed) s = .ok ((), p'.2) := by
  simp only [evaluateAndLog, Tx.bind_eq_ok_iff, Tx.onFst_eq_ok_iff, Tx.get_eq_ok_iff,
    Tx.okOr_eq_ok_iff, Tx.onSnd_eq_ok_iff, Tx.call_eq_ok_iff, Tx.pure_eq_ok_iff]
  constructor
  · rintro ⟨_, p₁, ⟨⟨rfl, h₁⟩, hsnd₁⟩, engine, p₂, ⟨hengine, rfl⟩, log, p₃, ⟨hlog, rfl⟩, passed',
      p₄, ⟨hevaluate, h₄⟩, _, p₅, ⟨hrecord, h₅⟩, rfl, rfl⟩
    rw [hsnd₁] at hevaluate
    exact ⟨h₅.trans (h₄.trans h₁), engine, log, p₄.2, hengine, hlog, hevaluate, hrecord⟩
  · rintro ⟨hfst, engine, log, s, hengine, hlog, hevaluate, hrecord⟩
    exact ⟨p.1, p, ⟨⟨rfl, rfl⟩, rfl⟩, engine, p, ⟨hengine, rfl⟩, log, p, ⟨hlog, rfl⟩, passed,
      (p.1, s), ⟨hevaluate, rfl⟩, (), p', ⟨hrecord, hfst⟩, rfl, rfl⟩

/-- An answered evaluation adds its entry to the log the contract is wired to, and no other entry to
any log. -/
theorem evaluateAndLog_growsBy {target : Address} {passed : Bool}
    {p p' : State Address × Site Address}
    (h : evaluateAndLog self env source target p = .ok (passed, p')) {t' : AuditLog.State Address}
    (ht' : p'.2.logs log = some t') :
    ∃ t, p.2.logs log = some t ∧ GrowsBy t t'
      (if p.1.auditLog = some log then [entryFor self env source passed] else []) := by
  obtain ⟨-, engine, log', s, -, hlog', hevaluate, hrecord⟩ := evaluateAndLog_eq_ok_iff.1 h
  have hcall : Site.onLog log' (AuditLog.invoke (env.invokedBy self)
    (.record self (PolicyEngineAudit.kind passed) source (PolicyEngineAudit.detail passed))) s =
      .ok ((), p'.2) := hrecord
  obtain ⟨t, ht, hgrows⟩ := (onLog_growsBy hcall).2 log t' ht'
  refine ⟨t, ?_, ?_⟩
  · rw [← ht, keeps_evaluate _ _ _ _ hevaluate]
  · rw [hlog']
    by_cases hlog : log = log'
    · subst hlog
      rw [if_pos rfl] at hgrows ⊢
      exact hgrows
    · rw [if_neg hlog] at hgrows
      rwa [if_neg fun h ↦ hlog (Option.some.inj h).symm]

end

/-! ### Runs -/

/-- One step of a run. -/
abbrev Moment (Address : Type) :=
  Step (State Address × Site Address) (Input Address) (Option Bool)

/-- The entry that a step's answer makes in a log: none if it answers nothing, or if the contract is
wired to another log. -/
def decision (self log : Address) (e : Moment Address) : Option (LogEntry Address) :=
  match e.input, e.result with
  | .evaluateAndLog env source _, some passed =>
    if e.pre.1.auditLog = some log then some (entryFor self env source passed) else none
  | _, _ => none

/-- **What the contract answered**, first to last, while it was wired to a log. -/
def decisions (self log : Address) (h : List (Moment Address)) : List (LogEntry Address) :=
  h.reverse.filterMap (decision self log)

theorem decisions_cons (self log : Address) (e : Moment Address) (h : List (Moment Address)) :
    decisions self log (e :: h) = decisions self log h ++ (decision self log e).toList := by
  rw [decisions, List.reverse_cons, List.filterMap_append]
  cases hdecision : decision self log e <;> simp [decisions, hdecision]

variable {self : Address} {ext : AllowlistToken.Externals Address} {start : Site Address}

/-- An evaluation completes with its answer, or leaves everything as it was. -/
theorem exec_evaluateAndLog (self : Address) (ext : AllowlistToken.Externals Address)
    (start : Site Address) (p : State Address × Site Address) (env : Env Address)
    (source target : Address) :
    (∃ passed, evaluateAndLog self env source target p =
        .ok (passed, ((system self ext start).exec (.evaluateAndLog env source target) p).2) ∧
      ((system self ext start).exec (.evaluateAndLog env source target) p).1 = some passed) ∨
      (system self ext start).exec (.evaluateAndLog env source target) p = (none, p) := by
  rcases Tx.commit_cases (evaluateAndLog self env source target) p with
    ⟨passed, p', hrun, hcommit⟩ | ⟨f, -, hcommit⟩
  · have hexec : (system self ext start).exec (.evaluateAndLog env source target) p =
        (some passed, p') := by
      simp [system, hcommit, Except.toOption]
    rw [hexec]
    exact .inl ⟨passed, hrun, rfl⟩
  · refine .inr ?_
    simp [system, hcommit, Except.toOption]

/-- **Of the entries under its name, a step adds to a log the one of its answer.** -/
theorem exec_growsBy (self : Address) (ext : AllowlistToken.Externals Address)
    (start : Site Address) (p : State Address × Site Address) (i : Input Address) {log : Address}
    {t' : AuditLog.State Address}
    (ht' : ((system self ext start).exec i p).2.2.logs log = some t') :
    ∃ t, p.2.logs log = some t ∧ ∃ new, GrowsBy t t' new ∧
      (new.filter fun entry ↦ entry.source = self) =
        (decision self log ((system self ext start).stepFrom p i)).toList := by
  cases i with
  | initialise policyEngine auditLog => exact ⟨t', ht', [], growsBy_refl, rfl⟩
  | elsewhere op =>
    obtain ⟨t, ht, new, hgrows, hother⟩ := untouched_operate ext op log t' ht'
    exact ⟨t, ht, new, hgrows, List.filter_eq_nil_iff.2 fun entry hentry ↦ by
      simpa using hother entry hentry⟩
  | evaluateAndLog env source target =>
    rcases exec_evaluateAndLog self ext start p env source target with
      ⟨passed, hrun, hanswer⟩ | hexec
    · obtain ⟨t, ht, hgrows⟩ := evaluateAndLog_growsBy hrun ht'
      refine ⟨t, ht, _, hgrows, ?_⟩
      rw [decision, System.stepFrom, hanswer]
      dsimp only
      split_ifs
      · simp [entryFor]
      · rfl
    -- it has not completed: nothing is answered, and nothing is on record
    · rw [hexec] at ht'
      refine ⟨t', ht', [], growsBy_refl, ?_⟩
      rw [decision, System.stepFrom, hexec]
      rfl

/-- A log's entries under the contract's name are the answers so far. -/
theorem stands_decisions (self : Address) (ext : AllowlistToken.Externals Address)
    (start : Site Address) (hfresh : ∀ log t, start.logs log = some t → t = AuditLog.deploy)
    (inputs : List (Input Address)) {log : Address} {t : AuditLog.State Address}
    (ht : ((system self ext start).final inputs).2.logs log = some t) :
    ∃ l, AuditLog.Stands t l ∧ (l.filter fun entry ↦ entry.source = self) =
      decisions self log ((system self ext start).history inputs) := by
  induction inputs generalizing t with
  | nil =>
    rw [hfresh log t ht]
    exact ⟨[], AuditLog.stands_deploy, rfl⟩
  | cons i inputs ih =>
    obtain ⟨t₀, ht₀, new, hgrows, hnew⟩ := exec_growsBy self ext start _ i ht
    obtain ⟨l, hl, hold⟩ := ih ht₀
    refine ⟨l ++ new, hgrows l hl, ?_⟩
    rw [List.filter_append, hold, hnew, System.history_cons, decisions_cons]

/-- **What is on record is what was answered.** Under the contract's name, a log holds the answers
it gave while wired to that log, all of them and in their order. -/
theorem decisions_on_record (self : Address) (ext : AllowlistToken.Externals Address)
    (start : Site Address) (hfresh : ∀ log t, start.logs log = some t → t = AuditLog.deploy)
    (inputs : List (Input Address)) {log : Address} {t : AuditLog.State Address}
    (ht : ((system self ext start).final inputs).2.logs log = some t) :
    ((AuditLog.trail t).filter fun entry ↦ entry.source = self) =
      decisions self log ((system self ext start).history inputs) := by
  obtain ⟨l, hl, hdecisions⟩ := stands_decisions self ext start hfresh inputs ht
  rw [hl.trail_eq, hdecisions]

/-- An engine at 5, a log at 6 and a denylist gate at 1, none of them initialized. -/
def freshSite : Site ℕ where
  engines contract := if contract = 5 then some (PolicyEngine.deploy 0) else none
  logs contract := if contract = 6 then some AuditLog.deploy else none
  world contract := if contract = 1 then some (.denylistGate DenylistGate.deploy) else none

/-- The contracts' answers to questions nobody asks here. -/
def noExternals : AllowlistToken.Externals ℕ where
  addressString _ := ""
  verifySig _ _ _ := false
  complianceAuthority _ _ _ := false
  lookupEnding := id

/-- Everyone authorizes, at ledger 90. -/
def grantingAll : Env ℕ := ⟨90, 0, fun _ ↦ true⟩

/-- Someone tries to record under the name of the contract at 20; then it evaluates, with one check
of the gate. -/
def forgeryAndEvaluation : List (Input ℕ) :=
  [.evaluateAndLog grantingAll 10 11,
    .elsewhere (.log 6 ⟨grantingAll, .record 20 "policy_pass" 12 []⟩),
    .initialise 5 6,
    .elsewhere (.log 6 ⟨grantingAll, .initialise 9⟩),
    .elsewhere (.engine 5 ⟨grantingAll, .addCheck 9 (.denylist 1)⟩),
    .elsewhere (.engine 5 ⟨grantingAll, .initialise 9 .all none⟩)]

theorem freshSite_logs {log : ℕ} {t : AuditLog.State ℕ} (h : freshSite.logs log = some t) :
    t = AuditLog.deploy := by
  simp only [freshSite] at h
  split_ifs at h
  exact (Option.some.inj h).symm

/-- The forgery is not on record. -/
theorem decisions_on_record_forgery :
    ∃ t, ((system 20 noExternals freshSite).final forgeryAndEvaluation).2.logs 6 = some t ∧
      ((AuditLog.trail t).filter fun entry ↦ entry.source = 20) =
        [entryFor 20 grantingAll 10 true] := by
  obtain ⟨t, ht⟩ :
      ∃ t, ((system 20 noExternals freshSite).final forgeryAndEvaluation).2.logs 6 = some t :=
    ⟨_, rfl⟩
  exact ⟨t, ht, (decisions_on_record 20 noExternals freshSite (fun _ _ ↦ freshSite_logs)
    forgeryAndEvaluation ht).trans (by decide +kernel)⟩

/-! ### What an entry says -/

theorem kind_eq_pass_iff {passed : Bool} :
    PolicyEngineAudit.kind passed = "policy_pass" ↔ passed = true := by
  cases passed <;> decide

/-- An engine under `All` answers `true` exactly if all its checks pass. -/
theorem answer_iff {env : Env Address} {engine source target : Address} {s s' : Site Address}
    {passed : Bool} (h : Site.evaluate env engine source target s = .ok (passed, s')) :
    ∃ p, s.engines engine = some p ∧ ∀ checks, p.checks = some checks →
      p.combineOp = some .all →
        (passed = true ↔ (∀ b, p.circuitBreaker = some b → BreakerOpen s.world b) ∧
          ∀ check ∈ checks, PassesBoth env.sequence s.world source target check) := by
  obtain ⟨⟨p, w⟩, q, hp, hrun, -⟩ := Tx.within_eq_ok_iff.1 h
  obtain ⟨p, hengine, hpair⟩ := Option.map_eq_some_iff.1 hp
  obtain ⟨rfl, rfl⟩ := Prod.mk.inj hpair
  refine ⟨p, hengine, fun checks hchecks hop ↦ ?_⟩
  have hcloses := failsClosed_evaluate env s.world source target hchecks hop
  rw [Tx.FailsClosed, hrun] at hcloses
  exact hcloses.2

/-- An answer comes from the engine the contract is wired to, in the state of that moment. -/
theorem evaluated_of_decision {log : Address} {p : State Address × Site Address}
    {i : Input Address} {entry : LogEntry Address}
    (h : decision self log ((system self ext start).stepFrom p i) = some entry) :
    ∃ env source target engine passed s', i = .evaluateAndLog env source target ∧
      ((system self ext start).exec i p).1 = some passed ∧
        entry = entryFor self env source passed ∧ p.1.policyEngine = some engine ∧
          Site.evaluate env engine source target p.2 = .ok (passed, s') := by
  cases i with
  | initialise policyEngine auditLog => cases h
  | elsewhere op => cases h
  | evaluateAndLog env source target =>
    rcases exec_evaluateAndLog self ext start p env source target with
      ⟨passed, hrun, hanswer⟩ | hexec
    · obtain ⟨-, engine, log', s, hengine, -, hevaluate, -⟩ := evaluateAndLog_eq_ok_iff.1 hrun
      rw [decision, System.stepFrom, hanswer] at h
      dsimp only at h
      split_ifs at h
      exact ⟨env, source, target, engine, passed, s, rfl, hanswer, (Option.some.inj h).symm,
        hengine, hevaluate⟩
    · rw [decision, System.stepFrom, hexec] at h
      cases h

/-- **What an entry on record proves.** An entry under the contract's name is the record of one
completed evaluation, about the entry's subject and at its ledger, and its kind is what the caller
was answered. If the engine that was asked combines its checks with `All`, the answer was
`policy_pass` exactly if every breaker was open and both parties passed every check at that
moment. -/
theorem approval_on_record (self : Address) (ext : AllowlistToken.Externals Address)
    (start : Site Address) (hfresh : ∀ log t, start.logs log = some t → t = AuditLog.deploy)
    (inputs : List (Input Address)) {log : Address} {t : AuditLog.State Address}
    (ht : ((system self ext start).final inputs).2.logs log = some t) {entry : LogEntry Address}
    (hmem : entry ∈ AuditLog.trail t) (hsource : entry.source = self) :
    ∃ e ∈ (system self ext start).history inputs, decision self log e = some entry ∧
      ∃ env target passed engine p, e.input = .evaluateAndLog env entry.subject target ∧
        e.result = some passed ∧ entry.kind = PolicyEngineAudit.kind passed ∧
          entry.ledger = env.sequence ∧ e.pre.1.policyEngine = some engine ∧
            e.pre.2.engines engine = some p ∧
              ∀ checks, p.checks = some checks → p.combineOp = some .all →
                (entry.kind = "policy_pass" ↔
                  (∀ b, p.circuitBreaker = some b → BreakerOpen e.pre.2.world b) ∧
                    ∀ check ∈ checks,
                      PassesBoth env.sequence e.pre.2.world entry.subject target check) := by
  have hrecorded : entry ∈ decisions self log ((system self ext start).history inputs) := by
    obtain ⟨l, hl, hdecisions⟩ := stands_decisions self ext start hfresh inputs ht
    rw [← hdecisions, ← hl.trail_eq]
    exact List.mem_filter.2 ⟨hmem, by simpa using hsource⟩
  obtain ⟨e, he, hdecision⟩ := List.mem_filterMap.1 hrecorded
  have hhistory := List.mem_reverse.1 he
  obtain ⟨before, hstep, -⟩ := System.exists_of_mem_history _ hhistory
  have hpre : (system self ext start).final before = e.pre := by rw [hstep]; rfl
  have hresult : ((system self ext start).exec e.input e.pre).1 = e.result := by
    rw [← hpre, hstep]
    rfl
  refine ⟨e, hhistory, hdecision, ?_⟩
  rw [hstep, hpre] at hdecision
  obtain ⟨env, source, target, engine, passed, s', hinput, hpassed, rfl, hengine, hevaluate⟩ :=
    evaluated_of_decision hdecision
  obtain ⟨p, hp, hiff⟩ := answer_iff hevaluate
  exact ⟨env, target, passed, engine, p, hinput, hresult.symm.trans hpassed, rfl, rfl, hengine, hp,
    fun checks hchecks hop ↦ kind_eq_pass_iff.trans (hiff checks hchecks hop)⟩

/-- The entry about 10 was made by the evaluation, of a policy with one check, and it is a
`policy_pass` exactly as the gate cleared 10 and 11 then. -/
theorem approval_on_record_forgery :
    ∃ e ∈ (system 20 noExternals freshSite).history forgeryAndEvaluation,
      decision 20 6 e = some (entryFor 20 grantingAll 10 true) ∧ e.result = some true ∧
        ∃ env target p, e.input = .evaluateAndLog env 10 target ∧
          e.pre.2.engines 5 = some p ∧ p.checks = some [.denylist 1] ∧
            ((entryFor 20 grantingAll 10 true).kind = "policy_pass" ↔
              (∀ b, p.circuitBreaker = some b → BreakerOpen e.pre.2.world b) ∧
                ∀ check ∈ [.denylist 1],
                  PassesBoth env.sequence e.pre.2.world 10 target check) := by
  obtain ⟨t, ht, hmem⟩ :
      ∃ t, ((system 20 noExternals freshSite).final forgeryAndEvaluation).2.logs 6 = some t ∧
        entryFor 20 grantingAll 10 true ∈ AuditLog.trail t :=
    ⟨_, rfl, by decide +kernel⟩
  obtain ⟨e, he, hdecision, env, target, passed, engine, p, hinput, hresult, hkind, -, hengine, hp,
      hiff⟩ :=
    approval_on_record 20 noExternals freshSite (fun _ _ ↦ freshSite_logs) forgeryAndEvaluation ht
      hmem rfl
  obtain rfl : passed = true := kind_eq_pass_iff.1 hkind.symm
  -- only the last step evaluates
  obtain rfl : e = (system 20 noExternals freshSite).stepFrom
      ((system 20 noExternals freshSite).final forgeryAndEvaluation.tail)
      (.evaluateAndLog grantingAll 10 11) := by
    rcases List.mem_cons.1 he with rfl | he
    · rfl
    · have hothers : ∀ e ∈ (system 20 noExternals freshSite).history forgeryAndEvaluation.tail,
          e.input ≠ .evaluateAndLog env 10 target := by
        simp [forgeryAndEvaluation]
      exact absurd hinput (hothers e he)
  obtain rfl : 5 = engine := Option.some.inj hengine
  obtain ⟨hchecks, hop⟩ : p.checks = some [.denylist 1] ∧ p.combineOp = some .all := by
    rw [← Option.some.inj hp]
    exact ⟨rfl, rfl⟩
  exact ⟨_, he, hdecision, hresult, env, target, p, hinput, hp, hchecks, hiff _ hchecks hop⟩

end PolicyEngineAudit
