import CompliancePrimitives.Contracts.JurisdictionFlag.Refinement
import CompliancePrimitives.Foundation.Handover

/-!
# `jurisdiction-flag`: who can change what

The issuer governs the contract and may take codes away; the compliance officer may write codes.
`RoleStep` sorts what a completed call can do by the role that has to agree to it, and
`officer_contained` is what it comes to over a stretch in which the then current issuer never
authorizes: the issuer role is accepted by whoever is proposed, or stays where it is; the officer
and the pause flag do not change; codes change only with the officer and not during a pause; and
**no address is left without codes** that had some, however many calls the officer makes.
-/

namespace JurisdictionFlag

open Soroban

variable {Address : Type}

/-- The issuer, and the proposed one. -/
def State.roles (s : State Address) : Handover.Roles Address := ⟨s.issuer, s.pendingIssuer⟩

/-- What a call asks of the issuer role. -/
def Call.move : Call Address → Handover.Move Address
  | .initialise issuer => .found issuer
  | .transferIssuer currentIssuer newIssuer => .transfer currentIssuer newIssuer
  | .proposeIssuer issuer newIssuer => .propose issuer newIssuer
  | .acceptIssuer newIssuer => .accept newIssuer
  | .cancelIssuerProposal issuer => .cancel issuer
  | _ => .other

/-- The edits that write a code. -/
def Edit.writesCode : Edit → Bool
  | .assign .. | .add _ => true
  | .remove _ | .clear => false

/-- An edit that writes a code leaves one. -/
theorem Keys.codes_edit_ne_nil {k : Keys} {x : Edit} (hx : x.writesCode = true) :
    (k.edit x).codes ≠ [] := by
  cases x with
  | assign code expiry => exact List.cons_ne_nil _ _
  | add code =>
    rw [Keys.edit]
    split_ifs with hmem
    · exact List.ne_nil_of_mem hmem
    · rw [Keys.codes_store]
      exact List.append_ne_nil_of_right_ne_nil _ (List.cons_ne_nil _ _)
  | remove code => cases hx
  | clear => cases hx

section

variable [DecidableEq Address] {env : Env Address} {s s' : State Address} {call : Call Address}
  {v : Value}

/-- Edits that write codes leave no address without any that had some. -/
theorem State.codes_editAll_ne_nil {edits : List (Address × Edit)}
    (hwrites : ∀ p ∈ edits, p.2.writesCode = true) {a : Address}
    (ha : (s.keys a).codes ≠ []) : ((s.editAll edits).keys a).codes ≠ [] := by
  induction edits generalizing s with
  | nil => exact ha
  | cons p edits ih =>
    obtain ⟨address, x⟩ := p
    rw [List.forall_mem_cons] at hwrites
    refine ih hwrites.2 ?_
    rw [State.keys_edit]
    by_cases heq : a = address
    · subst heq
      rw [Function.update_self]
      exact Keys.codes_edit_ne_nil hwrites.1
    · rwa [Function.update_of_ne heq]

/-- Edits touch the three keys and the events. -/
theorem State.editAll_eq (s : State Address) (edits : List (Address × Edit)) :
    s.editAll edits = { s with jurisdictions := (s.editAll edits).jurisdictions
                               jurisdiction := (s.editAll edits).jurisdiction
                               validUntil := (s.editAll edits).validUntil
                               events := (s.editAll edits).events } := by
  induction edits generalizing s with
  | nil => rfl
  | cons p edits ih =>
    obtain ⟨address, x⟩ := p
    exact ih (s.edit address x)

/-- **What a completed call can do, by who has to agree to it.** -/
inductive RoleStep (env : Env Address) (call : Call Address) (s s' : State Address) : Prop
  /-- The issuer role moves: `initialize`, a proposal, an acceptance. -/
  | handedOver (hmoves : Handover.Moves env.auths call.move s.roles s'.roles)
      (hne : call.move ≠ .other) (hpaused : s.issuer = none ∨ s'.paused = s.paused)
      (hs' : s' = { s with issuer := s'.issuer, pendingIssuer := s'.pendingIssuer,
                           paused := s'.paused, events := s'.events })
  /-- What the issuer alone may do: officer, pause flag and upgrades. -/
  | governed (issuer : Address) (hissuer : s.issuer = some issuer)
      (hauth : env.auths issuer = true) (hmove : call.move = .other)
      (hs' : s' = { s with complianceOfficer := s'.complianceOfficer, paused := s'.paused,
                           pendingUpgrade := s'.pendingUpgrade, events := s'.events })
  /-- Codes are taken away, by the issuer. -/
  | stripped (issuer : Address) (hissuer : s.issuer = some issuer)
      (hauth : env.auths issuer = true) (hmove : call.move = .other)
      (hs' : s' = s.editAll call.edits)
  /-- Codes are written, by the issuer or the officer, while not paused. -/
  | coded (caller : Address) (hauth : env.auths caller = true) (hauthority : HasAuthority s caller)
      (hpaused : s.paused.getD false = false) (hmove : call.move = .other)
      (hwrites : ∀ p ∈ call.edits, p.2.writesCode = true) (hs' : s' = s.editAll call.edits)
  /-- A read may announce that a term has passed. -/
  | read (hmove : call.move = .other) (hs' : s' = { s with events := s'.events })

/-- **Every completed call is one of these.** -/
theorem invoke_roleStep (h : invoke env call s = .ok (v, s')) : RoleStep env call s s' := by
  cases call with
  | initialise issuer =>
    obtain ⟨_, h, -⟩ := Tx.bind_pure_eq_ok_iff.1 h
    obtain ⟨hnone, hauth, rfl⟩ := initialise_eq_ok_iff.1 h
    exact .handedOver (.found hnone hauth) (by simp [Call.move]) (.inl hnone) rfl
  | transferIssuer currentIssuer newIssuer =>
    obtain ⟨_, h, -⟩ := Tx.bind_pure_eq_ok_iff.1 h
    obtain ⟨hauth, hissuer, rfl⟩ := transferIssuer_eq_ok_iff.1 h
    exact .handedOver (.transfer hissuer hauth) (by simp [Call.move]) (.inr rfl) rfl
  | proposeIssuer issuer newIssuer =>
    obtain ⟨_, h, -⟩ := Tx.bind_pure_eq_ok_iff.1 h
    obtain ⟨hauth, hissuer, rfl⟩ := proposeIssuer_eq_ok_iff.1 h
    exact .handedOver (.propose hissuer hauth) (by simp [Call.move]) (.inr rfl) rfl
  | acceptIssuer newIssuer =>
    obtain ⟨_, h, -⟩ := Tx.bind_pure_eq_ok_iff.1 h
    obtain ⟨hauth, hpending, _, hissuer, rfl⟩ := acceptIssuer_eq_ok_iff.1 h
    exact .handedOver (.accept hissuer hpending hauth) (by simp [Call.move]) (.inr rfl) rfl
  | cancelIssuerProposal issuer =>
    obtain ⟨_, h, -⟩ := Tx.bind_pure_eq_ok_iff.1 h
    obtain ⟨hauth, hissuer, rfl⟩ := cancelIssuerProposal_eq_ok_iff.1 h
    exact .handedOver (.cancel hissuer hauth) (by simp [Call.move]) (.inr rfl) rfl
  | setComplianceOfficer issuer officer =>
    obtain ⟨_, h, -⟩ := Tx.bind_pure_eq_ok_iff.1 h
    obtain ⟨hauth, hissuer, rfl⟩ := setComplianceOfficer_eq_ok_iff.1 h
    exact .governed issuer hissuer hauth rfl rfl
  | revokeComplianceOfficer issuer =>
    obtain ⟨_, h, -⟩ := Tx.bind_pure_eq_ok_iff.1 h
    obtain ⟨hauth, hissuer, rfl⟩ := revokeComplianceOfficer_eq_ok_iff.1 h
    exact .governed issuer hissuer hauth rfl rfl
  | pause issuer =>
    obtain ⟨_, h, -⟩ := Tx.bind_pure_eq_ok_iff.1 h
    obtain ⟨hauth, hissuer, rfl⟩ := pause_eq_ok_iff.1 h
    exact .governed issuer hissuer hauth rfl rfl
  | unpause issuer =>
    obtain ⟨_, h, -⟩ := Tx.bind_pure_eq_ok_iff.1 h
    obtain ⟨hauth, hissuer, rfl⟩ := unpause_eq_ok_iff.1 h
    exact .governed issuer hissuer hauth rfl rfl
  | upgrade issuer newWasmHash =>
    obtain ⟨_, h, -⟩ := Tx.bind_pure_eq_ok_iff.1 h
    obtain ⟨hauth, hissuer, rfl⟩ := upgrade_eq_ok_iff.1 h
    exact .governed issuer hissuer hauth rfl rfl
  -- codes are written by either authority, and not during a pause
  | setJurisdiction issuer address code =>
    obtain ⟨_, h, -⟩ := Tx.bind_pure_eq_ok_iff.1 h
    obtain ⟨hauth, hauthority, hpaused, -, rfl⟩ := setJurisdiction_eq_ok_iff.1 h
    exact .coded issuer hauth hauthority hpaused rfl (by simp [Call.edits, Edit.writesCode]) rfl
  | setMultipleJurisdictions caller entries =>
    obtain ⟨_, h, -⟩ := Tx.bind_pure_eq_ok_iff.1 h
    obtain ⟨hauth, hauthority, hpaused, -, -, rfl⟩ := setMultipleJurisdictions_eq_ok_iff.1 h
    refine .coded caller hauth hauthority hpaused rfl (fun p hp ↦ ?_) rfl
    obtain ⟨entry, -, rfl⟩ := List.mem_map.1 hp
    rfl
  | setJurisdictionUntil issuer address code validUntil =>
    obtain ⟨_, h, -⟩ := Tx.bind_pure_eq_ok_iff.1 h
    obtain ⟨hauth, hauthority, hpaused, -, -, rfl⟩ := setJurisdictionUntil_eq_ok_iff.1 h
    exact .coded issuer hauth hauthority hpaused rfl (by simp [Call.edits, Edit.writesCode]) rfl
  | addJurisdiction issuer address code =>
    obtain ⟨_, h, -⟩ := Tx.bind_pure_eq_ok_iff.1 h
    obtain ⟨hauth, hauthority, hpaused, -, rfl⟩ := addJurisdiction_eq_ok_iff.1 h
    exact .coded issuer hauth hauthority hpaused rfl (by simp [Call.edits, Edit.writesCode]) rfl
  | removeJurisdiction issuer address code =>
    obtain ⟨_, h, -⟩ := Tx.bind_pure_eq_ok_iff.1 h
    obtain ⟨hauth, hissuer, -, rfl⟩ := removeJurisdiction_eq_ok_iff.1 h
    exact .stripped issuer hissuer hauth rfl rfl
  | removeJurisdictionMultiple issuer addresses =>
    obtain ⟨_, h, -⟩ := Tx.bind_pure_eq_ok_iff.1 h
    obtain ⟨hauth, hissuer, -, rfl⟩ := removeJurisdictionMultiple_eq_ok_iff.1 h
    exact .stripped issuer hissuer hauth rfl rfl
  | listJurisdictions address =>
    obtain ⟨_, h, -⟩ := Tx.bind_pure_eq_ok_iff.1 h
    obtain ⟨-, rfl⟩ := Prod.mk.inj
      (Except.ok.inj ((listJurisdictions_eq env address s).symm.trans h))
    exact .read rfl rfl
  | getJurisdiction address =>
    obtain ⟨_, h, -⟩ := Tx.bind_pure_eq_ok_iff.1 h
    obtain ⟨-, rfl⟩ := Prod.mk.inj (Except.ok.inj ((getJurisdiction_eq env address s).symm.trans h))
    exact .read rfl rfl
  | isPermittedJurisdiction address allowedCodes =>
    obtain ⟨_, h, -⟩ := Tx.bind_pure_eq_ok_iff.1 h
    by_cases hallowed : allowedCodes = []
    · rw [hallowed, isPermittedJurisdiction_nil] at h
      cases h
    · obtain ⟨-, rfl⟩ := Prod.mk.inj (Except.ok.inj
        ((isPermittedJurisdiction_eq env address hallowed s).symm.trans h))
      exact .read rfl rfl
  | isCompliant address =>
    obtain ⟨_, h, -⟩ := Tx.bind_pure_eq_ok_iff.1 h
    obtain ⟨-, rfl⟩ := Prod.mk.inj (Except.ok.inj ((isCompliant_eq env address s).symm.trans h))
    exact .read rfl rfl

/-- What a completed call does to the issuer role is a move. -/
theorem RoleStep.moves (h : RoleStep env call s s') :
    Handover.Moves env.auths call.move s.roles s'.roles := by
  cases h with
  | handedOver hmoves => exact hmoves
  | governed _ _ _ hmove hs' => exact .of_kept hmove (by rw [hs']; rfl)
  | stripped _ _ _ hmove hs' => exact .of_kept hmove (by rw [hs', State.editAll_eq]; rfl)
  | coded _ _ _ _ hmove _ hs' => exact .of_kept hmove (by rw [hs', State.editAll_eq]; rfl)
  | read hmove hs' => exact .of_kept hmove (by rw [hs']; rfl)

/-! ### Containment -/

/-- The current issuer does not authorize the step. -/
def IssuerWithholds (e : Moment Address) : Prop :=
  ∀ issuer ∈ e.pre.issuer, e.input.env.auths issuer = false

instance (e : Moment Address) : Decidable (IssuerWithholds e) :=
  inferInstanceAs (Decidable (∀ issuer ∈ e.pre.issuer, e.input.env.auths issuer = false))

/-- **The officer keeps to the codes** from `s` to `s'`. -/
structure RolesContained (env : Env Address) (call : Call Address) (s s' : State Address) :
    Prop where
  /-- The issuer role stays, or the proposed issuer takes it over. -/
  issuer : (s'.issuer = s.issuer ∧ s'.pendingIssuer = s.pendingIssuer) ∨
    ∃ newIssuer, call = .acceptIssuer newIssuer ∧ env.auths newIssuer = true ∧
      s.pendingIssuer = some newIssuer ∧ s'.issuer = some newIssuer ∧ s'.pendingIssuer = none
  /-- The officer stays, -/
  complianceOfficer : s'.complianceOfficer = s.complianceOfficer
  /-- and so does the pause flag. -/
  paused : s'.paused = s.paused
  /-- The codes have changed only with the authority of the officer, and not while paused. -/
  keys : s'.keys ≠ s.keys → s.paused.getD false = false ∧
    ∃ officer, s.complianceOfficer = some officer ∧ env.auths officer = true
  /-- An address that had a code still has one. -/
  listed : ∀ a, loadJurisdictions s a ≠ [] → loadJurisdictions s' a ≠ []

omit [DecidableEq Address] in
theorem RolesContained.refl : RolesContained env call s s :=
  ⟨.inl ⟨rfl, rfl⟩, rfl, rfl, fun hne ↦ absurd rfl hne, fun _ ↦ id⟩

omit [DecidableEq Address] in
/-- Whoever was there stays, or is replaced by somebody. -/
theorem RolesContained.isSome_issuer (h : RolesContained env call s s')
    (hissuer : s.issuer.isSome = true) : s'.issuer.isSome = true := by
  rcases h.issuer with ⟨hsame, -⟩ | ⟨_, -, -, -, hpost, -⟩
  · rwa [hsame]
  · rw [hpost]
    rfl

/-- **A completed call without the issuer** is contained. -/
theorem RoleStep.contained {issuer : Address} (h : RoleStep env call s s')
    (hissuer : s.issuer = some issuer) (hauth : env.auths issuer = false) :
    RolesContained env call s s' := by
  have habsurd := Handover.not_authorized hissuer hauth
  cases h with
  -- the only move without the issuer is the acceptance by whoever is proposed
  | handedOver hmoves hne hpaused hs' =>
    have hkeys : s'.keys = s.keys := by rw [hs']; rfl
    have hload : loadJurisdictions s' = loadJurisdictions s := by rw [hs']; rfl
    rcases hmoves.of_unauthorized hissuer hauth with
      ⟨hother, -⟩ | ⟨x, hmove, hpending, hx, hroles⟩
    · exact absurd hother hne
    · have hcall : call = .acceptIssuer x := by
        cases call <;> cases hmove
        rfl
      have hpaused' : s'.paused = s.paused :=
        hpaused.resolve_left fun hnone ↦ by cases hnone.symm.trans hissuer
      refine ⟨.inr ⟨x, hcall, hx, hpending, congrArg Handover.Roles.holder hroles,
        congrArg Handover.Roles.pending hroles⟩, by rw [hs'], hpaused',
        fun hne ↦ absurd hkeys hne, fun a ha ↦ ?_⟩
      rwa [hload]
  | governed a ha hyes => exact (habsurd a ha hyes).elim
  | stripped a ha hyes => exact (habsurd a ha hyes).elim
  -- of the two authorities the officer remains, and its edits never empty a list
  | coded caller hyes hauthority hpaused _ hwrites hs' =>
    obtain ⟨a, ha, hrole⟩ := hauthority
    have hofficer : s.complianceOfficer = some caller := by
      rcases hrole with rfl | hofficer
      · exact (habsurd a ha hyes).elim
      · exact hofficer
    refine ⟨.inl ⟨?_, ?_⟩, ?_, ?_, fun _ ↦ ⟨hpaused, caller, hofficer, hyes⟩, fun b hb ↦ ?_⟩
    · rw [hs', State.editAll_eq]
    · rw [hs', State.editAll_eq]
    · rw [hs', State.editAll_eq]
    · rw [hs', State.editAll_eq]
    · rw [loadJurisdictions_eq] at hb
      rw [hs', loadJurisdictions_eq]
      exact State.codes_editAll_ne_nil hwrites hb
  | read _ hs' =>
    rw [hs']
    exact ⟨.inl ⟨rfl, rfl⟩, rfl, rfl, fun hne ↦ absurd rfl hne, fun _ ↦ id⟩

/-- The same for a step of a run, completed or not. -/
theorem rolesContained_of_withheld {start : State Address} {i : Input Address}
    (hissuer : s.issuer.isSome = true)
    (hwithheld : IssuerWithholds ((system start).stepFrom s i)) :
    RolesContained i.env i.call s ((system start).exec i s).2 := by
  obtain ⟨issuer, hs⟩ := Option.isSome_iff_exists.1 hissuer
  rcases Tx.commit_answer (invoke i.env i.call) s with ⟨_, -, hok⟩ | ⟨-, hpost⟩
  · exact (invoke_roleStep hok).contained hs (hwithheld issuer hs)
  · have hsame : ((system start).exec i s).2 = s := hpost
    rw [hsame]
    exact .refl

/-- **Containment of the officer.** Over every stretch of a run that starts in an initialized state,
from whatever storage the run itself has started, and in which the then current issuer never
authorizes: every step is contained, the officer and the pause flag end as they were, and whoever
had codes at the start has codes at the end. -/
theorem officer_contained (start : State Address) (before during : List (Input Address))
    (hissuer : ((system start).final before).issuer.isSome = true)
    (hwithheld : ∀ e ∈ ((system start).startingAt ((system start).final before)).history during,
      IssuerWithholds e) :
    (∀ e ∈ ((system start).startingAt ((system start).final before)).history during,
        RolesContained e.input.env e.input.call e.pre e.post) ∧
      ((system start).final (during ++ before)).complianceOfficer =
        ((system start).final before).complianceOfficer ∧
      ((system start).final (during ++ before)).paused = ((system start).final before).paused ∧
      ∀ a, loadJurisdictions ((system start).final before) a ≠ [] →
        loadJurisdictions ((system start).final (during ++ before)) a ≠ [] := by
  set s₀ := (system start).final before
  obtain ⟨⟨-, hofficer, hpaused, hlisted⟩, hsteps⟩ := (system start).stretch_induction
    (P := fun t ↦ t.issuer.isSome = true ∧ t.complianceOfficer = s₀.complianceOfficer ∧
      t.paused = s₀.paused ∧ ∀ a, loadJurisdictions s₀ a ≠ [] → loadJurisdictions t a ≠ [])
    ⟨hissuer, rfl, rfl, fun _ ↦ id⟩
    (fun t i ht hi ↦ by
      obtain ⟨hsome, hofficer, hpaused, hlisted⟩ := ht
      have hone := rolesContained_of_withheld hsome hi
      exact ⟨hone.isSome_issuer hsome, hone.complianceOfficer.trans hofficer,
        hone.paused.trans hpaused, fun a ha ↦ hone.listed a (hlisted a ha)⟩)
    hwithheld
  rw [System.final_append]
  refine ⟨fun e he ↦ ?_, hofficer, hpaused, hlisted⟩
  have hsome := (hsteps e he).1
  have hno := hwithheld e he
  rw [System.eq_stepFrom_of_mem_history _ he] at hno ⊢
  exact rolesContained_of_withheld hsome hno

/-- A host on which everybody but account 0 authorizes. -/
def withoutIssuer : Env ℕ where
  sequence := 2
  timestamp := 0
  auths := fun a ↦ decide (a ≠ 0)

/-- Account 0 is the issuer, account 4 the officer, and account 9 has a code. -/
def codedSetup : List (Input ℕ) :=
  [⟨grantingHost, .setJurisdiction 0 9 [85, 83]⟩, ⟨grantingHost, .setComplianceOfficer 0 4⟩,
    ⟨grantingHost, .initialise 0⟩]

/-- The officer replaces the code, and tries to remove it. -/
def officerCalls : List (Input ℕ) :=
  [⟨withoutIssuer, .removeJurisdiction 4 9 [68, 69]⟩,
    ⟨withoutIssuer, .setJurisdiction 4 9 [68, 69]⟩]

theorem officer_contained_officerCalls :
    (∀ e ∈ ((system deploy).startingAt ((system deploy).final codedSetup)).history officerCalls,
        RolesContained e.input.env e.input.call e.pre e.post) ∧
      ((system deploy).final (officerCalls ++ codedSetup)).complianceOfficer =
        ((system deploy).final codedSetup).complianceOfficer ∧
      ((system deploy).final (officerCalls ++ codedSetup)).paused =
        ((system deploy).final codedSetup).paused ∧
      ∀ a, loadJurisdictions ((system deploy).final codedSetup) a ≠ [] →
        loadJurisdictions ((system deploy).final (officerCalls ++ codedSetup)) a ≠ [] :=
  officer_contained deploy codedSetup officerCalls (by decide) (by decide)

end

end JurisdictionFlag
