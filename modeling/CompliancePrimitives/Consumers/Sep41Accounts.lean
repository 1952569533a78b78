import CompliancePrimitives.Consumers.Sep41GatedToken

/-!
# What a call of the SEP-41 token does

A completed call was authorized by one account, books an entry in the balances, and sets or debits
one allowance at most. `Effect` says all of it at once, and `invoke_effect` is the only place where
the entry points are gone through.

The effect is stated for a call that completed. A call that fails has none: it is taken back by the
transaction it runs in, and what follows for runs (`Sep41Runs`) treats the two cases apart once and
for all.

Of an effect, the entry in the balances is what the supply rests on; the line about allowances is
what a spender can take; and that a payer **has** what it pays is what keeps an account that
authorizes nothing from losing anything. The gate plays no part here, as it decides only whether
there is an effect.
-/

namespace Sep41GatedToken

open Soroban Bookkeeping
open PolicyEngine (Callees)
open GatedToken (balance holdings setBalance settle settled settledTotal)

variable {Address σ τ : Type}

/-! ### What a call is about -/

/-- Who has to authorize a call. -/
def Call.caller : Call Address → Address
  | .initialise config => config.admin
  | .mint admin _ _ => admin
  | .approve owner _ _ _ => owner
  | .transfer source _ _ => source
  | .transferFrom spender _ _ _ => spender
  | .burn source _ => source
  | .burnFrom spender _ _ => spender

/-- The amount a call names. -/
def Call.amount : Call Address → ℤ
  | .initialise _ => 0
  | .mint _ _ amount => amount
  | .approve _ _ amount _ => amount
  | .transfer _ _ amount => amount
  | .transferFrom _ _ _ amount => amount
  | .burn _ amount => amount
  | .burnFrom _ _ amount => amount

/-- The account a call takes from. -/
def Call.payer : Call Address → Option Address
  | .transfer source _ _ => some source
  | .transferFrom _ source _ _ => some source
  | .burn source _ => some source
  | .burnFrom _ source _ => some source
  | _ => none

/-- The owner and the spender of the allowance a call takes from. -/
def Call.drawn : Call Address → Option (Address × Address)
  | .transferFrom spender source _ _ => some (source, spender)
  | .burnFrom spender source _ => some (source, spender)
  | _ => none

/-- The owner and the spender of the allowance a call sets. -/
def Call.approved : Call Address → Option (Address × Address)
  | .approve owner spender _ _ => some (owner, spender)
  | _ => none

/-- An allowance as an integer. -/
def allowed (s : State Address) (owner spender : Address) : ℤ := allowance s owner spender

variable [DecidableEq Address]

/-- What a completed call adds to the accounts. -/
noncomputable def Call.entry : Call Address → Address →₀ ℤ
  | .initialise _ => 0
  | .mint _ target amount => Finsupp.single target (amount : ℤ)
  | .approve _ _ _ _ => 0
  | .transfer source target amount => settled source target amount
  | .transferFrom _ source target amount => settled source target amount
  | .burn source amount => Finsupp.single source (-amount : ℤ)
  | .burnFrom _ source amount => Finsupp.single source (-amount : ℤ)

/-- The amount a completed call creates, a burn creating a negative one. -/
def Call.created : Call Address → ℤ
  | .initialise _ => 0
  | .mint _ _ amount => amount
  | .approve _ _ _ _ => 0
  | .transfer source target amount => settledTotal source target amount
  | .transferFrom _ source target amount => settledTotal source target amount
  | .burn _ amount => -amount
  | .burnFrom _ _ amount => -amount

theorem degree_entry (call : Call Address) : call.entry.degree = call.created := by
  cases call with
  | initialise config => exact map_zero _
  | mint admin target amount => exact Finsupp.degree_single _ _
  | approve owner spender amount expirationLedger => exact map_zero _
  | transfer source target amount => exact GatedToken.degree_settled
  | transferFrom spender source target amount => exact GatedToken.degree_settled
  | burn source amount => exact Finsupp.degree_single _ _
  | burnFrom spender source amount => exact Finsupp.degree_single _ _

/-- What a completed call takes from an allowance. -/
def Call.drawnFrom (owner spender : Address) (call : Call Address) : ℤ :=
  if call.drawn = some (owner, spender) then call.amount else 0

/-! ### When a call completes -/

section

variable {env : Env Address} {callees : Callees Address σ} {source target owner spender : Address}
  {amount : I128} {s s' : State Address} {p p' : State Address × σ} {u : Unit}

omit [DecidableEq Address] in
theorem onToken_eq_ok_iff {α : Type} {a : α}
    {x : Tx Error (GatedToken.State (Config Address) Address) α} :
    onToken x s = .ok (a, s') ↔ x s.token = .ok (a, s'.token) ∧
      s'.allowances = s.allowances ∧ s'.events = s.events := by
  rw [onToken, Tx.within_eq_ok_iff]
  constructor
  · rintro ⟨_, t', hread, hx, rfl⟩
    cases hread
    exact ⟨hx, rfl, rfl⟩
  · rintro ⟨hx, hallowances, hevents⟩
    refine ⟨s.token, s'.token, rfl, hx, ?_⟩
    cases s'
    simp_all

theorem setAllowance_eq_ok_iff : setAllowance owner spender amount s = .ok (u, s') ↔
    s' = { s with
      allowances := Function.update s.allowances owner
        (Function.update (s.allowances owner) spender (some amount)) } :=
  Tx.modify_eq_ok_iff

/-- An allowance that is set is the one set; the others stay. -/
theorem allowed_update (owner' spender' : Address) :
    allowed { s with
      allowances := Function.update s.allowances owner
        (Function.update (s.allowances owner) spender (some amount)) } owner' spender' =
      if (owner, spender) = (owner', spender') then (amount : ℤ)
      else allowed s owner' spender' := by
  rw [allowed, allowed, allowance, allowance]
  by_cases howner : owner' = owner
  · subst howner
    by_cases hspender : spender' = spender
    · subst hspender
      simp
    · simp [hspender, Ne.symm hspender]
  · simp [howner, Ne.symm howner]

theorem spend_eq_ok_iff : spend owner spender amount s = .ok (u, s') ↔
    (amount : ℤ) ≤ allowed s owner spender ∧ ∃ left : I128,
      (left : ℤ) = allowed s owner spender - amount ∧
        setAllowance owner spender left s = .ok ((), s') := by
  simp only [spend, Tx.bind_eq_ok_iff, Tx.get_eq_ok_iff, Tx.ensure_eq_ok_iff,
    I128.sub_eq_ok_iff, and_assoc, exists_and_left, exists_eq_left, exists_const, not_lt, allowed]

theorem destroy_eq_ok_iff : destroy owner amount s = .ok (u, s') ↔
    (amount : ℤ) ≤ holdings s.token owner ∧ ∃ left : I128,
      (left : ℤ) = holdings s.token owner - amount ∧
        onToken (setBalance owner left) s = .ok ((), s') := by
  simp only [destroy, onToken_eq_ok_iff, Tx.bind_eq_ok_iff, Tx.get_eq_ok_iff,
    Tx.ensure_eq_ok_iff, I128.sub_eq_ok_iff, and_assoc, exists_and_left, exists_eq_left,
    exists_const, not_lt, holdings]
  tauto

omit [DecidableEq Address] in
/-- The gate is asked, and nothing of the token changes. -/
theorem gateCheck_eq_ok_iff : gateCheck callees source target p = .ok (u, p') ↔
    p'.1 = p.1 ∧ ∃ config, p.1.token.wiring = some config ∧
      Tx.both (fun a ↦ Tx.call (callees.check config.gate a)) source target p.2 =
        (.ok (true, p'.2) : Except (Failure Error) (Bool × σ)) := by
  simp only [gateCheck, Tx.bind_eq_ok_iff, Tx.onFst_eq_ok_iff, Tx.get_eq_ok_iff,
    Tx.okOr_eq_ok_iff, Tx.onSnd_eq_ok_iff]
  constructor
  · rintro ⟨_, p₁, ⟨⟨rfl, h₁⟩, hsnd⟩, config, p₂, ⟨hconfig, rfl⟩, cleared, p₃, ⟨hboth, h₃⟩, hend⟩
    cases cleared with
    | true =>
      obtain ⟨-, rfl⟩ := Tx.pure_eq_ok_iff.1 hend
      exact ⟨h₃.trans h₁, config, hconfig, hsnd ▸ hboth⟩
    | false =>
      simp only [Bool.false_eq_true, ↓reduceIte, Tx.bind_eq_ok_iff, Tx.fail_eq_ok_iff,
        exists_false, and_false] at hend
  · rintro ⟨hfst, config, hconfig, hboth⟩
    exact ⟨p.1, p, ⟨⟨rfl, rfl⟩, rfl⟩, config, p, ⟨hconfig, rfl⟩, true, p', ⟨hboth, hfst⟩, rfl⟩

/-- The end of a transfer: the accounts are settled, and nothing else changes. -/
theorem doTransfer_effect (h : doTransfer source target amount s = .ok (u, s')) :
    (amount : ℤ) ≤ holdings s.token source ∧
      (∀ a, holdings s'.token a = holdings s.token a + settled source target amount a) ∧
      s'.allowances = s.allowances ∧ s'.token.wiring = s.token.wiring := by
  obtain ⟨hsettle, hallowances, -⟩ := onToken_eq_ok_iff.1 h
  obtain ⟨hfunded, left, sum, -, -, hs⟩ := GatedToken.settle_eq_ok_iff.1 hsettle
  refine ⟨hfunded, GatedToken.holdings_settle hsettle, hallowances, ?_⟩
  rw [hs]

/-- A burn: the account is debited, and nothing else changes. -/
theorem destroy_effect (h : destroy source amount s = .ok (u, s')) :
    (amount : ℤ) ≤ holdings s.token source ∧
      (∀ a, holdings s'.token a =
        holdings s.token a + Finsupp.single source (-amount : ℤ) a) ∧
      s'.allowances = s.allowances ∧ s'.token.wiring = s.token.wiring := by
  obtain ⟨hfunded, left, hleft, hset⟩ := destroy_eq_ok_iff.1 h
  obtain ⟨hwrite, hallowances, -⟩ := onToken_eq_ok_iff.1 hset
  have hs := Tx.modify_eq_ok_iff.1 hwrite
  refine ⟨hfunded, fun a ↦ ?_, hallowances, by rw [hs]⟩
  rw [hs, GatedToken.holdings_update]
  split_ifs with ha
  · rw [ha, Finsupp.single_eq_same, hleft, sub_eq_add_neg]
  · rw [Finsupp.single_eq_of_ne ha, add_zero]

/-- A spender's allowance is debited, and nothing else changes. -/
theorem spend_effect (h : spend owner spender amount s = .ok (u, s')) :
    (amount : ℤ) ≤ allowed s owner spender ∧ s'.token = s.token ∧
      ∀ owner' spender', allowed s' owner' spender' = allowed s owner' spender' -
        if (owner, spender) = (owner', spender') then (amount : ℤ) else 0 := by
  obtain ⟨hwithin, left, hleft, hset⟩ := spend_eq_ok_iff.1 h
  rw [setAllowance_eq_ok_iff.1 hset]
  refine ⟨hwithin, rfl, fun owner' spender' ↦ ?_⟩
  rw [allowed_update]
  split_ifs with hpair
  · cases hpair
    exact hleft
  · rw [sub_zero]

/-- What a completed call does. -/
structure Effect (env : Env Address) (call : Call Address) (s s' : State Address) : Prop where
  /-- The caller has authorized it: the admin, the owner or the spender. -/
  authorized : env.auths call.caller = true
  /-- Each balance changes by the entry of the call. -/
  booked : ∀ a, holdings s'.token a = holdings s.token a + call.entry a
  /-- Who pays has the amount. -/
  funded : ∀ a, call.payer = some a → call.amount ≤ holdings s.token a
  /-- An `approve` sets its allowance, and a draw lowers the one it draws on. -/
  allowances : ∀ owner spender, allowed s' owner spender =
    if call.approved = some (owner, spender) then call.amount
    else allowed s owner spender - call.drawnFrom owner spender
  /-- A draw stays within the allowance. -/
  within : ∀ owner spender, call.drawn = some (owner, spender) →
    call.amount ≤ allowed s owner spender
  /-- The wiring, once written, is not written again. -/
  wiring : ∀ config, s.token.wiring = some config → s'.token.wiring = some config

omit [DecidableEq Address] in
theorem allowed_congr (h : s'.allowances = s.allowances) (owner spender : Address) :
    allowed s' owner spender = allowed s owner spender := by
  rw [allowed, allowed, allowance, allowance, h]

/-- A call that neither approves nor draws leaves the allowances alone. -/
theorem allowances_kept {call : Call Address} (happroved : call.approved = none)
    (hdrawn : call.drawn = none) (h : s'.allowances = s.allowances) (owner spender : Address) :
    allowed s' owner spender = if call.approved = some (owner, spender) then call.amount
      else allowed s owner spender - call.drawnFrom owner spender := by
  rw [happroved, if_neg (Option.some_ne_none _).symm, Call.drawnFrom, hdrawn,
    if_neg (Option.some_ne_none _).symm, sub_zero, allowed_congr h]

/-- A call that draws debits the allowance it draws from. -/
theorem allowances_drawn {call : Call Address} (happroved : call.approved = none)
    (hdrawn : call.drawn = some (owner, spender))
    (h : ∀ owner' spender', allowed s' owner' spender' = allowed s owner' spender' -
      if (owner, spender) = (owner', spender') then call.amount else 0)
    (owner' spender' : Address) :
    allowed s' owner' spender' = if call.approved = some (owner', spender') then call.amount
      else allowed s owner' spender' - call.drawnFrom owner' spender' := by
  rw [happroved, if_neg (Option.some_ne_none _).symm, Call.drawnFrom, hdrawn, h]
  simp only [Option.some.injEq]

/-- **What a completed call does.** -/
theorem invoke_effect {call : Call Address} (h : invoke callees env call p = .ok (u, p')) :
    Effect env call p.1 p'.1 := by
  cases call with
  -- set-up: no entry, no allowance, and the wiring was not there before
  | initialise config =>
    have hrun := (Tx.onFst_eq_ok_iff.1 h).1
    simp only [initialise, Tx.bind_eq_ok_iff, Tx.get_eq_ok_iff, Tx.ensure_eq_ok_iff,
      requireAuth_eq_ok_iff, Tx.modify_eq_ok_iff, and_assoc, exists_and_left, exists_eq_left,
      exists_const] at hrun
    obtain ⟨hnone, hauth, hs⟩ := hrun
    refine ⟨hauth, fun a ↦ ?_, fun a hpayer ↦ (by cases hpayer),
      allowances_kept rfl rfl (by rw [hs]), fun _ _ hdrawn ↦ (by cases hdrawn),
      fun config' hconfig ↦ ?_⟩
    · rw [hs, Call.entry, Finsupp.zero_apply, add_zero]
      rfl
    · rw [hconfig] at hnone
      cases hnone
  | mint admin target amount =>
    have hrun := (Tx.onFst_eq_ok_iff.1 h).1
    simp only [mint, requireAdmin, Tx.bind_eq_ok_iff, requireStored_eq_ok_iff, and_assoc,
      exists_and_left, exists_eq_left, exists_const] at hrun
    obtain ⟨hauth, hadmin, hmint⟩ := hrun
    obtain ⟨hmint, hallowances, -⟩ := onToken_eq_ok_iff.1 hmint
    obtain ⟨sum, -, hs⟩ := GatedToken.mint_eq_ok_iff.1 hmint
    exact ⟨hauth, GatedToken.holdings_mint hmint, fun a hpayer ↦ (by cases hpayer),
      allowances_kept rfl rfl hallowances, fun _ _ hdrawn ↦ (by cases hdrawn),
      fun config hconfig ↦ by rw [hs, ← hconfig]⟩
  -- the only call that sets an allowance, whatever was left of the one before
  | approve owner spender amount expirationLedger =>
    have hrun := (Tx.onFst_eq_ok_iff.1 h).1
    simp only [approve, Tx.bind_eq_ok_iff, requireAuth_eq_ok_iff, setAllowance_eq_ok_iff,
      and_assoc, exists_and_left, exists_eq_left, exists_const] at hrun
    obtain ⟨hauth, hs⟩ := hrun
    refine ⟨hauth, fun a ↦ ?_, fun a hpayer ↦ (by cases hpayer), fun owner' spender' ↦ ?_,
      fun _ _ hdrawn ↦ (by cases hdrawn), fun config hconfig ↦ by rw [hs, ← hconfig]⟩
    · rw [hs, Call.entry, Finsupp.zero_apply, add_zero]
    · rw [hs, allowed_update]
      simp [Call.approved, Call.amount, Call.drawnFrom, Call.drawn]
  -- the gate is asked first; what it may write is not the token's
  | transfer source target amount =>
    simp only [invoke, transfer, Tx.bind_eq_ok_iff, requireAuth_eq_ok_iff, and_assoc,
      exists_and_left, exists_eq_left, exists_const] at h
    obtain ⟨hauth, _, p₁, hgate, hend⟩ := h
    obtain ⟨hfunded, hbooked, hallowances, hwiring⟩ :=
      doTransfer_effect (Tx.onFst_eq_ok_iff.1 hend).1
    rw [(gateCheck_eq_ok_iff.1 hgate).1] at hfunded hbooked hallowances hwiring
    refine ⟨hauth, hbooked, ?_, allowances_kept rfl rfl hallowances,
      fun _ _ hdrawn ↦ (by cases hdrawn), fun config hconfig ↦ hwiring.trans hconfig⟩
    rintro _ ⟨⟩
    exact hfunded
  -- the allowance is charged before the balances are touched, in the same transaction
  | transferFrom spender source target amount =>
    simp only [invoke, transferFrom, Tx.bind_eq_ok_iff, requireAuth_eq_ok_iff, and_assoc,
      exists_and_left, exists_eq_left, exists_const] at h
    obtain ⟨hauth, _, p₁, hgate, _, p₂, hspend, hend⟩ := h
    obtain ⟨hwithin, htoken, hallowed⟩ := spend_effect (Tx.onFst_eq_ok_iff.1 hspend).1
    obtain ⟨hfunded, hbooked, hallowances, hwiring⟩ :=
      doTransfer_effect (Tx.onFst_eq_ok_iff.1 hend).1
    rw [(gateCheck_eq_ok_iff.1 hgate).1] at hwithin htoken hallowed
    rw [htoken] at hfunded hbooked hwiring
    refine ⟨hauth, hbooked, ?_,
      allowances_drawn rfl rfl fun _ _ ↦ (allowed_congr hallowances _ _).trans (hallowed _ _), ?_,
      fun config hconfig ↦ hwiring.trans hconfig⟩
    · rintro _ ⟨⟩
      exact hfunded
    · rintro _ _ ⟨⟩
      exact hwithin
  -- no gate is asked for a burn
  | burn source amount =>
    have hrun := (Tx.onFst_eq_ok_iff.1 h).1
    simp only [burn, Tx.bind_eq_ok_iff, requireAuth_eq_ok_iff, and_assoc, exists_and_left,
      exists_eq_left, exists_const] at hrun
    obtain ⟨hauth, hdestroy⟩ := hrun
    obtain ⟨hfunded, hbooked, hallowances, hwiring⟩ := destroy_effect hdestroy
    refine ⟨hauth, hbooked, ?_, allowances_kept rfl rfl hallowances,
      fun _ _ hdrawn ↦ (by cases hdrawn), fun config hconfig ↦ hwiring.trans hconfig⟩
    rintro _ ⟨⟩
    exact hfunded
  | burnFrom spender source amount =>
    have hrun := (Tx.onFst_eq_ok_iff.1 h).1
    simp only [burnFrom, Tx.bind_eq_ok_iff, requireAuth_eq_ok_iff, and_assoc, exists_and_left,
      exists_eq_left, exists_const] at hrun
    obtain ⟨hauth, _, s₁, hspend, hdestroy⟩ := hrun
    obtain ⟨hwithin, htoken, hallowed⟩ := spend_effect hspend
    obtain ⟨hfunded, hbooked, hallowances, hwiring⟩ := destroy_effect hdestroy
    rw [htoken] at hfunded hbooked hwiring
    refine ⟨hauth, hbooked, ?_,
      allowances_drawn rfl rfl fun _ _ ↦ (allowed_congr hallowances _ _).trans (hallowed _ _), ?_,
      fun config hconfig ↦ hwiring.trans hconfig⟩
    · rintro _ ⟨⟩
      exact hfunded
    · rintro _ _ ⟨⟩
      exact hwithin

end

end Sep41GatedToken
