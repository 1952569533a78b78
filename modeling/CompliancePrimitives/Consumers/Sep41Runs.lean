import CompliancePrimitives.Consumers.Sep41Accounts

/-!
# The SEP-41 token: supply, allowances and consent

Balances add up to what was minted less what was burned, and what accounts sent themselves comes on
top, as in the other example tokens (`supply_of_minted_and_burned`). A spender takes from an
account, in transfers and burns together, no more than the allowance it was last given, although
`approve` keeps no expiration and an approval **replaces** what is left of the one before
(`drawn_le_allowance`).

What no result here claims is that an account is safe from others. A transfer of a negative amount
takes from its **recipient**, who authorizes nothing (`negative_transfer`), and a negative
`transfer_from` raises the allowance it is charged to. Where no amount is negative, an account that
authorizes nothing never loses anything (`holdings_mono_of_silent`).
-/

namespace Sep41GatedToken

open Soroban Bookkeeping
open PolicyEngine (Callees)
open GatedToken (balance holdings settled)

variable {Address σ τ : Type} [DecidableEq Address]

variable {callees : Env Address → Callees Address σ} {change : τ → σ → σ} {start : σ}

/-- One step of a run. -/
abbrev Moment (Address σ τ : Type) :=
  Step (State Address × σ) (Input Address τ) (Except (Failure Error) Unit)

/-- The call of the token a step completes. -/
def completed (e : Moment Address σ τ) : Option (Call Address) :=
  match e.input, e.result with
  | .token _ call, .ok _ => some call
  | _, _ => none

/-- A call of the token completes, or leaves everything as it was. -/
theorem exec_token (callees : Env Address → Callees Address σ) (change : τ → σ → σ) (start : σ)
    (p : State Address × σ) (env : Env Address) (call : Call Address) :
    (∃ u, invoke (callees env) env call p =
        .ok (u, ((system callees change start).exec (.token env call) p).2) ∧
      completed ((system callees change start).stepFrom p (.token env call)) = some call) ∨
      completed ((system callees change start).stepFrom p (.token env call)) = none ∧
        ((system callees change start).exec (.token env call) p).2 = p := by
  rcases Tx.commit_cases (invoke (callees env) env call) p with
    ⟨u, p', hrun, hcommit⟩ | ⟨f, -, hcommit⟩
  · have hexec : (system callees change start).exec (.token env call) p = (.ok u, p') := hcommit
    refine .inl ⟨u, ?_, by simp [completed, hexec]⟩
    rw [hexec]
    exact hrun
  · have hexec : (system callees change start).exec (.token env call) p = (.error f, p) := hcommit
    exact .inr ⟨by simp [completed, hexec], congrArg Prod.snd hexec⟩

/-- **A step completes a call, with its effect, or leaves the token alone.** -/
theorem exec_effect (callees : Env Address → Callees Address σ) (change : τ → σ → σ) (start : σ)
    (p : State Address × σ) (i : Input Address τ) :
    (∃ env call, i = .token env call ∧
      completed ((system callees change start).stepFrom p i) = some call ∧
        Effect env call p.1 ((system callees change start).exec i p).2.1) ∨
      completed ((system callees change start).stepFrom p i) = none ∧
        ((system callees change start).exec i p).2.1 = p.1 := by
  cases i with
  | elsewhere op => exact .inr ⟨rfl, rfl⟩
  | token env call =>
    rcases exec_token callees change start p env call with ⟨u, hrun, hcompleted⟩ | ⟨hnone, hkept⟩
    · exact .inl ⟨env, call, rfl, hcompleted, invoke_effect hrun⟩
    · exact .inr ⟨hnone, congrArg Prod.fst hkept⟩

/-! ### The supply -/

/-- What a step adds to the accounts. -/
noncomputable def entryOf (e : Moment Address σ τ) : Address →₀ ℤ :=
  ((completed e).map Call.entry).getD 0

/-- The amount a step creates. -/
def createdBy (e : Moment Address σ τ) : ℤ := ((completed e).map Call.created).getD 0

theorem exec_booked (callees : Env Address → Callees Address σ) (change : τ → σ → σ) (start : σ)
    (p : State Address × σ) (i : Input Address τ) (a : Address) :
    holdings ((system callees change start).exec i p).2.1.token a =
      holdings p.1.token a + entryOf ((system callees change start).stepFrom p i) a := by
  rcases exec_effect callees change start p i with ⟨env, call, -, hcall, heffect⟩ | ⟨hnone, hkept⟩
  · rw [entryOf, hcall, heffect.booked]
    rfl
  · rw [entryOf, hnone, hkept]
    exact (add_zero _).symm

/-- **What the balances add up to**: what was minted, less what was burned, and what accounts sent
themselves. -/
theorem supply_of_minted_and_burned (callees : Env Address → Callees Address σ)
    (change : τ → σ → σ) (start : σ) (inputs : List (Input Address τ)) :
    ∑ᶠ a, holdings ((system callees change start).final inputs).1.token a =
      (((system callees change start).history inputs).map createdBy).sum := by
  have htotal := (system callees change start).total_booked (fun p a ↦ holdings p.1.token a)
    (exec_booked callees change start) (fun _ ↦ rfl) inputs
  have hdegree : (fun e : Moment Address σ τ ↦ (entryOf e).degree) = createdBy := by
    funext e
    rw [entryOf, createdBy]
    cases completed e with
    | none => exact map_zero _
    | some call => exact degree_entry call
  rwa [hdegree] at htotal

/-! ### Allowances -/

/-- What a step takes from an allowance. -/
def drawnBy (owner spender : Address) (e : Moment Address σ τ) : ℤ :=
  ((completed e).map (Call.drawnFrom owner spender)).getD 0

/-- A step completes an `approve` of a spender. -/
def Approves (owner spender : Address) (e : Moment Address σ τ) : Prop :=
  ∃ call, completed e = some call ∧ call.approved = some (owner, spender)

/-- One step, with no approval: the allowance is debited what is drawn, and covers it. -/
theorem exec_allowed (callees : Env Address → Callees Address σ) (change : τ → σ → σ) (start : σ)
    (p : State Address × σ) (i : Input Address τ) {owner spender : Address}
    (hnone : ¬Approves owner spender ((system callees change start).stepFrom p i)) :
    allowed ((system callees change start).exec i p).2.1 owner spender =
        allowed p.1 owner spender -
          drawnBy owner spender ((system callees change start).stepFrom p i) ∧
      (drawnBy owner spender ((system callees change start).stepFrom p i) = 0 ∨
        drawnBy owner spender ((system callees change start).stepFrom p i) ≤
          allowed p.1 owner spender) := by
  rcases exec_effect callees change start p i with ⟨env, call, -, hcall, heffect⟩ | ⟨hdone, hkept⟩
  · have hdrawn : drawnBy owner spender ((system callees change start).stepFrom p i) =
        call.drawnFrom owner spender := by
      rw [drawnBy, hcall]
      rfl
    rw [hdrawn, heffect.allowances, if_neg fun happroved ↦ hnone ⟨call, hcall, happroved⟩]
    refine ⟨rfl, ?_⟩
    rw [Call.drawnFrom]
    split_ifs with hpair
    · exact .inr (heffect.within _ _ hpair)
    · exact .inl rfl
  · have hdrawn : drawnBy owner spender ((system callees change start).stepFrom p i) = 0 := by
      rw [drawnBy, hdone]
      rfl
    rw [hdrawn, hkept, sub_zero]
    exact ⟨rfl, .inl rfl⟩

/-- **A spender draws no more than its allowance.** Until the owner next approves the spender, the
allowance falls by what transfers and burns draw from it, and they draw no more than it was. -/
theorem drawn_le_allowance (callees : Env Address → Callees Address σ) (change : τ → σ → σ)
    (start : σ) (before during : List (Input Address τ)) (owner spender : Address)
    (hnone : ∀ e ∈ ((system callees change start).startingAt
      ((system callees change start).final before)).history during, ¬Approves owner spender e) :
    allowed ((system callees change start).final (during ++ before)).1 owner spender =
        allowed ((system callees change start).final before).1 owner spender -
          ((((system callees change start).startingAt
            ((system callees change start).final before)).history during).map
              (drawnBy owner spender)).sum ∧
      ((((system callees change start).startingAt
        ((system callees change start).final before)).history during).map
          (drawnBy owner spender)).sum ≤
        max (allowed ((system callees change start).final before).1 owner spender) 0 := by
  rw [System.final_append]
  generalize (system callees change start).final before = p at hnone ⊢
  induction during with
  | nil => simp
  | cons i during ih =>
    rw [System.history_cons, List.forall_mem_cons] at hnone
    obtain ⟨hallowed, hbound⟩ := ih hnone.2
    obtain ⟨hstep, hcovered⟩ := exec_allowed callees change start _ i hnone.1
    rw [System.history_cons, List.map_cons, List.sum_cons, System.final_cons]
    refine ⟨hstep.trans ?_, ?_⟩
    · rw [hallowed, sub_sub, add_comm]
      rfl
    · rcases hcovered with hzero | hcovered
      · exact (congrArg (· + _) hzero).trans_le ((zero_add _).trans_le hbound)
      · rw [hallowed] at hcovered
        exact le_max_of_le_left (le_sub_iff_add_le.1 hcovered)

/-- A ledger where every gate clears everyone. -/
def clearingAll : Env ℕ → Callees ℕ Unit := fun _ ↦
  { check _ _ := pure true
    tryIsPermittedJurisdiction _ _ _ := pure none
    isAllowed _ _ := pure true
    isFrozen _ := pure false }

/-- Everyone authorizes. -/
def grantingAll : Env ℕ := ⟨5, 0, fun _ ↦ true⟩

/-- The account 1 gets 9 from the admin 7. -/
def mintedNine : List (Input ℕ Empty) :=
  [.token grantingAll (.mint 7 1 (I128.ofNat 9)),
    .token grantingAll (.initialise ⟨7, 8, 7, "Token", "TKN"⟩)]

/-- It lets 2 spend 5 of it. -/
def approvedFive : List (Input ℕ Empty) :=
  .token grantingAll (.approve 1 2 (I128.ofNat 5) 100) :: mintedNine

/-- Of the 5, 4 are spent, and 1 is left. -/
theorem drawn_le_allowance_approvedFive :
    allowed ((system clearingAll (fun _ ↦ id) ()).final
      ([.token grantingAll (.transferFrom 2 1 3 (I128.ofNat 4))] ++ approvedFive)).1 1 2 = 1 := by
  refine (drawn_le_allowance clearingAll (fun _ ↦ id) () approvedFive
    [.token grantingAll (.transferFrom 2 1 3 (I128.ofNat 4))] 1 2 ?_).1.trans (by decide)
  intro e he
  obtain rfl := List.mem_singleton.1 he
  rintro ⟨call, hcall, happroved⟩
  obtain rfl : Call.transferFrom 2 1 3 (I128.ofNat 4) = call := Option.some.inj hcall
  cases happroved

/-! ### An account that authorizes nothing -/

/-- A step carries no authorization of an account. -/
def Silent (a : Address) (e : Moment Address σ τ) : Prop :=
  ∀ env call, e.input = .token env call → env.auths a = false

/-- No call that a step completes names a negative amount. -/
def Unsigned (e : Moment Address σ τ) : Prop :=
  ∀ call, completed e = some call → 0 ≤ call.amount

theorem settled_nonneg {source target a : Address} {amount : I128} (hamount : 0 ≤ (amount : ℤ))
    (hsource : source = a → (amount : ℤ) = 0) : 0 ≤ settled source target amount a := by
  rw [settled]
  split_ifs with hself
  · rw [Finsupp.single_apply]
    split_ifs
    · exact hamount
    · exact le_rfl
  · by_cases ha : source = a
    · rw [hsource ha, movement, Finsupp.single_zero, Finsupp.single_zero, sub_self]
      exact le_rfl
    · rw [movement, Finsupp.sub_apply, Finsupp.single_eq_of_ne (Ne.symm ha), sub_zero,
        Finsupp.single_apply]
      split_ifs
      · exact hamount
      · exact le_rfl

theorem burned_nonneg {source a : Address} {amount : I128}
    (hsource : source = a → (amount : ℤ) = 0) :
    0 ≤ Finsupp.single source (-amount : ℤ) a := by
  rw [Finsupp.single_apply]
  split_ifs with ha
  · rw [hsource ha, neg_zero]
  · exact le_rfl

/-- A call of no negative amount takes only from its payer. -/
theorem Call.entry_nonneg {call : Call Address} {a : Address} (hamount : 0 ≤ call.amount)
    (hpayer : call.payer = some a → call.amount = 0) : 0 ≤ call.entry a := by
  cases call with
  | initialise config => exact le_rfl
  | approve owner spender amount expirationLedger => exact le_rfl
  | mint admin target amount =>
    rw [Call.entry, Finsupp.single_apply]
    split_ifs
    · exact hamount
    · exact le_rfl
  | transfer source target amount =>
    exact settled_nonneg hamount fun h ↦ hpayer (congrArg some h)
  | transferFrom spender source target amount =>
    exact settled_nonneg hamount fun h ↦ hpayer (congrArg some h)
  | burn source amount => exact burned_nonneg fun h ↦ hpayer (congrArg some h)
  | burnFrom spender source amount => exact burned_nonneg fun h ↦ hpayer (congrArg some h)

omit [DecidableEq Address] in
/-- Who pays has authorized the call, or has an allowance drawn. -/
theorem Call.caller_or_drawn {call : Call Address} {a : Address} (h : call.payer = some a) :
    call.caller = a ∨ ∃ spender, call.drawn = some (a, spender) := by
  cases call with
  | initialise config => cases h
  | mint admin target amount => cases h
  | approve owner spender amount expirationLedger => cases h
  | transfer source target amount => exact .inl (Option.some.inj h)
  | transferFrom spender source target amount =>
    exact .inr ⟨spender, congrArg (fun o ↦ some (o, spender)) (Option.some.inj h)⟩
  | burn source amount => exact .inl (Option.some.inj h)
  | burnFrom spender source amount =>
    exact .inr ⟨spender, congrArg (fun o ↦ some (o, spender)) (Option.some.inj h)⟩

omit [DecidableEq Address] in
theorem Call.caller_of_approved {call : Call Address} {owner spender : Address}
    (h : call.approved = some (owner, spender)) : call.caller = owner := by
  cases call with
  | approve owner' spender' amount expirationLedger =>
    exact congrArg Prod.fst (Option.some.inj h)
  | _ => cases h

/-- One step: an account without outstanding allowances that authorizes nothing gets none, and loses
nothing. -/
theorem Effect.silent {env : Env Address} {call : Call Address} {s s' : State Address}
    {a : Address} (heffect : Effect env call s s') (hamount : 0 ≤ call.amount)
    (hsilent : env.auths a = false) (hallowed : ∀ spender, allowed s a spender ≤ 0) :
    (∀ spender, allowed s' a spender ≤ 0) ∧ holdings s.token a ≤ holdings s'.token a := by
  -- who authorizes nothing is not the caller, so it may only be drawn on
  have hcaller : call.caller ≠ a := by
    rintro rfl
    rw [heffect.authorized] at hsilent
    cases hsilent
  constructor
  · intro spender
    rw [heffect.allowances, if_neg fun happroved ↦ hcaller (Call.caller_of_approved happroved)]
    -- a draw of an amount that is not negative only lowers the allowance
    have hdrawn : 0 ≤ call.drawnFrom a spender := by
      rw [Call.drawnFrom]
      split_ifs
      · exact hamount
      · exact le_rfl
    have := hallowed spender
    omega
  -- a draw within an allowance that is not positive is a draw of nothing
  · have hpayer : call.payer = some a → call.amount = 0 := by
      intro hpays
      obtain ⟨spender, hdrawn⟩ := (Call.caller_or_drawn hpays).resolve_left hcaller
      exact le_antisymm ((heffect.within _ _ hdrawn).trans (hallowed spender)) hamount
    rw [heffect.booked]
    exact le_add_of_nonneg_right (Call.entry_nonneg hamount hpayer)

/-- **Nobody loses without authorizing.** As long as no completed call names a negative amount, an
account with no allowance outstanding that authorizes nothing never holds less than it did. -/
theorem holdings_mono_of_silent (callees : Env Address → Callees Address σ) (change : τ → σ → σ)
    (start : σ) (before during : List (Input Address τ)) (a : Address)
    (hallowed : ∀ spender,
      allowed ((system callees change start).final before).1 a spender ≤ 0)
    (hsteps : ∀ e ∈ ((system callees change start).startingAt
      ((system callees change start).final before)).history during, Silent a e ∧ Unsigned e) :
    holdings ((system callees change start).final before).1.token a ≤
      holdings ((system callees change start).final (during ++ before)).1.token a := by
  rw [System.final_append]
  refine ((system callees change start).stretch_induction
    (P := fun q ↦ (∀ spender, allowed q.1 a spender ≤ 0) ∧
      holdings ((system callees change start).final before).1.token a ≤ holdings q.1.token a)
    (C := fun e ↦ Silent a e ∧ Unsigned e) ⟨hallowed, le_rfl⟩ ?_ hsteps).1.2
  rintro q i ⟨hnone, hleast⟩ ⟨hsilent, hunsigned⟩
  rcases exec_effect callees change start q i with ⟨env, call, rfl, hcall, heffect⟩ | ⟨-, hkept⟩
  · obtain ⟨hnone', hgrows⟩ :=
      heffect.silent (hunsigned call hcall) (hsilent env call rfl) hnone
    exact ⟨hnone', hleast.trans hgrows⟩
  · rw [hkept]
    exact ⟨hnone, hleast⟩

/-- Nobody authorizes but the admin 7. -/
def grantingSeven : Env ℕ := ⟨5, 0, fun a ↦ a == 7⟩

/-- The admin tries to take 3 from 1, and then gives it 2. -/
def seizureAndMint : List (Input ℕ Empty) :=
  [.token grantingSeven (.mint 7 1 (I128.ofNat 2)),
    .token grantingSeven (.transferFrom 7 1 7 (I128.ofNat 3))]

/-- The 9 of 1 are still there after that. -/
theorem holdings_mono_of_silent_seizureAndMint :
    9 ≤ holdings ((system clearingAll (fun _ ↦ id) ()).final
      (seizureAndMint ++ mintedNine)).1.token 1 := by
  refine le_trans (by decide) (holdings_mono_of_silent clearingAll (fun _ ↦ id) ()
    mintedNine seizureAndMint 1 (fun _ ↦ le_rfl) fun e he ↦ ?_)
  rcases List.mem_cons.1 he with rfl | he
  · refine ⟨?_, ?_⟩
    · rintro env call ⟨⟩
      rfl
    · intro call hcall
      obtain rfl : Call.mint 7 1 (I128.ofNat 2) = call := Option.some.inj hcall
      decide
  · obtain rfl := List.mem_singleton.1 he
    refine ⟨?_, ?_⟩
    · rintro env call ⟨⟩
      rfl
    · intro call hcall
      cases hcall

/-! ### What the sign of an amount is for -/

/-- **A transfer of a negative amount is a debit of its recipient**, who authorizes nothing. It
completes whenever the gate clears both and the balances it leaves fit. -/
theorem negative_transfer {env : Env Address} {callees : Callees Address σ}
    {source target : Address} {amount : I128} {p p₁ : State Address × σ}
    (hauth : env.auths source = true)
    (hgate : gateCheck callees source target p = .ok ((), p₁)) (hne : source ≠ target)
    (hamount : (amount : ℤ) ≤ 0) (hsource : 0 ≤ holdings p.1.token source)
    (hleft : holdings p.1.token source - amount < 2 ^ 127)
    (hsum : -2 ^ 127 ≤ holdings p.1.token target + amount) :
    ∃ p', transfer callees env source target amount p = .ok ((), p') ∧
      holdings p'.1.token target = holdings p.1.token target + amount ∧
        holdings p'.1.token source = holdings p.1.token source - amount := by
  have hfits : holdings p.1.token target + amount < 2 ^ 127 := by
    have : holdings p.1.token target < 2 ^ 127 := (balance p.1.token target).2.2
    omega
  -- the sender can pay an amount below zero whatever it has, as long as both sums fit
  have hpayable : GatedToken.Payable p.1.token source target amount :=
    ⟨hamount.trans hsource, hleft, hsum, hfits⟩
  obtain ⟨⟨_, t⟩, hsettle⟩ :=
    (GatedToken.exists_settle_iff (e := Error.insufficientBalance)).2 hpayable
  have hend : doTransfer source target amount p.1 = .ok ((), { p.1 with token := t }) :=
    onToken_eq_ok_iff.2 ⟨hsettle, rfl, rfl⟩
  have hrun : invoke callees env (.transfer source target amount) p =
      .ok ((), ({ p.1 with token := t }, p₁.2)) := by
    simp only [invoke, transfer, Tx.bind_eq_ok_iff, requireAuth_eq_ok_iff, Tx.onFst_eq_ok_iff]
    exact ⟨(), p, ⟨hauth, rfl⟩, (), p₁, hgate, (gateCheck_eq_ok_iff.1 hgate).1.symm ▸ hend, rfl⟩
  have heffect := invoke_effect hrun
  refine ⟨_, hrun, ?_, ?_⟩
  · rw [heffect.booked, Call.entry, settled, if_neg hne, movement_apply_target _ hne]
  · rw [heffect.booked, Call.entry, settled, if_neg hne, movement_apply_source _ hne,
      sub_eq_add_neg]

end Sep41GatedToken
