import CompliancePrimitives.Foundation.Bookkeeping
import CompliancePrimitives.Host.Env
import CompliancePrimitives.Host.I128

/-!
# Tokens that ask before they move

The example tokens share all but their questions: each stores the contracts it was wired to, keeps
its own balances, lets anyone mint, and before a transfer asks the wired contracts about the
parties. A `Consumer` is what tells one from another — the questions, in their order, and the names
of its errors. The state `σ` of the contracts asked is whatever they have.

Neither `mint` nor `transfer` looks at the sign of an amount. And a transfer reads both balances
before it writes either, so the second write of a transfer to oneself forgets the first: such a
transfer **adds** the amount (`settled`). What a token's balances add up to is therefore not what
was minted, but that and every amount an account ever sent itself (`supply_accounted`).
-/

namespace GatedToken

open Soroban Bookkeeping

/-- Storage: the wiring, written by `initialize` all at once, and the balances. -/
structure State (W Address : Type) where
  /-- What the token asks; absent before `initialize`. -/
  wiring : Option W
  /-- `Balance(address)`. What is absent counts as 0. -/
  balances : Address → Option I128

/-- The storage of a fresh deployment. -/
def deploy {W Address : Type} : State W Address where
  wiring := none
  balances := fun _ ↦ none

/-- What tells one token from another. -/
structure Consumer (ε W Address σ : Type) where
  /-- What is asked of the wired contracts before a transfer. -/
  clear : Env Address → W → (source target : Address) → Tx ε σ Unit
  notInitialized : ε
  alreadyInitialized : ε
  insufficientBalance : ε

section Operations

variable {ε W Address σ τ : Type}

/-- `balance`. -/
def balance (s : State W Address) (address : Address) : I128 :=
  (s.balances address).getD .zero

/-- `initialize`, a reserved word here: asks for no authorization. -/
def initialise (T : Consumer ε W Address σ) (wiring : W) : Tx ε (State W Address) Unit := do
  let s ← Tx.get
  Tx.ensure (s.wiring.isNone = true) T.alreadyInitialized
  Tx.modify fun s ↦ { s with wiring := some wiring }

variable [DecidableEq Address]

/-- Write one balance. -/
def setBalance (address : Address) (amount : I128) : Tx ε (State W Address) Unit :=
  Tx.modify fun s ↦ { s with balances := Function.update s.balances address (some amount) }

/-- `mint`: asks for no authorization, and takes any amount. -/
def mint (target : Address) (amount : I128) : Tx ε (State W Address) Unit := do
  let s ← Tx.get
  let sum ← I128.add (balance s target) amount
  setBalance target sum

/-- The end of every `transfer`. Both balances are read before either is written. -/
def settle (insufficientBalance : ε) (source target : Address) (amount : I128) :
    Tx ε (State W Address) Unit := do
  let s ← Tx.get
  let sourceBalance := balance s source
  Tx.ensure (¬(sourceBalance : ℤ) < amount) insufficientBalance
  let targetBalance := balance s target
  let sourceLeft ← I128.sub sourceBalance amount
  setBalance source sourceLeft
  let targetSum ← I128.add targetBalance amount
  setBalance target targetSum

/-- `transfer`. -/
def transfer (T : Consumer ε W Address σ) (env : Env Address) (source target : Address)
    (amount : I128) : Tx ε (State W Address × σ) Unit := do
  requireAuth env source
  let s ← Tx.onFst Tx.get
  let wiring ← Tx.okOr s.wiring T.notInitialized
  Tx.onSnd (T.clear env wiring source target)
  Tx.onFst (settle T.insufficientBalance source target amount)

/-! ### A token as a system -/

/-- A call of an entry point that can change something. -/
inductive Call (W Address : Type) where
  | initialise (wiring : W)
  | mint (target : Address) (amount : I128)
  | transfer (source target : Address) (amount : I128)

/-- Dispatch of a call to its entry point. -/
def invoke (T : Consumer ε W Address σ) (env : Env Address) :
    Call W Address → Tx ε (State W Address × σ) Unit
  | .initialise wiring => Tx.onFst (initialise T wiring)
  | .mint target amount => Tx.onFst (mint target amount)
  | .transfer source target amount => transfer T env source target amount

/-- What can happen next: an invocation of the token, or something on the rest of the ledger. -/
inductive Input (W Address τ : Type) where
  | token (env : Env Address) (call : Call W Address)
  | elsewhere (op : τ)

/-- A token from its deployment on, on a ledger where operations `τ` change the contracts it
asks. -/
def system (T : Consumer ε W Address σ) (change : τ → σ → σ) (start : σ) :
    System (State W Address × σ) (Input W Address τ) (Except (Failure ε) Unit) where
  start := (deploy, start)
  exec
    | .token env call, p => (invoke T env call).commit p
    | .elsewhere op, p => (.ok (), (p.1, change op p.2))

end Operations

/-! ### When a call completes -/

section

variable {ε W Address σ τ : Type} {T : Consumer ε W Address σ} {env : Env Address}
  {source target : Address} {amount : I128} {s s' : State W Address} {p p' : State W Address × σ}
  {u : Unit}

/-- What an account holds, as an integer. -/
def holdings (s : State W Address) (a : Address) : ℤ := balance s a

/-- An account can pay an amount, and both balances it leaves fit. -/
structure Payable (s : State W Address) (source target : Address) (amount : I128) : Prop where
  /-- The sender has the amount. -/
  funded : (amount : ℤ) ≤ holdings s source
  /-- What is left fits; a negative amount could make it too large. -/
  left_fits : holdings s source - amount < 2 ^ 127
  /-- What the recipient gets is not too small for an `i128`, -/
  sum_low : -2 ^ 127 ≤ holdings s target + amount
  /-- nor too large. -/
  sum_fits : holdings s target + amount < 2 ^ 127

theorem initialise_eq_ok_iff {wiring : W} :
    initialise T wiring s = .ok (u, s') ↔
      s.wiring = none ∧ s' = { s with wiring := some wiring } := by
  simp [initialise]

variable [DecidableEq Address]

theorem holdings_update {b : Address → Option I128} {w : Option W} (a a' : Address) (x : I128) :
    holdings ⟨w, Function.update b a (some x)⟩ a' =
      if a' = a then (x : ℤ) else holdings ⟨w, b⟩ a' := by
  by_cases h : a' = a
  · subst h
    simp [holdings, balance]
  · simp [holdings, balance, h]

theorem mint_eq_ok_iff :
    (mint target amount : Tx ε (State W Address) Unit) s = .ok (u, s') ↔
      ∃ sum : I128, (sum : ℤ) = holdings s target + amount ∧
        s' = { s with balances := Function.update s.balances target (some sum) } := by
  simp only [mint, setBalance, Tx.bind_eq_ok_iff, Tx.get_eq_ok_iff, I128.add_eq_ok_iff,
    Tx.modify_eq_ok_iff, and_assoc, exists_and_left, exists_eq_left, holdings]

theorem settle_eq_ok_iff {e : ε} :
    settle e source target amount s = .ok (u, s') ↔
      (amount : ℤ) ≤ holdings s source ∧ ∃ left sum : I128,
        (left : ℤ) = holdings s source - amount ∧ (sum : ℤ) = holdings s target + amount ∧
          s' = { s with
            balances := Function.update (Function.update s.balances source (some left)) target
              (some sum) } := by
  simp only [settle, setBalance, Tx.bind_eq_ok_iff, Tx.get_eq_ok_iff, Tx.ensure_eq_ok_iff,
    I128.add_eq_ok_iff, I128.sub_eq_ok_iff, Tx.modify_eq_ok_iff, and_assoc, exists_and_left,
    exists_eq_left, exists_const, holdings, not_lt]

/-- An amount can be paid exactly when a transfer of it settles. -/
theorem exists_settle_iff {e : ε} :
    (∃ r, settle e source target amount s = .ok r) ↔ Payable s source target amount := by
  constructor
  · rintro ⟨⟨_, s'⟩, h⟩
    obtain ⟨hfunded, left, sum, hleft, hsum, -⟩ := settle_eq_ok_iff.1 h
    exact ⟨hfunded, hleft ▸ left.2.2, hsum ▸ sum.2.1, hsum ▸ sum.2.2⟩
  · rintro ⟨hfunded, hleft, hlow, hfits⟩
    -- a balance is not below the least `i128`, and what is paid is not above it
    have hleast : -2 ^ 127 ≤ holdings s source - amount := by
      have : (0 : ℤ) ≤ holdings s source - amount := by omega
      omega
    exact ⟨((), _),
      settle_eq_ok_iff.2 ⟨hfunded, ⟨_, hleast, hleft⟩, ⟨_, hlow, hfits⟩, rfl, rfl, rfl⟩⟩

/-- **A transfer completes** when the sender authorizes it, the wired contracts clear it, and the
balances settle. -/
theorem transfer_eq_ok_iff :
    transfer T env source target amount p = .ok (u, p') ↔
      env.auths source = true ∧ ∃ wiring, p.1.wiring = some wiring ∧
        T.clear env wiring source target p.2 = .ok ((), p'.2) ∧
          settle T.insufficientBalance source target amount p.1 = .ok ((), p'.1) := by
  simp only [transfer, Tx.bind_eq_ok_iff, requireAuth_eq_ok_iff, Tx.onFst_eq_ok_iff,
    Tx.get_eq_ok_iff, Tx.okOr_eq_ok_iff, Tx.onSnd_eq_ok_iff, and_assoc, exists_and_left,
    exists_eq_left, exists_const]
  refine and_congr_right fun _ ↦ ⟨?_, ?_⟩
  · rintro ⟨⟨_, _⟩, rfl, rfl, wiring, hwiring, _, ⟨_, _⟩, hclear, rfl, hsettle, hsnd⟩
    exact ⟨wiring, hwiring, hsnd ▸ hclear, hsettle⟩
  · rintro ⟨wiring, hwiring, hclear, hsettle⟩
    exact ⟨p, rfl, rfl, wiring, hwiring, (), (p.1, p'.2), hclear, rfl, hsettle, rfl⟩

/-! ### What a call books -/

/-- What the end of a transfer adds to the accounts. An account that sends to itself gains the
amount. -/
noncomputable def settled (source target : Address) (amount : I128) : Address →₀ ℤ :=
  if source = target then Finsupp.single target (amount : ℤ)
  else movement source target (amount : ℤ)

/-- The amount the end of a transfer creates. -/
def settledTotal (source target : Address) (amount : I128) : ℤ :=
  if source = target then amount else 0

theorem degree_settled : (settled source target amount).degree =
    settledTotal source target amount := by
  by_cases h : source = target
  · rw [settled, if_pos h, settledTotal, if_pos h, Finsupp.degree_single]
  · rw [settled, if_neg h, settledTotal, if_neg h, degree_movement]

theorem settled_apply_of_ne {a : Address} (hsource : a ≠ source) (htarget : a ≠ target) :
    settled source target amount a = 0 := by
  rw [settled]
  split_ifs
  · exact Finsupp.single_eq_of_ne htarget
  · exact movement_apply_of_ne _ hsource htarget

theorem holdings_settle {e : ε} (h : settle e source target amount s = .ok (u, s'))
    (a : Address) : holdings s' a = holdings s a + settled source target amount a := by
  obtain ⟨-, left, sum, hleft, hsum, hs⟩ := settle_eq_ok_iff.1 h
  rw [hs, holdings_update, holdings_update, settled]
  by_cases hself : source = target
  · subst hself
    rw [if_pos rfl]
    split_ifs with ha
    · rw [ha, Finsupp.single_eq_same, hsum]
    · rw [Finsupp.single_eq_of_ne ha, add_zero]
  · rw [if_neg hself]
    split_ifs with htarget hsource
    · rw [htarget, movement_apply_target _ hself, hsum]
    · rw [hsource, movement_apply_source _ hself, hleft, sub_eq_add_neg]
    · rw [movement_apply_of_ne _ hsource htarget, add_zero]

theorem holdings_mint
    (h : (mint target amount : Tx ε (State W Address) Unit) s = .ok (u, s')) (a : Address) :
    holdings s' a = holdings s a + Finsupp.single target (amount : ℤ) a := by
  obtain ⟨sum, hsum, hs⟩ := mint_eq_ok_iff.1 h
  rw [hs, holdings_update]
  split_ifs with ha
  · rw [ha, Finsupp.single_eq_same, hsum]
  · rw [Finsupp.single_eq_of_ne ha, add_zero]

/-- What a completed call adds to the accounts. -/
noncomputable def Call.entry : Call W Address → Address →₀ ℤ
  | .initialise _ => 0
  | .mint target amount => Finsupp.single target (amount : ℤ)
  | .transfer source target amount => settled source target amount

/-- The amount a completed call creates: what it mints, and what an account sends itself. -/
def Call.created : Call W Address → ℤ
  | .initialise _ => 0
  | .mint _ amount => amount
  | .transfer source target amount => settledTotal source target amount

theorem degree_entry (call : Call W Address) : call.entry.degree = call.created := by
  cases call with
  | initialise wiring => exact map_zero _
  | mint target amount => exact Finsupp.degree_single _ _
  | transfer source target amount => exact degree_settled

/-- **A completed call books its entry.** -/
theorem holdings_invoke {call : Call W Address} (h : invoke T env call p = .ok (u, p'))
    (a : Address) : holdings p'.1 a = holdings p.1 a + call.entry a := by
  cases call with
  | initialise wiring =>
    obtain ⟨-, hs⟩ := initialise_eq_ok_iff.1 (Tx.onFst_eq_ok_iff.1 h).1
    rw [hs, Call.entry, Finsupp.zero_apply, add_zero]
    rfl
  | mint target amount => exact holdings_mint (Tx.onFst_eq_ok_iff.1 h).1 a
  | transfer source target amount =>
    obtain ⟨-, wiring, -, -, hsettle⟩ := transfer_eq_ok_iff.1 h
    exact holdings_settle hsettle a

/-! ### Runs -/

variable {change : τ → σ → σ} {start : σ}

/-- One step of a run. -/
abbrev Moment (ε W Address σ τ : Type) :=
  Step (State W Address × σ) (Input W Address τ) (Except (Failure ε) Unit)

/-- The call of the token a step completes. -/
def completed (e : Moment ε W Address σ τ) : Option (Call W Address) :=
  match e.input, e.result with
  | .token _ call, .ok _ => some call
  | _, _ => none

/-- What a step adds to the accounts. -/
noncomputable def entryOf (e : Moment ε W Address σ τ) : Address →₀ ℤ :=
  ((completed e).map Call.entry).getD 0

/-- The amount a step creates. -/
def createdBy (e : Moment ε W Address σ τ) : ℤ := ((completed e).map Call.created).getD 0

/-- **Every step books its entry**, and what does not complete books nothing. -/
theorem exec_booked (T : Consumer ε W Address σ) (change : τ → σ → σ) (start : σ)
    (p : State W Address × σ) (i : Input W Address τ) (a : Address) :
    holdings ((system T change start).exec i p).2.1 a =
      holdings p.1 a + entryOf ((system T change start).stepFrom p i) a := by
  cases i with
  | elsewhere op =>
    show holdings p.1 a = _
    simp [entryOf, completed]
  | token env call =>
    show holdings ((invoke T env call).commit p).2.1 a = _
    rcases Tx.commit_cases (invoke T env call) p with ⟨u, p', hrun, hcommit⟩ | ⟨f, -, hcommit⟩
    · have hentry :
          entryOf ((system T change start).stepFrom p (.token env call)) = call.entry := by
        simp [entryOf, completed, system, hcommit]
      rw [hentry, hcommit, holdings_invoke hrun]
    · have hentry : entryOf ((system T change start).stepFrom p (.token env call)) = 0 := by
        simp [entryOf, completed, system, hcommit]
      rw [hentry, hcommit, Finsupp.zero_apply, add_zero]

theorem degree_entryOf (e : Moment ε W Address σ τ) : (entryOf e).degree = createdBy e := by
  rw [entryOf, createdBy]
  cases completed e with
  | none => exact map_zero _
  | some call => exact degree_entry call

/-- **The supply accounted for.** Whatever a token asks and whatever happens on the rest of the
ledger, its balances add up to what was minted and what accounts sent themselves. A call that fails
and what happens elsewhere change no balance. -/
theorem supply_accounted (T : Consumer ε W Address σ) (change : τ → σ → σ) (start : σ)
    (inputs : List (Input W Address τ)) :
    ∑ᶠ a, holdings ((system T change start).final inputs).1 a =
        (((system T change start).history inputs).map createdBy).sum ∧
      ∀ e ∈ (system T change start).history inputs, completed e = none →
        ∀ a, holdings e.post.1 a = holdings e.pre.1 a := by
  have htotal := (system T change start).total_booked (fun p a ↦ holdings p.1 a)
    (exec_booked T change start) (fun _ ↦ rfl) inputs
  refine ⟨by simpa only [degree_entryOf] using htotal, fun e he hnone a ↦ ?_⟩
  obtain ⟨before, hstep, -⟩ := System.exists_of_mem_history _ he
  have hentry : entryOf e = 0 := by rw [entryOf, hnone, Option.map_none, Option.getD_none]
  have hbooked := exec_booked T change start ((system T change start).final before) e.input a
  rw [← hstep, hentry, Finsupp.zero_apply, add_zero] at hbooked
  rw [hstep]
  exact hbooked

/-! ### Accounts nobody moves -/

/-- What a step mints to an account. -/
def mintedTo (a : Address) (e : Moment ε W Address σ τ) : ℤ :=
  match completed e with
  | some (.mint target amount) => if target = a then amount else 0
  | _ => 0

/-- A step completes no transfer from an account or to it. -/
def Still (a : Address) (e : Moment ε W Address σ τ) : Prop :=
  ∀ source target amount, completed e = some (.transfer source target amount) →
    source ≠ a ∧ target ≠ a

theorem Still.entryOf_eq {a : Address} {e : Moment ε W Address σ τ}
    (h : Still a e) : entryOf e a = mintedTo a e := by
  rw [entryOf, mintedTo]
  rcases hcall : completed e with _ | ⟨wiring⟩ | ⟨target, amount⟩ | ⟨source, target, amount⟩
  · rfl
  · rfl
  · show Finsupp.single target (amount : ℤ) a = _
    rw [Finsupp.single_apply]
  · obtain ⟨hsource, htarget⟩ := h source target amount hcall
    exact settled_apply_of_ne hsource.symm htarget.symm

/-- **An account nobody moves** gains what is minted to it, and changes in no other way. -/
theorem holdings_of_still {p : State W Address × σ} {during : List (Input W Address τ)}
    {a : Address}
    (hstill : ∀ e ∈ ((system T change start).startingAt p).history during, Still a e) :
    holdings (((system T change start).startingAt p).final during).1 a =
      holdings p.1 a +
        ((((system T change start).startingAt p).history during).map (mintedTo a)).sum := by
  rw [((system T change start).startingAt p).booked (fun p a ↦ holdings p.1 a)
    (exec_booked T change start),
    System.startingAt_start, add_right_inj]
  generalize ((system T change start).startingAt p).history during = h at hstill
  induction h with
  | nil => rfl
  | cons e h ih =>
    rw [List.forall_mem_cons] at hstill
    rw [System.booking_cons, Finsupp.add_apply, hstill.1.entryOf_eq, ih hstill.2, List.map_cons,
      List.sum_cons]

end

end GatedToken
