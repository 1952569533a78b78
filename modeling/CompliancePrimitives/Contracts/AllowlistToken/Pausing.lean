import CompliancePrimitives.Contracts.AllowlistToken.Delegation

/-!
# `allowlist-token`: what a pause stops

A pause is documented to stop every addition and removal, and every transfer. Transfers, delegated
additions and single removals look at the flag. `add_to_allowlist`, `add_multiple_to_allowlist` and
`remove_multiple_from_allowlist` do not.

`pause_halts_iff` says exactly when a pause holds all the same: when none of the three is called in
a way that gets past its other checks and would change an entry.

The condition is about the calls of a paused stretch and the states they are made in. A call that
lacks authority, names too many addresses or sets an entry to what it is already does no harm, and
is not counted; a call that would change an entry breaks the pause, and one such call is enough.
-/

namespace AllowlistToken

open Soroban

variable {Address : Type}

/-- The step ends the pause. -/
def Unpauses (e : Moment Address) : Prop :=
  (∃ admin, e.input.call = .unpause admin) ∧ ∃ v, e.result = .ok v

/-- The step left every entry as it was, and forwarded no transfer. -/
structure Halted (e : Moment Address) : Prop where
  /-- No entry is written or removed. -/
  allowed : e.post.allowed = e.pre.allowed
  /-- The token is not called. -/
  transfers : e.post.transfers = e.pre.transfers

/-- The step is a call of one of the three entry points that do not look at the flag, it gets past
their checks, and it asks for an entry that is not there already. -/
def SlipsThrough (ext : Externals Address) (e : Moment Address) : Prop :=
  e.input.call.PassesUnguarded ext e.input.env e.pre ∧
    ∃ addresses entry, e.input.call.write = some (addresses, entry) ∧
      ∃ a ∈ addresses, e.pre.allowed a ≠ entry

variable [DecidableEq Address] {ext : Externals Address} {env : Env Address}
  {s s' : State Address} {call : Call Address}

/-- A write changes nothing exactly if the entry is there already, for all its addresses. -/
theorem State.allowed_write_eq_iff {addresses : List Address} {entry : Option AllowlistEntry} :
    (s.write addresses entry).allowed = s.allowed ↔ ∀ a ∈ addresses, s.allowed a = entry := by
  constructor
  · intro hsame a ha
    have hwritten : (s.write addresses entry).allowed a = entry := if_pos ha
    rw [← hwritten, hsame]
  · intro hentry
    funext a
    by_cases ha : a ∈ addresses
    · exact (if_pos ha).trans (hentry a ha).symm
    · exact if_neg ha

/-- Getting past the checks of one of the three entry points is completing. -/
theorem invoke_of_passesUnguarded {addresses : List Address} {entry : Option AllowlistEntry}
    (hpasses : call.PassesUnguarded ext env s) (hwrite : call.write = some (addresses, entry)) :
    invoke ext env call s = .ok (.unit, s.write addresses entry) := by
  cases call with
  | addToAllowlist admin address expirationLedger =>
    obtain ⟨hauth, hadmin, hpast⟩ := hpasses
    cases hwrite
    exact Tx.bind_pure_eq_ok_iff.2 ⟨(), addToAllowlist_eq_ok_iff.2
      ⟨hauth, hadmin, hpast, s.write_singleton address _⟩, rfl⟩
  | addMultipleToAllowlist admin addresses expirationLedger =>
    obtain ⟨hauth, hadmin, hlength, hpast⟩ := hpasses
    cases hwrite
    exact Tx.bind_pure_eq_ok_iff.2 ⟨(), addMultipleToAllowlist_eq_ok_iff.2
      ⟨hauth, hadmin, hlength, hpast, rfl⟩, rfl⟩
  | removeMultipleFromAllowlist admin addresses =>
    obtain ⟨hauthority, hlength⟩ := hpasses
    cases hwrite
    exact Tx.bind_pure_eq_ok_iff.2 ⟨(), removeMultipleFromAllowlist_eq_ok_iff.2
      ⟨hauthority, hlength, rfl⟩, rfl⟩
  | _ => exact hpasses.elim

/-- **A completed call on a paused contract** keeps it paused, unless it is `unpause`, and changes
no entry and forwards nothing, unless it is a write of an entry point without the guard. -/
theorem RoleStep.of_paused (h : RoleStep ext env call s s') (hpaused : isPaused s = true) :
    ((∃ admin, call = .unpause admin) ∨ isPaused s' = true) ∧
      ((s'.allowed = s.allowed ∧ s'.transfers = s.transfers) ∨
        ∃ addresses entry, call.write = some (addresses, entry) ∧
          call.PassesUnguarded ext env s ∧ s' = s.write addresses entry) := by
  have habsurd : s.paused.getD false = false → False := fun hno ↦ by
    rw [isPaused, hno] at hpaused
    cases hpaused
  cases h with
  -- the role may move while paused, and neither entries nor flag with it
  | handedOver _ _ _ _ hs' =>
    exact ⟨.inr (by rw [hs']; exact hpaused), .inl ⟨by rw [hs'], by rw [hs']⟩⟩
  | governed _ _ _ _ _ hflag _ hs' =>
    refine ⟨?_, .inl ⟨by rw [hs'], by rw [hs']⟩⟩
    rcases hflag with hunpause | hsame | hset
    · exact .inl hunpause
    · exact .inr (by rw [isPaused, hsame]; exact hpaused)
    · exact .inr (by rw [isPaused, hset]; rfl)
  -- the additions of the admin do not look at the flag
  | granted _ addresses entry _ _ _ hwrite hpasses hs' =>
    exact ⟨.inr (by rw [hs']; exact hpaused), .inr ⟨addresses, entry, hwrite, hpasses, hs'⟩⟩
  | delegated _ _ hpres => exact (habsurd hpres.not_paused).elim
  -- single removals do, so it is a removal of several
  | revoked _ addresses _ _ hwrite hpasses hs' =>
    exact ⟨.inr (by rw [hs']; exact hpaused),
      .inr ⟨addresses, none, hwrite, hpasses.resolve_left habsurd, hs'⟩⟩
  | blocked _ _ _ _ _ hs' =>
    exact ⟨.inr (by rw [hs']; exact hpaused), .inl ⟨by rw [hs'], by rw [hs']⟩⟩
  | forwarded _ _ _ _ hno => exact (habsurd hno).elim

/-- A contract stays paused until a step unpauses it. -/
theorem isPaused_of_not_unpauses {i : Input Address} (hpaused : isPaused s = true)
    (hstays : ¬Unpauses ((system ext).stepFrom s i)) :
    isPaused ((system ext).exec i s).2 = true := by
  rcases exec_roleStep ext i s with ⟨hok, hstep⟩ | ⟨-, hpost⟩
  · exact (hstep.of_paused hpaused).1.resolve_left fun hcall ↦ hstays ⟨hcall, hok⟩
  · rwa [hpost]

/-- **One step on a paused contract** is halted exactly if it does not slip through. -/
theorem halted_iff {i : Input Address} (hpaused : isPaused s = true) :
    Halted ((system ext).stepFrom s i) ↔ ¬SlipsThrough ext ((system ext).stepFrom s i) := by
  constructor
  · rintro hhalted ⟨hpasses, addresses, entry, hwrite, a, ha, hne⟩
    have hpost : ((system ext).exec i s).2 = s.write addresses entry :=
      congrArg Prod.snd (Tx.commit_of_ok (invoke_of_passesUnguarded hpasses hwrite))
    have hsame : (s.write addresses entry).allowed = s.allowed := hpost ▸ hhalted.allowed
    exact hne (State.allowed_write_eq_iff.1 hsame a ha)
  · intro hslips
    rcases exec_roleStep ext i s with ⟨-, hstep⟩ | ⟨-, hpost⟩
    · rcases (hstep.of_paused hpaused).2 with ⟨hallowed, htransfers⟩ |
        ⟨addresses, entry, hwrite, hpasses, hs'⟩
      · exact ⟨hallowed, htransfers⟩
      · have hentry : ∀ a ∈ addresses, s.allowed a = entry := by
          intro a ha
          by_contra hne
          exact hslips ⟨hpasses, addresses, entry, hwrite, a, ha, hne⟩
        refine ⟨?_, (congrArg State.transfers hs' :)⟩
        exact (congrArg State.allowed hs').trans (State.allowed_write_eq_iff.2 hentry)
    · exact ⟨congrArg State.allowed hpost, congrArg State.transfers hpost⟩

/-- **Exactly when a pause holds.** Over every stretch of a run that starts paused and in which no
call of `unpause` completes, whoever is the admin meanwhile: no entry changes and nothing is
forwarded, if and only if nothing slips through. -/
theorem pause_halts_iff (ext : Externals Address) (before during : List (Input Address))
    (hpaused : isPaused ((system ext).final before) = true)
    (hstays : ∀ e ∈ ((system ext).startingAt ((system ext).final before)).history during,
      ¬Unpauses e) :
    (∀ e ∈ ((system ext).startingAt ((system ext).final before)).history during, Halted e) ↔
      ∀ e ∈ ((system ext).startingAt ((system ext).final before)).history during,
        ¬SlipsThrough ext e := by
  have hpre := ((system ext).stretch_induction (P := fun t ↦ isPaused t = true) hpaused
    (fun _ _ ↦ isPaused_of_not_unpauses) hstays).2
  refine forall₂_congr fun e he ↦ ?_
  have hone := hpre e he
  rw [System.eq_stepFrom_of_mem_history _ he]
  exact halted_iff hone

/-- A contract with one account on the allowlist, paused. -/
def pausedSetup : List (Input ℕ) :=
  [⟨.granting, .pause 0⟩, ⟨.granting, .addToAllowlist 0 7 none⟩, ⟨.granting, .initialise 0 5⟩]

/-- A removal and a delegated addition, both refused, and an addition of what is there already. -/
def haltedCalls : List (Input ℕ) :=
  [⟨.granting, .addToAllowlist 0 7 none⟩, ⟨.granting, approval.call⟩,
    ⟨.granting, .removeFromAllowlist 0 7⟩]

theorem pause_halts_haltedCalls :
    (∀ e ∈ ((system .verifying).startingAt ((system .verifying).final pausedSetup)).history
        haltedCalls, Halted e) ↔
      ∀ e ∈ ((system .verifying).startingAt ((system .verifying).final pausedSetup)).history
        haltedCalls, ¬SlipsThrough .verifying e := by
  refine pause_halts_iff .verifying pausedSetup haltedCalls (by decide) ?_
  rintro e he ⟨⟨admin, hcall⟩, -⟩
  simp only [haltedCalls, System.history_cons, System.history_nil, List.mem_cons,
    List.not_mem_nil, or_false] at he
  rcases he with rfl | rfl | rfl <;> cases hcall

/-- **An addition during a pause.** The contract is paused, nothing unpauses it, and account 8 is
allowed afterwards. -/
theorem addition_while_paused :
    isPaused ((system .verifying).final pausedSetup) = true ∧
      isAllowed 1 ((system .verifying).final pausedSetup) 8 = false ∧
      isAllowed 1 ((system .verifying).final
        (⟨.granting, .addToAllowlist 0 8 none⟩ :: pausedSetup)) 8 = true ∧
      ¬∀ e ∈ ((system .verifying).startingAt ((system .verifying).final pausedSetup)).history
        [⟨.granting, .addToAllowlist 0 8 none⟩], ¬Unpauses e → Halted e := by
  refine ⟨by decide, by decide, by decide, fun h ↦ ?_⟩
  have hhalted := h _ List.mem_cons_self (by rintro ⟨⟨_, hcall⟩, -⟩; cases hcall)
  exact absurd (congrFun hhalted.allowed 8) (by decide)

end AllowlistToken
