import CompliancePrimitives.Contracts.AllowlistToken.Spec
import CompliancePrimitives.Foundation.Handover

/-!
# `allowlist-token`: who can change what

The entry points differ in whose agreement they ask for. `RoleStep` sorts what a completed call can
do by that: the admin role is handed over, the admin governs or grants, an approval of the delegated
key is presented, someone with compliance authority revokes, and anybody transfers. The facts about
whole runs in this directory are case analyses over it, and do not look at the entry points again.

What a kind of step leaves alone is in the equation it gives for the next state: a record of the
state before it, with the few fields it may have set anew. So a fact that a field does not change is
read off by rewriting, and no case has to say which fields there are.

Entries are written by three kinds of steps, and each says what it has passed: the admin's
authority, a verified signature, or the guard of the removals. Nothing else writes one, and a
transfer does not either.
-/

namespace AllowlistToken

open Soroban

variable {Address : Type}

/-- One step of a run of the contract. -/
abbrev Moment (Address : Type) :=
  Step (State Address) (Input Address) (Except (Failure Error) Value)

/-! ### What a call asks for -/

/-- The admin, and the proposed one. -/
def State.roles (s : State Address) : Handover.Roles Address := ⟨s.admin, s.pendingAdmin⟩

/-- What a call asks of the admin role. -/
def Call.move : Call Address → Handover.Move Address
  | .initialise admin _ => .found admin
  | .proposeAdmin currentAdmin newAdmin => .propose currentAdmin newAdmin
  | .acceptAdmin newAdmin => .accept newAdmin
  | .transferAdmin currentAdmin newAdmin => .transfer currentAdmin newAdmin
  | _ => .other

/-- The entry a call is to leave for some addresses. -/
def Call.write : Call Address → Option (List Address × Option AllowlistEntry)
  | .addToAllowlist _ address expirationLedger => some ([address], some { expirationLedger })
  | .addMultipleToAllowlist _ addresses expirationLedger =>
    some (addresses, some { expirationLedger })
  | .addToAllowlistDelegated _ address .. => some ([address], some { expirationLedger := none })
  | .removeFromAllowlist _ address => some ([address], none)
  | .removeMultipleFromAllowlist _ addresses => some (addresses, none)
  | _ => none

/-- What the three entry points are checked for that write entries and do not look at the pause
flag. -/
def Call.PassesUnguarded (ext : Externals Address) (env : Env Address) (s : State Address) :
    Call Address → Prop
  | .addToAllowlist admin _ expirationLedger =>
    env.auths admin = true ∧ s.admin = some admin ∧ isPast env expirationLedger = false
  | .addMultipleToAllowlist admin addresses expirationLedger =>
    env.auths admin = true ∧ s.admin = some admin ∧ addresses.length ≤ maxBatchSize ∧
      isPast env expirationLedger = false
  | .removeMultipleFromAllowlist admin addresses =>
    ext.complianceAuthority s env.auths admin = true ∧ addresses.length ≤ maxBatchSize
  | _ => False

/-- The event that announces what is left of an entry. -/
def entryEvent (entry : Option AllowlistEntry) (address : Address) : Event Address :=
  if entry.isSome then .allowAdd address else .allowRemove address

/-- The event announces what is left of an entry. -/
def Event.isEntryEvent : Event Address → Bool
  | .allowAdd _ | .allowRemove _ => true
  | _ => false

/-- Nothing was announced about an entry. -/
def Unannounced (s s' : State Address) : Prop :=
  ∃ events, s'.events = s.events ++ events ∧ ∀ e ∈ events, e.isEntryEvent = false

theorem Unannounced.of_eq {s s' : State Address} (h : s'.events = s.events) : Unannounced s s' :=
  ⟨[], h.trans (List.append_nil _).symm, by simp⟩

theorem Unannounced.of_event {s s' : State Address} {e : Event Address}
    (h : s'.events = s.events ++ [e]) (he : e.isEntryEvent = false) : Unannounced s s' :=
  ⟨[e], h, by simpa using he⟩

section

variable [DecidableEq Address] {ext : Externals Address} {env : Env Address}
  {s s' : State Address} {call : Call Address} {v : Value}

/-- The state with one entry for some addresses, or none, each announced. -/
def State.write (s : State Address) (addresses : List Address) (entry : Option AllowlistEntry) :
    State Address :=
  { s with
    allowed := fun a ↦ if a ∈ addresses then entry else s.allowed a
    events := s.events ++ addresses.map (entryEvent entry) }

theorem State.write_singleton (s : State Address) (address : Address)
    (entry : Option AllowlistEntry) :
    s.write [address] entry =
      { s with allowed := Function.update s.allowed address entry,
               events := s.events ++ [entryEvent entry address] } := by
  have hallowed : (fun a ↦ if a ∈ [address] then entry else s.allowed a) =
      Function.update s.allowed address entry := by
    funext a
    simp [Function.update_apply]
  rw [write, hallowed]
  rfl

/-- **What a completed call can do, by who has to agree to it.** -/
inductive RoleStep (ext : Externals Address) (env : Env Address) (call : Call Address)
    (s s' : State Address) : Prop
  /-- The admin role moves: `initialize`, a proposal, an acceptance. -/
  | handedOver (hmoves : Handover.Moves env.auths call.move s.roles s'.roles)
      (hne : call.move ≠ .other)
      (htoken : s'.token.isSome = true ∨ s.admin.isSome = true ∧ s'.token = s.token)
      (hquiet : Unannounced s s')
      (hs' : s' = { s with admin := s'.admin, pendingAdmin := s'.pendingAdmin, token := s'.token,
                           events := s'.events })
  /-- What the admin alone may do besides entries: officer, pause flag, key and upgrades. -/
  | governed (admin : Address) (hadmin : s.admin = some admin) (hauth : env.auths admin = true)
      (hmove : call.move = .other) (hwrite : call.write = none)
      (hpaused : (∃ a, call = .unpause a) ∨ s'.paused = s.paused ∨ s'.paused = some true)
      (hquiet : Unannounced s s')
      (hs' : s' = { s with complianceOfficer := s'.complianceOfficer, paused := s'.paused,
                           delegatedAdminPubKey := s'.delegatedAdminPubKey,
                           pendingUpgrade := s'.pendingUpgrade, installed := s'.installed,
                           events := s'.events })
  /-- Entries are written by the admin. -/
  | granted (admin : Address) (addresses : List Address) (entry : AllowlistEntry)
      (hadmin : s.admin = some admin) (hauth : env.auths admin = true)
      (hmove : call.move = .other) (hwrite : call.write = some (addresses, some entry))
      (hpasses : call.PassesUnguarded ext env s) (hs' : s' = s.write addresses (some entry))
  /-- An entry is written for a submission, whoever presents it. -/
  | delegated (sub : Submission Address) (hcall : call = sub.call)
      (hpres : sub.Presentable ext env s)
      (hs' : s' = s.write [sub.address] (some { expirationLedger := none }))
  /-- Entries are removed, with the authority the source asks of an officer. -/
  | revoked (caller : Address) (addresses : List Address)
      (hauthority : ext.complianceAuthority s env.auths caller = true)
      (hmove : call.move = .other) (hwrite : call.write = some (addresses, none))
      (hpasses : s.paused.getD false = false ∨ call.PassesUnguarded ext env s)
      (hs' : s' = s.write addresses none)
  /-- A transfer between parties that are not both allowed is announced, and goes no further. -/
  | blocked (source target : Address) (amount : ℤ) (hcall : call = .transfer source target amount)
      (hquiet : Unannounced s s') (hs' : s' = { s with events := s'.events })
  /-- A transfer is forwarded to the token. -/
  | forwarded (source target : Address) (amount : ℤ)
      (hcall : call = .transfer source target amount) (hpaused : isPaused s = false)
      (hs' : s' = { s with transfers := s'.transfers })

/-- **Every completed call is one of these.** -/
theorem invoke_roleStep (h : invoke ext env call s = .ok (v, s')) : RoleStep ext env call s s' := by
  cases call with
  | initialise admin token =>
    obtain ⟨_, h, -⟩ := Tx.bind_pure_eq_ok_iff.1 h
    obtain ⟨hnone, hauth, rfl⟩ := initialise_eq_ok_iff.1 h
    exact .handedOver (.found hnone hauth) (by simp [Call.move]) (.inl rfl) (.of_eq rfl) rfl
  -- what the admin sets besides entries is one kind of step, whatever it is
  | setDelegatedAdminKey admin pubkey =>
    obtain ⟨_, h, -⟩ := Tx.bind_pure_eq_ok_iff.1 h
    obtain ⟨hauth, hadmin, rfl⟩ := setDelegatedAdminKey_eq_ok_iff.1 h
    exact .governed admin hadmin hauth rfl rfl (.inr (.inl rfl)) (.of_eq rfl) rfl
  -- neither addition of the admin asks for the pause flag
  | addToAllowlist admin address expirationLedger =>
    obtain ⟨_, h, -⟩ := Tx.bind_pure_eq_ok_iff.1 h
    obtain ⟨hauth, hadmin, hpast, rfl⟩ := addToAllowlist_eq_ok_iff.1 h
    exact .granted admin [address] { expirationLedger } hadmin hauth rfl rfl
      ⟨hauth, hadmin, hpast⟩ (s.write_singleton address _).symm
  | addMultipleToAllowlist admin addresses expirationLedger =>
    obtain ⟨_, h, -⟩ := Tx.bind_pure_eq_ok_iff.1 h
    obtain ⟨hauth, hadmin, hlength, hpast, rfl⟩ := addMultipleToAllowlist_eq_ok_iff.1 h
    exact .granted admin addresses { expirationLedger } hadmin hauth rfl rfl
      ⟨hauth, hadmin, hlength, hpast⟩ rfl
  -- anyone may present it: all authority is in the submission
  | addToAllowlistDelegated admin address nonce expiry signature =>
    obtain ⟨_, h, -⟩ := Tx.bind_pure_eq_ok_iff.1 h
    let sub : Submission Address := ⟨admin, address, nonce, expiry, signature⟩
    have hsub : addToAllowlistDelegated ext env sub.admin sub.address sub.nonce sub.expiry
        sub.signature s = .ok ((), s') := h
    obtain ⟨hpres, -, rfl⟩ := addToAllowlistDelegated_eq_ok_iff.1 hsub
    exact .delegated sub rfl hpres (s.write_singleton address _).symm
  -- the single removal asks for the pause flag, the other one does not
  | removeFromAllowlist admin address =>
    obtain ⟨_, h, -⟩ := Tx.bind_pure_eq_ok_iff.1 h
    obtain ⟨hpaused, hauthority, rfl⟩ := removeFromAllowlist_eq_ok_iff.1 h
    exact .revoked admin [address] hauthority rfl rfl (.inl hpaused)
      (s.write_singleton address none).symm
  | removeMultipleFromAllowlist admin addresses =>
    obtain ⟨_, h, -⟩ := Tx.bind_pure_eq_ok_iff.1 h
    obtain ⟨hauthority, hlength, rfl⟩ := removeMultipleFromAllowlist_eq_ok_iff.1 h
    exact .revoked admin addresses hauthority rfl rfl (.inr ⟨hauthority, hlength⟩) rfl
  | setComplianceOfficer admin officer =>
    obtain ⟨_, h, -⟩ := Tx.bind_pure_eq_ok_iff.1 h
    obtain ⟨hauth, hadmin, rfl⟩ := setComplianceOfficer_eq_ok_iff.1 h
    exact .governed admin hadmin hauth rfl rfl (.inr (.inl rfl)) (.of_eq rfl) rfl
  | revokeComplianceOfficer admin =>
    obtain ⟨_, h, -⟩ := Tx.bind_pure_eq_ok_iff.1 h
    obtain ⟨hauth, hadmin, rfl⟩ := revokeComplianceOfficer_eq_ok_iff.1 h
    exact .governed admin hadmin hauth rfl rfl (.inr (.inl rfl)) (.of_eq rfl) rfl
  -- the three ways to move the role, besides founding it
  | proposeAdmin currentAdmin newAdmin =>
    obtain ⟨_, h, -⟩ := Tx.bind_pure_eq_ok_iff.1 h
    obtain ⟨hauth, hadmin, rfl⟩ := proposeAdmin_eq_ok_iff.1 h
    exact .handedOver (.propose hadmin hauth) (by simp [Call.move])
      (.inr ⟨Option.isSome_iff_exists.2 ⟨_, hadmin⟩, rfl⟩) (.of_event rfl rfl) rfl
  | acceptAdmin newAdmin =>
    obtain ⟨_, h, -⟩ := Tx.bind_pure_eq_ok_iff.1 h
    obtain ⟨hauth, hpending, _, hadmin, rfl⟩ := acceptAdmin_eq_ok_iff.1 h
    exact .handedOver (.accept hadmin hpending hauth) (by simp [Call.move])
      (.inr ⟨Option.isSome_iff_exists.2 ⟨_, hadmin⟩, rfl⟩) (.of_event rfl rfl) rfl
  | transferAdmin currentAdmin newAdmin =>
    obtain ⟨_, h, -⟩ := Tx.bind_pure_eq_ok_iff.1 h
    obtain ⟨hauth, hadmin, rfl⟩ := transferAdmin_eq_ok_iff.1 h
    exact .handedOver (.transfer hadmin hauth) (by simp [Call.move])
      (.inr ⟨Option.isSome_iff_exists.2 ⟨_, hadmin⟩, rfl⟩) (.of_event rfl rfl) rfl
  | proposeUpgrade admin newWasm delayLedgers =>
    obtain ⟨_, h, -⟩ := Tx.bind_pure_eq_ok_iff.1 h
    obtain ⟨hauth, hadmin, -, rfl⟩ := proposeUpgrade_eq_ok_iff.1 h
    exact .governed admin hadmin hauth rfl rfl (.inr (.inl rfl)) (.of_event rfl rfl) rfl
  | commitUpgrade admin =>
    obtain ⟨_, h, -⟩ := Tx.bind_pure_eq_ok_iff.1 h
    obtain ⟨hauth, hadmin, _, -, -, rfl⟩ := commitUpgrade_eq_ok_iff.1 h
    exact .governed admin hadmin hauth rfl rfl (.inr (.inl rfl)) (.of_event rfl rfl) rfl
  | cancelUpgrade admin =>
    obtain ⟨_, h, -⟩ := Tx.bind_pure_eq_ok_iff.1 h
    obtain ⟨hauth, hadmin, rfl⟩ := cancelUpgrade_eq_ok_iff.1 h
    exact .governed admin hadmin hauth rfl rfl (.inr (.inl rfl)) (.of_event rfl rfl) rfl
  | pause admin =>
    obtain ⟨_, h, -⟩ := Tx.bind_pure_eq_ok_iff.1 h
    obtain ⟨hauth, hadmin, rfl⟩ := pause_eq_ok_iff.1 h
    exact .governed admin hadmin hauth rfl rfl (.inr (.inr rfl)) (.of_event rfl rfl) rfl
  | unpause admin =>
    obtain ⟨_, h, -⟩ := Tx.bind_pure_eq_ok_iff.1 h
    obtain ⟨hauth, hadmin, rfl⟩ := unpause_eq_ok_iff.1 h
    exact .governed admin hadmin hauth rfl rfl (.inl ⟨admin, rfl⟩) (.of_event rfl rfl) rfl
  -- a transfer that completes was announced as blocked, or forwarded
  | transfer source target amount =>
    obtain ⟨forwarded, h, -⟩ := Tx.bind_pure_eq_ok_iff.1 h
    obtain ⟨-, hpaused, -, -, -, ⟨-, -, rfl⟩ | ⟨-, -, _, -, -, rfl⟩⟩ := transfer_eq_ok_iff.1 h
    · exact .blocked source target amount rfl (.of_event rfl rfl) rfl
    · exact .forwarded source target amount rfl hpaused rfl

/-- What a completed call does to the admin role is a move. -/
theorem RoleStep.moves (h : RoleStep ext env call s s') :
    Handover.Moves env.auths call.move s.roles s'.roles := by
  cases h with
  | handedOver hmoves => exact hmoves
  | governed _ _ _ hmove _ _ _ hs' => exact .of_kept hmove (by rw [hs']; rfl)
  | granted _ _ _ _ _ hmove _ _ hs' => exact .of_kept hmove (by rw [hs']; rfl)
  | delegated sub hcall _ hs' => exact .of_kept (by rw [hcall]; rfl) (by rw [hs']; rfl)
  | revoked _ _ _ hmove _ _ hs' => exact .of_kept hmove (by rw [hs']; rfl)
  | blocked _ _ _ hcall _ hs' => exact .of_kept (by rw [hcall]; rfl) (by rw [hs']; rfl)
  | forwarded _ _ _ hcall _ hs' => exact .of_kept (by rw [hcall]; rfl) (by rw [hs']; rfl)

/-- A committed invocation either completed as one of these, or changed nothing. -/
theorem exec_roleStep (ext : Externals Address) (i : Input Address) (s : State Address) :
    ((∃ v, ((system ext).exec i s).1 = .ok v) ∧
        RoleStep ext i.env i.call s ((system ext).exec i s).2) ∨
      (∃ f, ((system ext).exec i s).1 = .error f) ∧ ((system ext).exec i s).2 = s := by
  rcases Tx.commit_answer (invoke ext i.env i.call) s with ⟨v, hresult, hok⟩ | hkept
  · exact .inl ⟨⟨v, hresult⟩, invoke_roleStep hok⟩
  · exact .inr hkept

end

end AllowlistToken
