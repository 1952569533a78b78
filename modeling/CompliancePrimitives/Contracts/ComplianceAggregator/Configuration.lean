import CompliancePrimitives.Contracts.ComplianceAggregator.Batch
import CompliancePrimitives.Foundation.Replay

/-!
# `compliance-aggregator`: the configuration, rebuilt from its events

Off-chain tooling consumes the configuration events to know which checks are registered. It keeps,
for each of the four settings, the address of the last event that sets it (`rebuilt`). Every
setter announces what it stores, and so does `initialize`. The two `clear_` entry points announce
nothing, and there is no event they could announce: a check they unregister stays registered for
whoever follows the events, until it is set anew (`configuration_rebuilt_iff`).

What is compared is whole histories: `Follows` says that what a call added to the events rebuilds
exactly what it did to the settings, it composes along a run, and the two clearing calls are the
only completed ones that are not such steps. So the rebuilt configuration is the stored one unless a
clearing call removed something that has not been set again since.
-/

namespace ComplianceAggregator

open Soroban

/-- What is configured: the admin, and the three checks of `get_config`. -/
inductive Setting where
  | admin
  | denylistGate
  | jurisdictionFlag
  | circuitBreaker
  deriving DecidableEq, Repr

variable {Address : Type}

/-- One step of a run. -/
abbrev Moment (Address : Type) := Step (State Address) (Input Address) (Except (Failure Error) Unit)

/-- What is stored for a setting. -/
def stored (s : State Address) : Setting → Option Address
  | .admin => s.admin
  | .denylistGate => s.denylistGate
  | .jurisdictionFlag => s.jurisdictionFlag
  | .circuitBreaker => s.circuitBreaker

/-- What an event says about the configuration. -/
def Event.write : Event Address → Option (Write Setting Address)
  | .adminSet admin => some ⟨.admin, some admin⟩
  | .denylistGateSet gate => some ⟨.denylistGate, some gate⟩
  | .jurisdictionFlagSet flag => some ⟨.jurisdictionFlag, some flag⟩
  | .circuitBreakerSet breaker => some ⟨.circuitBreaker, some breaker⟩
  | .upgradePerformed _ _ | .paused | .unpaused => none

/-- The configuration events, as writes. -/
def configLog (s : State Address) : List (Write Setting Address) := s.events.filterMap Event.write

/-- **The configuration the events tell**: the last event of each kind. -/
def rebuilt (s : State Address) (x : Setting) : Option Address :=
  (lastWrite (configLog s) x).bind Write.value

theorem rebuilt_eq_replay (s : State Address) :
    rebuilt s = replay (fun _ ↦ none) (configLog s) := by
  funext x
  exact (replay_empty (configLog s) x).symm

/-- What `get_config` would be if it were read off the events. -/
def rebuiltConfig (s : State Address) : AggregatorConfig Address where
  denylistGate := rebuilt s .denylistGate
  jurisdictionFlag := rebuilt s .jurisdictionFlag
  circuitBreaker := rebuilt s .circuitBreaker

/-- **The configuration can be rebuilt from the events.** -/
def Rebuilds (s : State Address) : Prop :=
  rebuilt s .admin = s.admin ∧ rebuiltConfig s = getConfig s

theorem rebuilds_iff {s : State Address} : Rebuilds s ↔ ∀ x, stored s x = rebuilt s x := by
  constructor
  · rintro ⟨hadmin, hconfig⟩ x
    cases x with
    | admin => exact hadmin.symm
    | denylistGate => exact (congrArg AggregatorConfig.denylistGate hconfig).symm
    | jurisdictionFlag => exact (congrArg AggregatorConfig.jurisdictionFlag hconfig).symm
    | circuitBreaker => exact (congrArg AggregatorConfig.circuitBreaker hconfig).symm
  · intro h
    refine ⟨(h .admin).symm, ?_⟩
    rw [rebuiltConfig, ← h .denylistGate, ← h .jurisdictionFlag, ← h .circuitBreaker]
    rfl

/-! ### Who changes the configuration -/

/-- The guards of the configuration setters. -/
structure Admits (env : Env Address) (s : State Address) (admin : Address) : Prop where
  /-- The contract is not paused. -/
  running : isPaused s = false
  /-- The caller has authorized the call, -/
  auth : env.auths admin = true
  /-- and is the admin. -/
  admin_eq : s.admin = some admin

/-- The call that sets a setting. -/
def Setting.set (admin address : Address) : Setting → Call Address
  | .admin => .setAdmin admin address
  | .denylistGate => .setDenylistGate admin address
  | .jurisdictionFlag => .setJurisdictionFlag admin address
  | .circuitBreaker => .setCircuitBreaker admin address

/-- The call that unregisters a check. There is none for the admin, and none for the breaker. -/
inductive Clears (admin : Address) : Setting → Call Address → Prop
  | denylistGate : Clears admin .denylistGate (.clearDenylistGate admin)
  | jurisdictionFlag : Clears admin .jurisdictionFlag (.clearJurisdictionFlag admin)

/-- The calls that set a setting or unregister a check. -/
def Call.Configures : Call Address → Prop
  | .setAdmin _ _ | .setDenylistGate _ _ | .setJurisdictionFlag _ _ | .setCircuitBreaker _ _
  | .clearDenylistGate _ | .clearJurisdictionFlag _ => True
  | .initialise _ _ _ _ | .pause _ | .unpause _ | .upgrade _ _ => False

theorem Setting.configures_set (x : Setting) (admin address : Address) :
    (x.set admin address).Configures := by
  cases x <;> trivial

theorem Clears.configures {admin : Address} {x : Setting} {call : Call Address}
    (h : Clears admin x call) : call.Configures := by
  cases h <;> trivial

/-- A setting is set by one call only. -/
theorem Setting.set_inj {x y : Setting} {admin admin' address address' : Address}
    (h : x.set admin address = y.set admin' address') : x = y := by
  cases x <;> cases y <;> first | rfl | cases h

theorem Clears.ne_set {admin admin' address : Address} {x y : Setting}
    (h : Clears admin x (y.set admin' address)) : False := by
  cases y <;> cases h

theorem Clears.inj {admin admin' : Address} {x y : Setting} {call : Call Address}
    (h : Clears admin x call) (h' : Clears admin' y call) : x = y := by
  cases h <;> cases h' <;> rfl

/-- The step sets `x`. -/
def Registers (x : Setting) (e : Moment Address) : Prop :=
  ∃ admin address, e.input.call = x.set admin address ∧ Admits e.input.env e.pre admin

/-- The step unregisters `x`, which was registered. -/
def Silences (x : Setting) (e : Moment Address) : Prop :=
  ∃ admin, Clears admin x e.input.call ∧ Admits e.input.env e.pre admin ∧
    (stored e.pre x).isSome = true

/-- A transition whose changes of the configuration are all announced, in order. -/
def Follows (s s' : State Address) : Prop :=
  ∃ writes, stored s' = replay (stored s) writes ∧ configLog s' = configLog s ++ writes

theorem Follows.trans {s₁ s₂ s₃ : State Address} (h : Follows s₁ s₂) (h' : Follows s₂ s₃) :
    Follows s₁ s₃ := by
  obtain ⟨ws, hstored, hlog⟩ := h
  obtain ⟨ws', hstored', hlog'⟩ := h'
  refine ⟨ws ++ ws', ?_, ?_⟩
  · rw [hstored', hstored, replay_append]
  · rw [hlog', hlog, List.append_assoc]

/-- **What a completed call does to the configuration.** -/
inductive ConfigStep (env : Env Address) (s s' : State Address) (call : Call Address) : Prop
  /-- `initialize`, once, which announces the settings it is given. -/
  | founded (hother : ¬call.Configures)
      (hnone : s.admin = none) (hfollows : Follows s s')
  /-- A setter stores and announces. -/
  | set (x : Setting) (admin address : Address) (hcall : call = x.set admin address)
      (hguard : Admits env s admin)
      (hstored : stored s' = Function.update (stored s) x (some address))
      (hlog : configLog s' = configLog s ++ [⟨x, some address⟩])
  /-- A `clear_*` call removes, and announces nothing. -/
  | cleared (x : Setting) (admin : Address) (hcall : Clears admin x call)
      (hguard : Admits env s admin) (hstored : stored s' = Function.update (stored s) x none)
      (hlog : configLog s' = configLog s)
  /-- Every other call leaves the configuration alone. -/
  | kept (hother : ¬call.Configures) (hstored : stored s' = stored s)
      (hlog : configLog s' = configLog s)

section

variable [DecidableEq Address] {env : Env Address} {s s' : State Address} {call : Call Address}
  {u : Unit}

/-! ### When a call completes -/

omit [DecidableEq Address] in
@[simp]
theorem publish_eq_ok_iff {e : Event Address} :
    publish e s = .ok (u, s') ↔ s' = { s with events := s.events ++ [e] } :=
  Tx.modify_eq_ok_iff

omit [DecidableEq Address] in
@[simp]
theorem extendInstanceTtl_eq_ok_iff :
    extendInstanceTtl env s = .ok (u, s') ↔
      s' = { s with
        liveUntil := extendTtl instanceTtlThreshold instanceTtlExtendTo env.sequence
          s.liveUntil } :=
  Tx.modify_eq_ok_iff

omit [DecidableEq Address] in
@[simp]
theorem register_eq_ok_iff {store : Address → State Address → State Address}
    {event : Address → Event Address} {registered : Option Address} :
    register store event registered s = .ok (u, s') ↔
      s' = registered.elim s fun address ↦
        { store address s with events := (store address s).events ++ [event address] } := by
  cases registered <;> simp [register]

/-- **What every configuration setter asks for**, and does. -/
theorem configure_eq_ok_iff {admin : Address} {write : State Address → State Address}
    {announce : Op Address Unit} :
    configure env admin write announce s = .ok (u, s') ↔
      Admits env s admin ∧
        announce { write s with
          liveUntil := extendTtl instanceTtlThreshold instanceTtlExtendTo env.sequence
            (write s).liveUntil } = .ok (u, s') := by
  simp only [configure, requireNotPaused, requireAdmin, Tx.bind_eq_ok_iff,
    Pausable.requireNotPausedOr_eq_ok_iff, requireStored_eq_ok_iff, Tx.modify_eq_ok_iff,
    extendInstanceTtl_eq_ok_iff, and_assoc, exists_and_left, exists_eq_left, exists_const]
  constructor
  · rintro ⟨hrunning, hauth, hadmin, h⟩
    exact ⟨⟨hrunning, hauth, hadmin⟩, h⟩
  · rintro ⟨⟨hrunning, hauth, hadmin⟩, h⟩
    exact ⟨hrunning, hauth, hadmin, h⟩

omit [DecidableEq Address] in
/-- One event more. -/
theorem configLog_concat {e : Event Address} (h : s'.events = s.events ++ [e]) :
    configLog s' = configLog s ++ e.write.toList := by
  rw [configLog, h, List.filterMap_append]
  cases hwrite : e.write <;> simp [configLog, hwrite]

omit [DecidableEq Address] in
/-- One registration of `initialize`. -/
theorem follows_register (x : Setting) {store : Address → State Address → State Address}
    {event : Address → Event Address} {registered : Option Address}
    (hstore : ∀ address, stored (store address s) = Function.update (stored s) x (some address))
    (hevents : ∀ address, (store address s).events = s.events)
    (hevent : ∀ address, (event address).write = some ⟨x, some address⟩)
    (h : register store event registered s = .ok (u, s')) : Follows s s' := by
  rw [register_eq_ok_iff] at h
  cases registered with
  | none => exact ⟨[], by rw [h]; rfl, by rw [h, List.append_nil]; rfl⟩
  | some address =>
    refine ⟨[⟨x, some address⟩], ?_, ?_⟩
    · have hsame : stored s' = stored (store address s) := by
        rw [h]
        funext y
        cases y <;> rfl
      rw [hsame, hstore]
      rfl
    · have hlog : s'.events = s.events ++ [event address] := by
        rw [h, ← hevents address]
        rfl
      rw [configLog_concat hlog, hevent]
      rfl

omit [DecidableEq Address] in
/-- `initialize` announces what it stores. -/
theorem initialise_ok {admin : Address} {gate flag breaker : Option Address}
    (h : initialise env admin gate flag breaker s = .ok (u, s')) :
    s.admin = none ∧ Follows s s' := by
  simp only [initialise, Tx.bind_eq_ok_iff, Tx.get_eq_ok_iff, Tx.ensure_eq_ok_iff,
    requireAuth_eq_ok_iff, Tx.modify_eq_ok_iff, publish_eq_ok_iff,
    extendInstanceTtl_eq_ok_iff] at h
  obtain ⟨_, _, ⟨rfl, rfl⟩, _, _, ⟨hnone, rfl⟩, _, s, ⟨-, rfl⟩, _, s₁, hs₁, _, s₂, hs₂, _, s₃,
    hgate, _, s₄, hflag, _, s₅, hbreaker, hs'⟩ := h
  have hadmin : Follows s s₂ := by
    refine ⟨[⟨.admin, some admin⟩], ?_, ?_⟩
    · rw [hs₂, hs₁]
      funext x
      cases x <;> rfl
    · rw [configLog_concat (s := s) (e := .adminSet admin) (by rw [hs₂, hs₁])]
      rfl
  have hlast : Follows s₅ s' := by
    refine ⟨[], ?_, ?_⟩
    · rw [hs']
      rfl
    · rw [hs', List.append_nil]
      rfl
  have hgate' : Follows s₂ s₃ :=
    follows_register .denylistGate (fun _ ↦ by funext x; cases x <;> rfl) (fun _ ↦ rfl)
      (fun _ ↦ rfl) hgate
  have hflag' : Follows s₃ s₄ :=
    follows_register .jurisdictionFlag (fun _ ↦ by funext x; cases x <;> rfl) (fun _ ↦ rfl)
      (fun _ ↦ rfl) hflag
  have hbreaker' : Follows s₄ s₅ :=
    follows_register .circuitBreaker (fun _ ↦ by funext x; cases x <;> rfl) (fun _ ↦ rfl)
      (fun _ ↦ rfl) hbreaker
  exact ⟨hnone, (((hadmin.trans hgate').trans hflag').trans hbreaker').trans hlast⟩

/-- A setter that stores an address and announces it. -/
theorem configStep_set (x : Setting) {admin address : Address}
    {write : State Address → State Address} {event : Event Address}
    (hcall : call = x.set admin address)
    (hstored : stored (write s) = Function.update (stored s) x (some address))
    (hevents : (write s).events = s.events) (hevent : event.write = some ⟨x, some address⟩)
    (h : configure env admin write (publish event) s = .ok (u, s')) : ConfigStep env s s' call := by
  obtain ⟨hguard, h⟩ := configure_eq_ok_iff.1 h
  rw [publish_eq_ok_iff] at h
  refine .set x admin address hcall hguard ?_ ?_
  · rw [← hstored, h]
    funext y
    cases y <;> rfl
  · have hlog : s'.events = s.events ++ [event] := by rw [h, ← hevents]
    rw [configLog_concat hlog, hevent]
    rfl

/-- A setter that takes an address away, and announces nothing. -/
theorem configStep_clear (x : Setting) {admin : Address} {write : State Address → State Address}
    (hcall : Clears admin x call)
    (hstored : stored (write s) = Function.update (stored s) x none)
    (hevents : (write s).events = s.events)
    (h : configure env admin write (pure ()) s = .ok (u, s')) : ConfigStep env s s' call := by
  obtain ⟨hguard, h⟩ := configure_eq_ok_iff.1 h
  obtain ⟨-, h⟩ := Tx.pure_eq_ok_iff.1 h
  refine .cleared x admin hcall hguard ?_ ?_
  · rw [← hstored, h]
    funext y
    cases y <;> rfl
  · rw [configLog, h]
    exact congrArg (List.filterMap Event.write) hevents

omit [DecidableEq Address] in
/-- What is not about the configuration. -/
theorem configStep_kept {e : Event Address} (hcall : ¬call.Configures)
    (hstored : stored s' = stored s) (hevents : s'.events = s.events ++ [e])
    (he : e.write = none) : ConfigStep env s s' call := by
  refine .kept hcall hstored ?_
  rw [configLog_concat hevents, he]
  exact List.append_nil _

/-- **Every completed call is such a step.** -/
theorem invoke_configStep (h : invoke env call s = .ok (u, s')) : ConfigStep env s s' call := by
  cases call with
  | initialise admin gate flag breaker =>
    obtain ⟨hnone, hfollows⟩ := initialise_ok h
    exact .founded id hnone hfollows
  | pause admin =>
    simp only [invoke, pause, requireAdmin, Tx.bind_eq_ok_iff, requireStored_eq_ok_iff,
      Tx.modify_eq_ok_iff, extendInstanceTtl_eq_ok_iff, publish_eq_ok_iff, and_assoc,
      exists_and_left, exists_eq_left, exists_const] at h
    obtain ⟨-, -, rfl⟩ := h
    exact configStep_kept id (by funext x; cases x <;> rfl) rfl rfl
  | unpause admin =>
    simp only [invoke, unpause, requireAdmin, Tx.bind_eq_ok_iff, requireStored_eq_ok_iff,
      Tx.modify_eq_ok_iff, extendInstanceTtl_eq_ok_iff, publish_eq_ok_iff, and_assoc,
      exists_and_left, exists_eq_left, exists_const] at h
    obtain ⟨-, -, rfl⟩ := h
    exact configStep_kept id (by funext x; cases x <;> rfl) rfl rfl
  | upgrade admin newWasmHash =>
    simp only [invoke, upgrade, requireAdmin, Tx.bind_eq_ok_iff, requireStored_eq_ok_iff,
      Tx.modify_eq_ok_iff, publish_eq_ok_iff, and_assoc, exists_and_left, exists_eq_left,
      exists_const] at h
    obtain ⟨-, -, rfl⟩ := h
    exact configStep_kept id (by funext x; cases x <;> rfl) rfl rfl
  | setAdmin admin newAdmin =>
    exact configStep_set .admin rfl (by funext x; cases x <;> rfl) rfl rfl h
  | setDenylistGate admin gate =>
    exact configStep_set .denylistGate rfl (by funext x; cases x <;> rfl) rfl rfl h
  | setJurisdictionFlag admin flag =>
    exact configStep_set .jurisdictionFlag rfl (by funext x; cases x <;> rfl) rfl rfl h
  | setCircuitBreaker admin breaker =>
    exact configStep_set .circuitBreaker rfl (by funext x; cases x <;> rfl) rfl rfl h
  -- a clearing call stores that there is none, and announces nothing
  | clearDenylistGate admin =>
    exact configStep_clear .denylistGate .denylistGate (by funext x; cases x <;> rfl) rfl h
  | clearJurisdictionFlag admin =>
    exact configStep_clear .jurisdictionFlag .jurisdictionFlag (by funext x; cases x <;> rfl) rfl h

/-! ### Calls that do complete -/

/-- Whoever passes the guards sets a setting. -/
theorem exists_invoke_set (x : Setting) {admin : Address} (address : Address)
    (h : Admits env s admin) : ∃ s', invoke env (x.set admin address) s = .ok ((), s') := by
  cases x <;> exact ⟨_, configure_eq_ok_iff.2 ⟨h, publish_eq_ok_iff.2 rfl⟩⟩

/-- Whoever passes the guards unregisters a check. -/
theorem exists_invoke_clear {x : Setting} {admin : Address} (hcall : Clears admin x call)
    (h : Admits env s admin) : ∃ s', invoke env call s = .ok ((), s') := by
  cases hcall <;> exact ⟨_, configure_eq_ok_iff.2 ⟨h, Tx.pure_eq_ok_iff.2 ⟨rfl, rfl⟩⟩⟩

variable (liveUntil : ℕ)

/-- **Every step of a run** completes as one of these, or leaves everything alone. -/
theorem exec_configStep (i : Input Address) (s : State Address) :
    ConfigStep i.env s ((system liveUntil).exec i s).2 i.call ∨
      ((system liveUntil).exec i s).2 = s ∧
        ∀ x, ¬Registers x ((system liveUntil).stepFrom s i) ∧
          ¬Silences x ((system liveUntil).stepFrom s i) := by
  rcases Tx.commit_cases (invoke i.env i.call) s with ⟨_, s', hok, hcommit⟩ | ⟨f, herr, hcommit⟩
  · have hpost : ((system liveUntil).exec i s).2 = s' := congrArg Prod.snd hcommit
    rw [hpost]
    exact .inl (invoke_configStep hok)
  · refine .inr ⟨congrArg Prod.snd hcommit, fun x ↦ ⟨?_, ?_⟩⟩
    · rintro ⟨admin, address, hcall, hguard⟩
      obtain ⟨s', hok⟩ := exists_invoke_set x address hguard
      have hcall' : i.call = x.set admin address := hcall
      rw [← hcall'] at hok
      cases herr.symm.trans hok
    · rintro ⟨admin, hcall, hguard, -⟩
      obtain ⟨s', hok⟩ := exists_invoke_clear hcall hguard
      cases herr.symm.trans hok

/-! ### What the events say -/

/-- **What the events say about a setting**: what is stored, unless a check that was unregistered
has not been set since. Then nothing is stored, and the events say otherwise. -/
structure Traced (h : List (Moment Address)) (s : State Address) (x : Setting) : Prop where
  /-- Unregistered since, the setting is gone from storage but not from what the events say. -/
  silenced : Since (Registers x) (Silences x) h →
    s.admin ≠ none ∧ stored s x = none ∧ rebuilt s x ≠ none
  /-- Otherwise the events say what is stored. -/
  traced : ¬Since (Registers x) (Silences x) h → stored s x = rebuilt s x

omit [DecidableEq Address] in
theorem rebuilt_append {writes : List (Write Setting Address)}
    (h : configLog s' = configLog s ++ writes) : rebuilt s' = replay (rebuilt s) writes := by
  rw [rebuilt_eq_replay, h, replay_append, ← rebuilt_eq_replay]

omit [DecidableEq Address] in
/-- What is not about a setting keeps it traced. -/
theorem Traced.keep {h : List (Moment Address)} {e : Moment Address} {x : Setting}
    (hs : Traced h s x) (hregisters : ¬Registers x e) (hsilences : ¬Silences x e)
    (hstored : stored s' x = stored s x) (hrebuilt : rebuilt s' x = rebuilt s x)
    (hadmin : s.admin ≠ none → s'.admin ≠ none) : Traced (e :: h) s' x where
  silenced hsince := by
    rw [hstored, hrebuilt]
    obtain ⟨hsome, hrest⟩ := hs.silenced (hsince.2.resolve_left hsilences)
    exact ⟨hadmin hsome, hrest⟩
  traced hsince := by
    rw [hstored, hrebuilt]
    exact hs.traced fun hpast ↦ hsince ⟨hregisters, .inr hpast⟩

section

variable {h : List (Moment Address)} {e : Moment Address} {x y : Setting} {admin address : Address}

omit [DecidableEq Address] in
/-- Before the contract has an admin nothing has been unregistered. -/
theorem traced_founded (hs : ∀ x, Traced h e.pre x) (hother : ¬e.input.call.Configures)
    (hnone : e.pre.admin = none) (hfollows : Follows e.pre s') : Traced (e :: h) s' x := by
  have hquiet : ∀ y, ¬Since (Registers y) (Silences y) h :=
    fun y hsince ↦ ((hs y).silenced hsince).1 hnone
  have hall : stored e.pre = rebuilt e.pre := funext fun y ↦ (hs y).traced (hquiet y)
  have hsilences : ¬Silences x e :=
    fun hsilences ↦ hother hsilences.choose_spec.1.configures
  obtain ⟨writes, hstored, hlog⟩ := hfollows
  refine ⟨fun hsince ↦ ?_, fun _ ↦ ?_⟩
  · exact absurd (hsince.2.resolve_left hsilences) (hquiet x)
  · rw [hstored, rebuilt_append hlog, hall]

omit [DecidableEq Address] in
/-- A setting that is set is traced from then on, and the others are left alone. -/
theorem traced_set (hs : Traced h e.pre x) (hcall : e.input.call = y.set admin address)
    (hguard : Admits e.input.env e.pre admin)
    (hstored : stored s' = Function.update (stored e.pre) y (some address))
    (hlog : configLog s' = configLog e.pre ++ [⟨y, some address⟩]) : Traced (e :: h) s' x := by
  have hrebuilt := rebuilt_append hlog
  by_cases hxy : x = y
  · subst hxy
    refine ⟨fun hsince ↦ absurd ⟨admin, address, hcall, hguard⟩ hsince.1, fun _ ↦ ?_⟩
    rw [hstored, hrebuilt, replay_cons, replay_nil, Write.apply, Function.update_self,
      Function.update_self]
  · refine hs.keep ?_ ?_ ?_ ?_ fun hsome ↦ ?_
    · rintro ⟨admin', address', hcall', -⟩
      exact hxy (Setting.set_inj (hcall'.symm.trans hcall))
    · rintro ⟨admin', hclears, -⟩
      rw [hcall] at hclears
      exact hclears.ne_set
    · rw [hstored, Function.update_of_ne hxy]
    · rw [hrebuilt, replay_cons, replay_nil, Write.apply, Function.update_of_ne hxy]
    · show stored s' .admin ≠ none
      rw [hstored, Function.update_apply]
      split
      · exact Option.some_ne_none address
      · exact hsome

omit [DecidableEq Address] in
/-- A check that is unregistered is no longer traced if it was registered. -/
theorem traced_cleared (hs : Traced h e.pre x) (hcall : Clears admin y e.input.call)
    (hguard : Admits e.input.env e.pre admin)
    (hstored : stored s' = Function.update (stored e.pre) y none)
    (hlog : configLog s' = configLog e.pre) : Traced (e :: h) s' x := by
  have hrebuilt : rebuilt s' = rebuilt e.pre := by
    rw [rebuilt_eq_replay, hlog, ← rebuilt_eq_replay]
  have hadmin : s'.admin = e.pre.admin := by
    have hne : Setting.admin ≠ y := by
      rintro rfl
      cases hcall
    show stored s' .admin = e.pre.admin
    rw [hstored, Function.update_of_ne hne]
    rfl
  have hregisters : ¬Registers x e := by
    rintro ⟨admin', address, hset, -⟩
    rw [hset] at hcall
    exact hcall.ne_set
  by_cases hsilences : Silences x e
  · -- the check was registered, and the events go on saying so
    refine ⟨fun _ ↦ ?_, fun hsince ↦ absurd ⟨hregisters, .inl hsilences⟩ hsince⟩
    obtain ⟨admin', hcall', -, hwas⟩ := hsilences
    obtain rfl : y = x := hcall.inj hcall'
    have hnot : ¬Since (Registers y) (Silences y) h := by
      intro hsince
      rw [(hs.silenced hsince).2.1] at hwas
      cases hwas
    refine ⟨hadmin ▸ hguard.admin_eq ▸ Option.some_ne_none admin, ?_, ?_⟩
    · rw [hstored, Function.update_self]
    · rw [hrebuilt, ← hs.traced hnot]
      exact Option.isSome_iff_ne_none.1 hwas
  · refine hs.keep hregisters hsilences ?_ (congrFun hrebuilt x) fun hsome ↦ ?_
    · rw [hstored, Function.update_apply]
      split
      case isTrue hxy =>
        subst hxy
        -- the check was not registered in the first place
        by_contra hne
        exact hsilences ⟨admin, hcall, hguard, Option.isSome_iff_ne_none.2 fun h ↦ hne h.symm⟩
      case isFalse => rfl
    · rwa [hadmin]

omit [DecidableEq Address] in
/-- Other calls leave all settings traced. -/
theorem traced_kept (hs : Traced h e.pre x) (hother : ¬e.input.call.Configures)
    (hstored : stored s' = stored e.pre) (hlog : configLog s' = configLog e.pre) :
    Traced (e :: h) s' x := by
  have hadmin : s'.admin = e.pre.admin := congrFun hstored .admin
  refine hs.keep ?_ ?_ (congrFun hstored x) ?_ fun hsome ↦ ?_
  · rintro ⟨admin, address, hset, -⟩
    rw [hset] at hother
    exact hother (x.configures_set admin address)
  · exact fun hsilences ↦ hother hsilences.choose_spec.1.configures
  · rw [rebuilt, hlog, rebuilt]
  · rwa [hadmin]

end

/-- Every step keeps all settings traced. -/
theorem traced_step {h : List (Moment Address)} (i : Input Address)
    (hs : ∀ x, Traced h s x) (x : Setting) :
    Traced ((system liveUntil).stepFrom s i :: h) ((system liveUntil).exec i s).2 x := by
  rcases exec_configStep liveUntil i s with hstep | ⟨hpost, hquiet⟩
  · cases hstep with
    | founded hother hnone hfollows => exact traced_founded hs hother hnone hfollows
    | set y admin address hcall hguard hstored hlog =>
      exact traced_set (hs x) hcall hguard hstored hlog
    | cleared y admin hcall hguard hstored hlog =>
      exact traced_cleared (hs x) hcall hguard hstored hlog
    | kept hother hstored hlog => exact traced_kept (hs x) hother hstored hlog
  · rw [hpost]
    exact (hs x).keep (hquiet x).1 (hquiet x).2 rfl rfl id

theorem traced_final (inputs : List (Input Address)) (x : Setting) :
    Traced ((system liveUntil).history inputs) ((system liveUntil).final inputs) x := by
  refine (system liveUntil).history_induction (P := fun h s ↦ ∀ x, Traced h s x)
    (fun y ↦ ⟨False.elim, fun _ ↦ ?_⟩) (fun _ _ i hs ↦ traced_step liveUntil i hs) inputs x
  cases y <;> rfl

/-- **When the configuration can be rebuilt.** The last configuration event of each kind gives the
stored admin and the result of `get_config` if and only if every check that was unregistered has
been set again. -/
theorem configuration_rebuilt_iff (inputs : List (Input Address)) :
    Rebuilds ((system liveUntil).final inputs) ↔
      ∀ x, ¬Since (Registers x) (Silences x) ((system liveUntil).history inputs) := by
  rw [rebuilds_iff]
  constructor
  · intro hsame x hsince
    obtain ⟨-, hnone, hsome⟩ := (traced_final liveUntil inputs x).silenced hsince
    rw [hsame x] at hnone
    exact hsome hnone
  · exact fun hquiet x ↦ (traced_final liveUntil inputs x).traced (hquiet x)

/-- A gate is registered, and unregistered. -/
def unregistered : List (Input ℕ) :=
  [⟨grantingEnv, .clearDenylistGate 0⟩, ⟨grantingEnv, .initialise 0 (some 10) none none⟩]

/-- **The events go on naming the gate.** -/
theorem not_rebuilds_unregistered :
    getConfig ((system 0).final unregistered) =
        { denylistGate := none, jurisdictionFlag := none, circuitBreaker := none } ∧
      rebuiltConfig ((system 0).final unregistered) =
        { denylistGate := some 10, jurisdictionFlag := none, circuitBreaker := none } ∧
      ¬Rebuilds ((system 0).final unregistered) := by
  have hstored : getConfig ((system 0).final unregistered) =
      { denylistGate := none, jurisdictionFlag := none, circuitBreaker := none } := by decide
  have hevents : rebuiltConfig ((system 0).final unregistered) =
      { denylistGate := some 10, jurisdictionFlag := none, circuitBreaker := none } := by decide
  refine ⟨hstored, hevents, fun hsame ↦ ?_⟩
  have hclash := hsame.2
  rw [hstored, hevents] at hclash
  cases hclash

end

end ComplianceAggregator
