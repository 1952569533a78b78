import CompliancePrimitives.Contracts.AllowlistToken.Containment
import CompliancePrimitives.Contracts.MultisigAdmin.Governance
import CompliancePrimitives.Host.Invoker

/-!
# An allowlist governed by a committee

The composition of `multisig-governed-allowlist`: an `allowlist-token` whose admin is the address of
a `multisig-admin`. Neither contract knows of the other. Where the allowlist asks for its admin's
authorization, the host hands the signature list it was supplied with to `__check_auth`, and the
answer is all the allowlist ever learns.

So the signers of the moment stand behind everything the admin does. Without a quorum of them, and
without an approval that verifies under the delegated key, access is only ever lost
(`access_needs_quorum`), and the committee stays in charge: whoever the signers are replaced by in
between, and whatever the others are granted. And the committee can always act: any quorum of its
signers passes in every state that can be reached (`committee_can_admit`), as long as no signature
in it is the committee's own.

Nothing is claimed once an approval verifies that was signed with a **delegated key**: whoever has
that key admits accounts alone. Nor does the first of the two say anything of a run before the
committee is in charge, or while it has proposed another admin.

The event that `__check_auth` publishes on the allowlist's behalf is left out: nothing reads it.
-/

namespace AllowlistToken

open Soroban

variable {Address : Type} [DecidableEq Address] {ext : Externals Address} {env : Env Address}
  {s s' : State Address} {call : Call Address}

/-- **An admin that has proposed nobody stays**, unless it authorizes. -/
theorem RoleStep.settled {admin : Address} (h : RoleStep ext env call s s')
    (hadmin : s.admin = some admin) (hpending : s.pendingAdmin = none)
    (hauth : env.auths admin = false) : s'.admin = s.admin ∧ s'.pendingAdmin = none := by
  have habsurd := Handover.not_authorized hadmin hauth
  cases h with
  | handedOver hmoves hne _ _ _ =>
    rcases hmoves.of_unauthorized hadmin hauth with ⟨hother, -⟩ | ⟨x, -, hproposed, -, -⟩
    · exact absurd hother hne
    · cases hproposed.symm.trans hpending
  -- what takes the admin's authority cannot have been done
  | governed a ha hyes => exact (habsurd a ha hyes).elim
  | granted a _ _ ha hyes => exact (habsurd a ha hyes).elim
  -- the rest leaves the role alone
  | delegated sub _ _ hs' =>
    rw [hs']
    exact ⟨rfl, hpending⟩
  | revoked _ _ _ _ _ _ hs' =>
    rw [hs']
    exact ⟨rfl, hpending⟩
  | blocked _ _ _ _ _ hs' =>
    rw [hs']
    exact ⟨rfl, hpending⟩
  | forwarded _ _ _ _ _ hs' =>
    rw [hs']
    exact ⟨rfl, hpending⟩

end AllowlistToken

namespace GovernedAllowlist

open Soroban
open AllowlistToken (Contained NothingVerifies RoleStep)
open MultisigAdmin (SignersAuthorize)

variable {Address : Type} [DecidableEq Address]

/-- The two contracts. -/
structure State (Address : Type) where
  multisig : MultisigAdmin.State Address
  allowlist : AllowlistToken.State Address

/-- An invocation of one of the two. One of the allowlist may come with a signature list for the
authorization of the committee. -/
inductive Input (Address : Type) where
  | multisig (i : MultisigAdmin.Input Address)
  | allowlist (env : AllowlistToken.Env Address) (entry : Option (List Address))
      (call : AllowlistToken.Call Address)

/-- What `__check_auth` decides about a supplied signature list. -/
def authorizes (self : Address) (env : Soroban.Env Address) (entry : Option (List Address))
    (s : MultisigAdmin.State Address) : Bool :=
  match entry with
  | none => false
  | some signatures =>
    ((MultisigAdmin.checkAuth ⟨env.outside self, entry⟩ signatures).commit s).1.isOk

/-- What the allowlist sees: the answer of the committee, and the others' authorizations. -/
def hostView (self : Address) (env : AllowlistToken.Env Address) (entry : Option (List Address))
    (s : MultisigAdmin.State Address) : AllowlistToken.Env Address :=
  { env with
    auths := fun a ↦ if a = self then authorizes self env.toEnv entry s else env.auths a }

/-- The invocation of the allowlist that an input stands for. -/
def Input.asked (self : Address) (s : State Address) :
    Input Address → Option (AllowlistToken.Input Address)
  | .multisig _ => none
  | .allowlist env entry call => some ⟨hostView self env entry s.multisig, call⟩

/-- The two contracts from their deployment on, the committee at the address `self`. A step answers
whether it completed. -/
def system (self : Address) (liveUntil : ℕ) (ext : AllowlistToken.Externals Address) :
    System (State Address) (Input Address) Bool where
  start := ⟨MultisigAdmin.deploy liveUntil, AllowlistToken.deploy⟩
  exec
    | .multisig i, s =>
      let r := (MultisigAdmin.invoke i.env i.call).commit s.multisig
      (r.1.isOk, { s with multisig := r.2 })
    | .allowlist env entry call, s =>
      let r := (AllowlistToken.invoke ext (hostView self env entry s.multisig) call).commit
        s.allowlist
      (r.1.isOk, { s with allowlist := r.2 })

/-- One step of a run. -/
abbrev Moment (Address : Type) := Step (State Address) (Input Address) Bool

section

variable {self : Address} {liveUntil : ℕ} {ext : AllowlistToken.Externals Address}
  {env : Soroban.Env Address} {entry : Option (List Address)} {s : State Address}

/-! ### Who stands behind the admin -/

/-- **The committee authorizes by a quorum of its present signers.** -/
theorem signersAuthorize_of_authorizes {m : MultisigAdmin.State Address}
    (h : authorizes self env entry m = true) : SignersAuthorize ⟨env.outside self, entry⟩ m := by
  cases entry with
  | none => cases h
  | some signatures =>
    rcases Tx.commit_cases
        (MultisigAdmin.checkAuth ⟨env.outside self, some signatures⟩ signatures) m with
      ⟨_, _, hrun, -⟩ | ⟨f, -, hcommit⟩
    · obtain ⟨_, _, hgranted, -⟩ := MultisigAdmin.checkAuth_eq_ok_iff.1 hrun
      exact hgranted.signersAuthorize
    · rw [authorizes, hcommit] at h
      cases h

/-- In a step, no quorum of the present signers authorizes what the allowlist is asked. -/
def Unbacked (self : Address) (e : Moment Address) : Prop :=
  match e.input with
  | .multisig _ => True
  | .allowlist env entry _ => ¬SignersAuthorize ⟨env.toEnv.outside self, entry⟩ e.pre.multisig

/-- In a step, no approval that is presented verifies under the delegated key. -/
def Unsigned (self : Address) (ext : AllowlistToken.Externals Address) (e : Moment Address) :
    Prop :=
  ∀ i ∈ e.input.asked self e.pre,
    NothingVerifies ext ((AllowlistToken.system ext).stepFrom e.pre.allowlist i)

instance (env : MultisigAdmin.Env Address) (m : MultisigAdmin.State Address) :
    Decidable (SignersAuthorize env m) :=
  decidable_of_iff (∃ signers ∈ m.signers, ∃ threshold ∈ m.threshold,
    Quorum threshold signers fun a ↦ env.auths a = true) <| by
    simp only [SignersAuthorize, Option.mem_def, ← exists_and_left]

instance (e : Moment Address) : Decidable (Unbacked self e) :=
  match e with
  | ⟨_, .multisig _, _, _⟩ => isTrue trivial
  | ⟨pre, .allowlist env entry _, _, _⟩ =>
    inferInstanceAs (Decidable (¬SignersAuthorize ⟨env.toEnv.outside self, entry⟩ pre.multisig))

instance (e : Moment Address) : Decidable (Unsigned self ext e) :=
  inferInstanceAs (Decidable (∀ i ∈ e.input.asked self e.pre,
    NothingVerifies ext ((AllowlistToken.system ext).stepFrom e.pre.allowlist i)))

theorem hostView_auths_self (env : AllowlistToken.Env Address) (entry : Option (List Address))
    (m : MultisigAdmin.State Address) :
    (hostView self env entry m).auths self = authorizes self env.toEnv entry m :=
  if_pos rfl

/-- Without a quorum the committee does not authorize. -/
theorem auths_self_of_unbacked {e : Moment Address} (h : Unbacked self e)
    {i : AllowlistToken.Input Address} (hi : e.input.asked self e.pre = some i) :
    i.env.auths self = false := by
  rw [Unbacked] at h
  rcases hinput : e.input with j | ⟨env, entry, call⟩
  · rw [hinput] at hi
    cases hi
  · rw [hinput] at hi h
    obtain rfl := Option.some.inj hi
    rw [hostView_auths_self]
    by_contra hyes
    exact h (signersAuthorize_of_authorizes (Bool.not_eq_false _ ▸ hyes))

/-! ### Without a quorum -/

/-- The committee is the admin of the allowlist, and nobody is proposed. -/
def InCharge (self : Address) (s : AllowlistToken.State Address) : Prop :=
  s.admin = some self ∧ s.pendingAdmin = none

/-- **One step without a quorum and without a verified approval.** -/
theorem exec_contained {i : Input Address} (hcharge : InCharge self s.allowlist)
    (hunbacked : Unbacked self ((system self liveUntil ext).stepFrom s i))
    (hunsigned : Unsigned self ext ((system self liveUntil ext).stepFrom s i)) :
    InCharge self ((system self liveUntil ext).exec i s).2.allowlist ∧
      Contained s.allowlist ((system self liveUntil ext).exec i s).2.allowlist := by
  rcases hasked : i.asked self s with _ | j
  · cases i with
    -- what is asked of the committee does not touch the allowlist
    | multisig i => exact ⟨hcharge, .refl _⟩
    | allowlist env entry call => cases hasked
  -- the allowlist is asked something, and its admin has not authorized it
  · have hno := auths_self_of_unbacked hunbacked hasked
    have hverifies := hunsigned j hasked
    have hexec : ((system self liveUntil ext).exec i s).2.allowlist =
        ((AllowlistToken.system ext).exec j s.allowlist).2 := by
      cases i with
      | multisig i => cases hasked
      | allowlist env entry call =>
        obtain rfl := Option.some.inj hasked
        rfl
    rw [hexec]
    have hcontained := (AllowlistToken.contained_of_withheld
      (Option.isSome_iff_exists.2 ⟨self, hcharge.1⟩)
      (fun admin hadmin ↦ Option.some.inj (hcharge.1.symm.trans hadmin) ▸ hno) hverifies).1
    refine ⟨?_, hcontained⟩
    rcases AllowlistToken.exec_roleStep ext j s.allowlist with ⟨-, hstep⟩ | ⟨-, hpost⟩
    · obtain ⟨hadmin, hpending⟩ := hstep.settled hcharge.1 hcharge.2 hno
      exact ⟨hadmin.trans hcharge.1, hpending⟩
    · rw [hpost]
      exact hcharge

/-- **Access takes a quorum.** Over every stretch of a joint run that starts with the committee in
charge, and in which nothing is asked of the allowlist with a quorum of the signers of that moment
behind it, and no approval that is presented verifies under the delegated key, the committee stays
in charge and access is only ever lost, whatever happens to the signers meanwhile. -/
theorem access_needs_quorum (self : Address) (liveUntil : ℕ)
    (ext : AllowlistToken.Externals Address) (before during : List (Input Address))
    (hcharge : InCharge self ((system self liveUntil ext).final before).allowlist)
    (hsteps : ∀ e ∈ ((system self liveUntil ext).startingAt
      ((system self liveUntil ext).final before)).history during,
        Unbacked self e ∧ Unsigned self ext e) :
    InCharge self ((system self liveUntil ext).final (during ++ before)).allowlist ∧
      Contained ((system self liveUntil ext).final before).allowlist
        ((system self liveUntil ext).final (during ++ before)).allowlist ∧
      ∀ a t t', t ≤ t' →
        AllowlistToken.isAllowed t'
          ((system self liveUntil ext).final (during ++ before)).allowlist a = true →
        AllowlistToken.isAllowed t
          ((system self liveUntil ext).final before).allowlist a = true := by
  rw [System.final_append]
  obtain ⟨hend, hcontained⟩ := ((system self liveUntil ext).stretch_induction
    (P := fun s ↦ InCharge self s.allowlist ∧
      Contained ((system self liveUntil ext).final before).allowlist s.allowlist)
    (C := fun e ↦ Unbacked self e ∧ Unsigned self ext e) ⟨hcharge, .refl _⟩
    (fun s i hs hstep ↦ by
      obtain ⟨hnext, hone⟩ := exec_contained hs.1 hstep.1 hstep.2
      exact ⟨hnext, hs.2.trans hone⟩) hsteps).1
  exact ⟨hend, hcontained, fun a t t' ht ↦ hcontained.isAllowed_of_isAllowed ht⟩

/-- A host on which signer 1 alone authorizes. -/
def soleSigner : AllowlistToken.Env ℕ where
  sequence := 1
  timestamp := 0
  auths := fun a ↦ decide (a = 1)
  tokenAnswer := fun _ ↦ true

/-- Two of the signers 1, 2 and 3 stand behind the committee, which is at address 50. It takes over
the allowlist and admits account 7. -/
def foundedCommittee : List (Input ℕ) :=
  [.allowlist .granting (some [1, 2]) (.addToAllowlist 50 7 none),
    .allowlist .granting (some [1, 2]) (.initialise 50 5),
    .multisig ⟨.granting [], .initialise [1, 2, 3] 2⟩]

/-- Signer 1 tries to admit account 8, signers 1 and 2 expel signer 3, and signer 1 tries to remove
account 7. -/
def loneSigner : List (Input ℕ) :=
  [.allowlist soleSigner (some [1]) (.removeFromAllowlist 50 7),
    .multisig ⟨.granting [1, 2], .removeSigner 3⟩,
    .allowlist soleSigner (some [1]) (.addToAllowlist 50 8 none)]

theorem access_needs_quorum_loneSigner :
    InCharge 50 ((system 50 0 .verifying).final (loneSigner ++ foundedCommittee)).allowlist ∧
      Contained ((system 50 0 .verifying).final foundedCommittee).allowlist
        ((system 50 0 .verifying).final (loneSigner ++ foundedCommittee)).allowlist ∧
      ∀ a t t', t ≤ t' →
        AllowlistToken.isAllowed t'
          ((system 50 0 .verifying).final (loneSigner ++ foundedCommittee)).allowlist a = true →
        AllowlistToken.isAllowed t
          ((system 50 0 .verifying).final foundedCommittee).allowlist a = true :=
  access_needs_quorum 50 0 .verifying foundedCommittee loneSigner
    ⟨by decide +kernel, by decide +kernel⟩ (by decide +kernel)

/-! ### With a quorum -/

/-- The committee's contract is in a state of its own runs. -/
theorem wellFormed_final (self : Address) (liveUntil : ℕ)
    (ext : AllowlistToken.Externals Address) (inputs : List (Input Address)) :
    MultisigAdmin.WellFormed ((system self liveUntil ext).final inputs).multisig := by
  refine System.final_induction _
    (P := fun s : State Address ↦ MultisigAdmin.WellFormed s.multisig) (.inl ⟨rfl, rfl⟩)
    (fun s i hs ↦ ?_) inputs
  cases i with
  | multisig i => exact (MultisigAdmin.exec_governance liveUntil i s.multisig).wellFormed hs
  | allowlist env entry call => exact hs

/-- **A quorum that can answer for the committee** to another contract. -/
structure Sufficient (committee : Address) (m : MultisigAdmin.State Address)
    (signatures : List Address) : Prop where
  /-- They are signers. -/
  listed : ∃ signers, m.signers = some signers ∧ ∀ a ∈ signatures, a ∈ signers
  /-- There are as many of them as the threshold asks for. -/
  reached : ∃ threshold, m.threshold = some threshold ∧ threshold ≤ signatures.length
  /-- They are distinct. -/
  nodup : signatures.Nodup
  /-- The committee's own address is none of them: `__check_auth` does not authorize itself. -/
  outside : committee ∉ signatures

/-- A quorum that authorizes passes. -/
theorem Sufficient.authorizes {m : MultisigAdmin.State Address} {signatures : List Address}
    (h : Sufficient self m signatures) (hauth : ∀ a ∈ signatures, env.auths a = true) :
    authorizes self env (some signatures) m = true := by
  obtain ⟨signers, hsigners, hall⟩ := h.listed
  obtain ⟨threshold, hthreshold, hlength⟩ := h.reached
  let view : MultisigAdmin.Env Address := ⟨env.outside self, some signatures⟩
  have houtside : ∀ a ∈ signatures, view.auths a = true := fun a ha ↦ by
    have hne : a ≠ self := fun heq ↦ h.outside (heq ▸ ha)
    simp [view, Env.outside, hne, hauth a ha]
  have hcount : signatures.countP (fun a ↦ decide (a ∈ signers)) = signatures.length :=
    List.countP_eq_length.2 fun a ha ↦ decide_eq_true (hall a ha)
  have hgranted : MultisigAdmin.Granted view m signatures signers threshold :=
    ⟨hsigners, hthreshold, h.nodup, houtside, hlength.trans_eq hcount.symm⟩
  have hpass := (MultisigAdmin.checkAuth_eq_ok_iff (u := ())).2
    ⟨signers, threshold, hgranted, rfl⟩
  rw [GovernedAllowlist.authorizes, Tx.commit_of_ok hpass]
  rfl

omit [DecidableEq Address] in
/-- All signers are a quorum, where the committee is not one of them. -/
theorem sufficient_of_signers {m : MultisigAdmin.State Address} (hm : MultisigAdmin.WellFormed m)
    {signers : List Address} (hsigners : m.signers = some signers) (hself : self ∉ signers) :
    Sufficient self m signers := by
  obtain ⟨threshold, hthreshold, hroster⟩ := hm.roster_of_signers hsigners
  exact ⟨⟨signers, hsigners, fun _ ↦ id⟩, ⟨threshold, hthreshold, hroster.le_length⟩, hroster.nodup,
    hself⟩

/-- **The committee can always admit.** In every state that a joint run reaches with the committee
as the admin of the allowlist, an `add_to_allowlist` that comes with a quorum of the signers, all of
whom authorize, completes and admits the address for good. As long as the committee is not among its
own signers there is such a quorum. -/
theorem committee_can_admit (self : Address) (liveUntil : ℕ)
    (ext : AllowlistToken.Externals Address) (inputs : List (Input Address))
    (hadmin : ((system self liveUntil ext).final inputs).allowlist.admin = some self) :
    (∀ signatures, Sufficient self ((system self liveUntil ext).final inputs).multisig signatures →
      ∀ env : AllowlistToken.Env Address, (∀ a ∈ signatures, env.auths a = true) →
        ∀ a t, AllowlistToken.isAllowed t ((system self liveUntil ext).final
          (.allowlist env (some signatures) (.addToAllowlist self a none) :: inputs)).allowlist a =
            true) ∧
      ∀ signers, ((system self liveUntil ext).final inputs).multisig.signers = some signers →
        self ∉ signers →
          Sufficient self ((system self liveUntil ext).final inputs).multisig signers := by
  refine ⟨fun signatures hsufficient env hauth a t ↦ ?_, fun signers ↦
    sufficient_of_signers (wellFormed_final self liveUntil ext inputs)⟩
  rw [System.final_cons]
  set s := (system self liveUntil ext).final inputs
  have hyes : (hostView self env (some signatures) s.multisig).auths self = true := by
    rw [hostView_auths_self]
    exact hsufficient.authorizes hauth
  have hadd : AllowlistToken.addToAllowlist (hostView self env (some signatures) s.multisig) self a
      none s.allowlist = .ok ((), _) :=
    AllowlistToken.addToAllowlist_eq_ok_iff.2 ⟨hyes, hadmin, rfl, rfl⟩
  have hcall : (AllowlistToken.invoke ext (hostView self env (some signatures) s.multisig)
      (.addToAllowlist self a none)).commit s.allowlist = _ :=
    Tx.commit_of_ok (Tx.bind_pure_eq_ok_iff.2 ⟨(), hadd, rfl⟩)
  show AllowlistToken.isAllowed t ((AllowlistToken.invoke ext _
    (.addToAllowlist self a none)).commit s.allowlist).2 a = true
  rw [hcall]
  simp [AllowlistToken.isAllowed]

/-- Two of the three signers are enough. -/
theorem committee_can_admit_foundedCommittee :
    AllowlistToken.isAllowed 9 ((system 50 0 .verifying).final
      (.allowlist .granting (some [3, 1]) (.addToAllowlist 50 8 none) ::
        foundedCommittee)).allowlist 8 = true := by
  have hsigners : ((system 50 0 .verifying).final foundedCommittee).multisig.signers =
      some [1, 2, 3] := by
    decide +kernel
  have hthreshold : ((system 50 0 .verifying).final foundedCommittee).multisig.threshold =
      some 2 := by
    decide +kernel
  obtain ⟨hadmits, -⟩ :=
    committee_can_admit 50 0 .verifying foundedCommittee (by decide +kernel)
  exact hadmits [3, 1]
    ⟨⟨_, hsigners, by decide⟩, ⟨_, hthreshold, by decide⟩, by decide, by decide⟩ .granting
    (fun _ _ ↦ rfl) 8 9

end

end GovernedAllowlist
