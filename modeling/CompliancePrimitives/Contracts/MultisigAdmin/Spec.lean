import CompliancePrimitives.Contracts.MultisigAdmin.Model

/-!
# `multisig-admin`: what a completed call has done

`Granted` is the M-of-N rule, and `checkAuth_eq_ok_iff` says that `__check_auth` is exactly that
rule: the two nested loops of the code, one looking for repetitions and one counting, disappear
here and nowhere else.

Then one lemma per operation says which guards a completed call passed and what it left behind.
Everything further about the contract is derived from these lemmas; no later proof unfolds an
operation.

The lemmas are stated in one direction, from a completed call to its guards and its state, because
that is what the results about runs use. `__check_auth` has an equivalence, since there it matters
as much when it refuses.
-/

namespace MultisigAdmin

open Soroban

variable {Address : Type} [DecidableEq Address]
variable {env : Env Address} {s s' : State Address}

/-! ### What `__check_auth` decides -/

/-- The M-of-N rule, as `__check_auth` applies it to a signature list. -/
structure Granted (env : Env Address) (s : State Address) (signatures signers : List Address)
    (threshold : ℕ) : Prop where
  /-- The stored signers are `signers`, -/
  signers_eq : s.signers = some signers
  /-- the stored threshold is `threshold`. -/
  threshold_eq : s.threshold = some threshold
  /-- No address signs twice. -/
  nodup : signatures.Nodup
  /-- Everyone who signs authorizes, signer or not. -/
  auths : ∀ a ∈ signatures, env.auths a = true
  /-- As many signers as the threshold are among them. -/
  reached : threshold ≤ signatures.countP fun a ↦ decide (a ∈ signers)

/-- The counting loop completes exactly when every address of the list authorizes, and has then
counted the signers among them. -/
theorem foldlM_countSignature_eq_ok_iff {signers signatures : List Address} {n m : ℕ} :
    signatures.foldlM (countSignature env signers) n s = .ok (m, s') ↔
      (∀ a ∈ signatures, env.auths a = true) ∧
        m = n + signatures.countP (fun a ↦ decide (a ∈ signers)) ∧ s' = s := by
  induction signatures generalizing n with
  | nil => simp
  | cons a signatures ih =>
    rw [List.foldlM_cons, Tx.bind_eq_ok_iff]
    simp only [countSignature, Tx.bind_eq_ok_iff, requireAuth_eq_ok_iff, Tx.pure_eq_ok_iff]
    constructor
    -- the count of the head is added on the left, so the induction generalizes the start
    · rintro ⟨k, s₁, ⟨_, s₂, ⟨ha, rfl⟩, rfl, rfl⟩, hrest⟩
      obtain ⟨hall, rfl, rfl⟩ := ih.1 hrest
      refine ⟨List.forall_mem_cons.2 ⟨ha, hall⟩, ?_, rfl⟩
      rw [List.countP_cons]
      by_cases hmem : a ∈ signers <;> simp [hmem]; omega
    · rintro ⟨hall, rfl, rfl⟩
      obtain ⟨ha, hall⟩ := List.forall_mem_cons.1 hall
      refine ⟨_, _, ⟨(), _, ⟨ha, rfl⟩, rfl, rfl⟩, ih.2 ⟨hall, ?_, rfl⟩⟩
      rw [List.countP_cons]
      by_cases hmem : a ∈ signers <;> simp [hmem]; omega

/-- **`__check_auth` is the M-of-N rule.** -/
theorem checkAuth_eq_ok_iff {signatures : List Address} {u : Unit} :
    checkAuth env signatures s = .ok (u, s') ↔
      ∃ signers threshold, Granted env s signatures signers threshold ∧
        s' = { s with
          events := s.events ++
            [.authOk (signatures.countP fun a ↦ decide (a ∈ signers)) threshold] } := by
  simp only [checkAuth, publish, Tx.bind_eq_ok_iff, Tx.get_eq_ok_iff, Tx.okOr_eq_ok_iff,
    Tx.ensure_eq_ok_iff, Tx.modify_eq_ok_iff, foldlM_countSignature_eq_ok_iff,
    hasDuplicate_eq_false_iff, Nat.zero_add, and_assoc, exists_and_left, exists_eq_left,
    exists_const]
  constructor
  · rintro ⟨signers, hs, threshold, ht, hnodup, hall, hle, rfl⟩
    exact ⟨signers, threshold, ⟨hs, ht, hnodup, hall, hle⟩, rfl⟩
  · rintro ⟨signers, threshold, ⟨hs, ht, hnodup, hall, hle⟩, rfl⟩
    exact ⟨signers, hs, threshold, ht, hnodup, hall, hle, rfl⟩

/-- The contract's own authorization, when granted, rests on the M-of-N rule for the supplied
signature list, and leaves only the `AuthOk` event behind. -/
theorem requireSelfAuth_eq_ok_iff {u : Unit} :
    requireSelfAuth env s = .ok (u, s') ↔
      ∃ signatures signers threshold, env.selfEntry = some signatures ∧
        Granted env s signatures signers threshold ∧
        s' = { s with
          events := s.events ++
            [.authOk (signatures.countP fun a ↦ decide (a ∈ signers)) threshold] } := by
  rw [requireSelfAuth]
  cases env.selfEntry with
  | none => simp
  | some signatures => simp [checkAuth_eq_ok_iff]

/-- A granted signature list holds a quorum of distinct signers who authorized. -/
theorem Granted.quorum {signatures signers : List Address} {threshold : ℕ}
    (h : Granted env s signatures signers threshold) :
    Quorum threshold signers fun a ↦ env.auths a = true :=
  quorum_of_countP h.nodup h.auths h.reached

/-- A quorum of the stored signers authorized the invocation. -/
def SignersAuthorize (env : Env Address) (s : State Address) : Prop :=
  ∃ signers threshold, s.signers = some signers ∧ s.threshold = some threshold ∧
    Quorum threshold signers fun a ↦ env.auths a = true

theorem Granted.signersAuthorize {signatures signers : List Address} {threshold : ℕ}
    (h : Granted env s signatures signers threshold) : SignersAuthorize env s :=
  ⟨signers, threshold, h.signers_eq, h.threshold_eq, h.quorum⟩

/-! ### What each operation leaves behind

One lemma per operation: the guards it passed, and the state after it with only the event log and
the time to live left unspecified. -/

theorem initialise_ok {signers : List Address} {threshold : ℕ} {u : Unit}
    (h : initialise env signers threshold s = .ok (u, s')) :
    s.threshold = none ∧ IsRoster signers threshold ∧
      s' = { s with signers := some signers, threshold := some threshold,
                    liveUntil := s'.liveUntil } := by
  simp only [initialise, extendInstanceTtl, Tx.bind_eq_ok_iff, Tx.get_eq_ok_iff,
    Tx.ensure_eq_ok_iff, Tx.modify_eq_ok_iff, hasDuplicate_eq_false_iff, and_assoc,
    exists_and_left, exists_eq_left, exists_const] at h
  obtain ⟨hnone, hnodup, hrange, rfl⟩ := h
  exact ⟨hnone, ⟨hnodup, by omega, by omega⟩, rfl⟩

theorem pause_ok {u : Unit} (h : pause env s = .ok (u, s')) :
    SignersAuthorize env s ∧
      s' = { s with pausable := Pausable.pause env.toEnv s.pausable, liveUntil := s'.liveUntil,
                    events := s'.events } := by
  simp only [pause, extendInstanceTtl, publish, Tx.bind_eq_ok_iff, requireSelfAuth_eq_ok_iff,
    Tx.modify_eq_ok_iff, exists_const, exists_eq_left] at h
  obtain ⟨_, ⟨_, _, _, -, hgrant, rfl⟩, rfl⟩ := h
  exact ⟨hgrant.signersAuthorize, rfl⟩

theorem unpause_ok {u : Unit} (h : unpause env s = .ok (u, s')) :
    SignersAuthorize env s ∧
      s' = { s with pausable := Pausable.unpause s.pausable, liveUntil := s'.liveUntil,
                    events := s'.events } := by
  simp only [unpause, extendInstanceTtl, publish, Tx.bind_eq_ok_iff, requireSelfAuth_eq_ok_iff,
    Tx.modify_eq_ok_iff, exists_const, exists_eq_left] at h
  obtain ⟨_, ⟨_, _, _, -, hgrant, rfl⟩, rfl⟩ := h
  exact ⟨hgrant.signersAuthorize, rfl⟩

theorem upgrade_ok {newWasmHash : Bytes32} {u : Unit}
    (h : upgrade env newWasmHash s = .ok (u, s')) : s' = { s with events := s'.events } := by
  simp only [upgrade, publish, Tx.bind_eq_ok_iff, Tx.get_eq_ok_iff, Tx.ensure_eq_ok_iff,
    requireSelfAuth_eq_ok_iff, Tx.modify_eq_ok_iff, and_assoc, exists_and_left, exists_eq_left,
    exists_const] at h
  obtain ⟨-, _, ⟨_, -, _, _, -, rfl⟩, rfl⟩ := h
  rfl

theorem addSigner_ok {newSigner : Address} {u : Unit}
    (h : addSigner env newSigner s = .ok (u, s')) :
    isPaused s = false ∧ SignersAuthorize env s ∧
      ∃ signers, s.signers = some signers ∧ newSigner ∉ signers ∧
        s' = { s with signers := some (signers ++ [newSigner]), liveUntil := s'.liveUntil,
                      events := s'.events } := by
  simp only [addSigner, requireNotPaused, extendInstanceTtl, publish, Tx.bind_eq_ok_iff,
    Pausable.requireNotPausedOr_eq_ok_iff, requireSelfAuth_eq_ok_iff, Tx.get_eq_ok_iff,
    Tx.okOr_eq_ok_iff, Tx.ensure_eq_ok_iff, Tx.modify_eq_ok_iff, and_assoc, exists_and_left,
    exists_eq_left, exists_const] at h
  obtain ⟨hpaused, _, ⟨_, -, _, _, hgrant, rfl⟩, signers, hs, hx, rfl⟩ := h
  exact ⟨hpaused, hgrant.signersAuthorize, signers, hs, hx, rfl⟩

/-- Removing at the first index found is erasing the first occurrence. -/
theorem eraseIdx_of_findIdx? {signers : List Address} {signer : Address} {index : ℕ}
    (h : signers.findIdx? (· == signer) = some index) :
    signer ∈ signers ∧ signers.eraseIdx index = signers.erase signer := by
  obtain ⟨hlt, hbeq, -⟩ := List.findIdx?_eq_some_iff_getElem.1 h
  have hmem : signer ∈ signers := by
    have heq : signers[index] = signer := by simpa using hbeq
    exact heq ▸ List.getElem_mem hlt
  refine ⟨hmem, ?_⟩
  rw [List.erase_eq_eraseIdx]
  have hidx : List.idxOf? signer signers = some index := h
  simp [hidx]

theorem removeSigner_ok {signer : Address} {u : Unit}
    (h : removeSigner env signer s = .ok (u, s')) :
    isPaused s = false ∧ SignersAuthorize env s ∧
      ∃ signers threshold, s.signers = some signers ∧ s.threshold = some threshold ∧
        signer ∈ signers ∧ threshold ≤ (signers.erase signer).length ∧
        s' = { s with signers := some (signers.erase signer), liveUntil := s'.liveUntil,
                      events := s'.events } := by
  simp only [removeSigner, requireNotPaused, extendInstanceTtl, publish, Tx.bind_eq_ok_iff,
    Pausable.requireNotPausedOr_eq_ok_iff, requireSelfAuth_eq_ok_iff, Tx.get_eq_ok_iff,
    Tx.okOr_eq_ok_iff, Tx.ensure_eq_ok_iff, Tx.modify_eq_ok_iff, and_assoc, exists_and_left,
    exists_eq_left, exists_const] at h
  obtain ⟨hpaused, _, ⟨_, -, _, _, hgrant, rfl⟩, signers, hs, threshold, ht, index, hidx, hspare,
    rfl⟩ := h
  obtain ⟨hmem, herase⟩ := eraseIdx_of_findIdx? hidx
  rw [herase] at hspare ⊢
  exact ⟨hpaused, hgrant.signersAuthorize, signers, threshold, hs, ht, hmem, by omega, rfl⟩

theorem updateThreshold_ok {threshold : ℕ} {u : Unit}
    (h : updateThreshold env threshold s = .ok (u, s')) :
    isPaused s = false ∧ SignersAuthorize env s ∧
      ∃ signers, s.signers = some signers ∧ 1 ≤ threshold ∧ threshold ≤ signers.length ∧
        s' = { s with threshold := some threshold, liveUntil := s'.liveUntil,
                      events := s'.events } := by
  simp only [updateThreshold, requireNotPaused, extendInstanceTtl, publish, Tx.bind_eq_ok_iff,
    Pausable.requireNotPausedOr_eq_ok_iff, requireSelfAuth_eq_ok_iff, Tx.get_eq_ok_iff,
    Tx.okOr_eq_ok_iff, Tx.ensure_eq_ok_iff, Tx.modify_eq_ok_iff, and_assoc, exists_and_left,
    exists_eq_left, exists_const] at h
  obtain ⟨hpaused, _, ⟨_, -, _, _, hgrant, rfl⟩, signers, hs, hrange, rfl⟩ := h
  exact ⟨hpaused, hgrant.signersAuthorize, signers, hs, by omega, by omega, rfl⟩

omit [DecidableEq Address] in
theorem propose_ok {payload : Bytes} {expiryLedger proposalId : ℕ}
    (h : propose env payload expiryLedger s = .ok (proposalId, s')) :
    isPaused s = false ∧ env.sequence < expiryLedger ∧ proposalId = s.nextProposalId.getD 0 ∧
      s' = { s with
        proposals := Function.update s.proposals proposalId
          (some { payload, expiry := expiryLedger, approvals := [] })
        nextProposalId := some (proposalId + 1), liveUntil := s'.liveUntil } := by
  simp only [propose, requireNotPaused, extendInstanceTtl, Tx.bind_eq_ok_iff,
    Pausable.requireNotPausedOr_eq_ok_iff, Tx.get_eq_ok_iff, Tx.ensure_eq_ok_iff,
    Tx.orTrap_eq_ok_iff, Tx.modify_eq_ok_iff, Tx.pure_eq_ok_iff, and_assoc, exists_and_left,
    exists_eq_left, exists_const] at h
  obtain ⟨hpaused, hexp, -, -, rfl, rfl⟩ := h
  exact ⟨hpaused, by omega, rfl, rfl⟩

theorem approve_ok {proposalId : ℕ} {approver : Address} {reached : Bool}
    (h : approve env proposalId approver s = .ok (reached, s')) :
    isPaused s = false ∧ env.auths approver = true ∧
      ∃ proposal signers threshold, s.proposals proposalId = some proposal ∧
        env.sequence < proposal.expiry ∧ s.signers = some signers ∧
        s.threshold = some threshold ∧ approver ∈ signers ∧ approver ∉ proposal.approvals ∧
        reached = decide (threshold ≤ (proposal.approvals ++ [approver]).length) ∧
        s' = { s with
          proposals := Function.update s.proposals proposalId
            (some { proposal with approvals := proposal.approvals ++ [approver] })
          liveUntil := s'.liveUntil } := by
  simp only [approve, requireNotPaused, extendInstanceTtl, Tx.bind_eq_ok_iff,
    Pausable.requireNotPausedOr_eq_ok_iff, requireAuth_eq_ok_iff, Tx.get_eq_ok_iff,
    Tx.okOr_eq_ok_iff, Tx.ensure_eq_ok_iff, Tx.modify_eq_ok_iff, Tx.pure_eq_ok_iff, and_assoc,
    exists_and_left, exists_eq_left, exists_const] at h
  obtain ⟨hpaused, hauth, proposal, hp, hexp, signers, hs, hmem, hnew, threshold, ht, rfl,
    rfl⟩ := h
  exact ⟨hpaused, hauth, proposal, signers, threshold, hp, by omega, hs, ht, hmem, hnew, rfl, rfl⟩

theorem execute_ok {proposalId : ℕ} {u : Unit} (h : execute env proposalId s = .ok (u, s')) :
    ∃ proposal signers threshold, s.proposals proposalId = some proposal ∧
      env.sequence < proposal.expiry ∧ s.signers = some signers ∧
      s.threshold = some threshold ∧ threshold ≤ validApprovalCount signers proposal ∧
      s' = { s with
        proposals := Function.update s.proposals proposalId none
        liveUntil := s'.liveUntil, events := s'.events } := by
  simp only [execute, extendInstanceTtl, publish, Tx.bind_eq_ok_iff, Tx.get_eq_ok_iff,
    Tx.okOr_eq_ok_iff, Tx.ensure_eq_ok_iff, Tx.modify_eq_ok_iff, and_assoc, exists_and_left,
    exists_eq_left, exists_const] at h
  obtain ⟨proposal, hp, hexp, threshold, ht, signers, hs, hcount, rfl⟩ := h
  exact ⟨proposal, signers, threshold, hp, by omega, hs, ht, by omega, rfl⟩

end MultisigAdmin
