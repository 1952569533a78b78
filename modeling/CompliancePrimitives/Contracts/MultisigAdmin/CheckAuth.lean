import CompliancePrimitives.Contracts.MultisigAdmin.Governance

/-!
# `multisig-admin`: the verdict of `__check_auth`

`__check_auth` looks for repetitions over pairs of indices, and counts with a loop in a loop that
breaks off at the first hit. `checkAuthLoops` is the entry point with these loops written out, and
`checkAuth_eq_loops` says that the model, which asks for repetition and membership directly, is the
same operation.

What it decides is a condition on sets: `checkAuth_eq` gives the answer on every signature list,
with the number of **distinct listed signers** (`votes`) in place of the count. So the order of
either list does not matter.
-/

namespace MultisigAdmin

open Soroban

variable {Address : Type} [DecidableEq Address]

/-! ### The loops as they are written -/

/-- `get(i).unwrap()`. -/
def getUnwrap {α ε σ : Type} (l : List α) (i : ℕ) : Tx ε σ α :=
  match l[i]? with
  | some a => pure a
  | none => Tx.trap

/-- The pairwise search: an index `i`, and an index `j` of `i + 1..len` with the same address. -/
def pairwiseDuplicate (signatures : List Address) : Bool :=
  (List.range signatures.length).any fun i ↦
    (List.range' (i + 1) (signatures.length - (i + 1))).any fun j ↦
      decide (signatures[j]? = signatures[i]?)

/-- The search of the signer list, which stops at the first hit. -/
def isListed (signers : List Address) (sigAddr : Address) : Bool :=
  (List.range signers.length).any fun j ↦ decide (signers[j]? = some sigAddr)

/-- `__check_auth`, index by index. -/
def checkAuthLoops (env : Env Address) (signatures : List Address) : Op Address Unit := do
  let s ← Tx.get
  let signers ← Tx.okOr s.signers .notInitialized
  let threshold ← Tx.okOr s.threshold .notInitialized
  Tx.ensure (pairwiseDuplicate signatures = false) .duplicateSignature
  let validCount ← (List.range signatures.length).foldlM (fun validCount i ↦ do
    let sigAddr ← getUnwrap signatures i
    requireAuth env.toEnv sigAddr
    pure (if isListed signers sigAddr then validCount + 1 else validCount)) 0
  Tx.ensure (threshold ≤ validCount) .thresholdNotMet
  publish (.authOk validCount threshold)

/-- An index is found exactly when the element is. -/
theorem isListed_eq (signers : List Address) (sigAddr : Address) :
    isListed signers sigAddr = decide (sigAddr ∈ signers) := by
  rw [isListed, Bool.eq_iff_iff, List.any_eq_true, decide_eq_true_iff]
  constructor
  · rintro ⟨j, -, hj⟩
    exact List.mem_of_getElem? (of_decide_eq_true hj)
  · intro hmem
    obtain ⟨j, hj⟩ := List.mem_iff_getElem?.1 hmem
    exact ⟨j, List.mem_range.2 (List.getElem?_eq_some_iff.1 hj).1, decide_eq_true hj⟩

/-- **The pairs of indices cover all repetitions.** -/
theorem pairwiseDuplicate_eq (signatures : List Address) :
    pairwiseDuplicate signatures = hasDuplicate signatures := by
  have hnodup : pairwiseDuplicate signatures = false ↔ signatures.Nodup := by
    rw [pairwiseDuplicate, List.any_eq_false, List.nodup_iff_getElem?_ne_getElem?]
    constructor
    · intro h i j hij hj heq
      have hmem : j ∈ List.range' (i + 1) (signatures.length - (i + 1)) := by
        rw [List.mem_range'_1]
        omega
      exact h i (List.mem_range.2 (hij.trans hj))
        (List.any_eq_true.2 ⟨j, hmem, decide_eq_true heq.symm⟩)
    · intro h i _ hany
      obtain ⟨j, hj, heq⟩ := List.any_eq_true.1 hany
      rw [List.mem_range'_1] at hj
      exact h i j (by omega) (by omega) (of_decide_eq_true heq).symm
  rw [Bool.eq_iff_iff, ← not_iff_not, Bool.not_eq_true, Bool.not_eq_true, hnodup,
    hasDuplicate_eq_false_iff]

/-- A loop over the indices of a list is a loop over the list. -/
theorem foldlM_range_getUnwrap {α β ε σ : Type} (l before : List α) (k : β → α → Tx ε σ β) (b : β) :
    (List.range' before.length l.length).foldlM
        (fun b i ↦ getUnwrap (before ++ l) i >>= k b) b =
      l.foldlM k b := by
  induction l generalizing before b with
  | nil => rfl
  | cons a l ih =>
    have hhead : (getUnwrap (before ++ a :: l) before.length : Tx ε σ α) = pure a := by
      rw [getUnwrap, List.getElem?_append_right le_rfl, Nat.sub_self]
      rfl
    have hrest := ih (before ++ [a])
    rw [List.length_append, List.length_singleton, List.append_assoc,
      List.singleton_append] at hrest
    rw [List.length_cons, List.range'_succ, List.foldlM_cons, List.foldlM_cons, hhead]
    exact congrArg (k b a >>= ·) (funext fun b ↦ hrest b)

/-- **The loops are the operation of the model.** -/
theorem checkAuth_eq_loops (env : Env Address) (signatures : List Address) :
    checkAuth env signatures = checkAuthLoops env signatures := by
  have hloop : ∀ signers : List Address,
      (List.range signatures.length).foldlM (fun validCount i ↦ do
          let sigAddr ← getUnwrap signatures i
          requireAuth env.toEnv sigAddr
          pure (if isListed signers sigAddr then validCount + 1 else validCount)) 0 =
        (signatures.foldlM (countSignature env signers) 0 : Op Address ℕ) := by
    intro signers
    have hround : ∀ (validCount : ℕ) (sigAddr : Address),
        countSignature env signers validCount sigAddr = (do
          requireAuth env.toEnv sigAddr
          pure (if isListed signers sigAddr then validCount + 1 else validCount) :
            Op Address ℕ) := by
      intro validCount sigAddr
      simp only [countSignature, isListed_eq, decide_eq_true_iff]
    rw [List.range_eq_range', funext₂ hround]
    exact foldlM_range_getUnwrap signatures [] _ 0
  have hsearch : (Tx.ensure (pairwiseDuplicate signatures = false) .duplicateSignature :
      Op Address Unit) = Tx.ensure (hasDuplicate signatures = false) .duplicateSignature :=
    congrArg (fun found ↦ Tx.ensure (found = false) Error.duplicateSignature)
      (pairwiseDuplicate_eq signatures)
  unfold checkAuth checkAuthLoops
  simp only [hsearch, hloop]

/-! ### The verdict -/

/-- The number of distinct listed addresses that are signers. -/
def votes (signers signatures : List Address) : ℕ :=
  (signatures.toFinset ∩ signers.toFinset).card

section

variable {env : Env Address} {s : State Address} {signers signers' signatures signatures' :
  List Address} {threshold : ℕ}

/-- In a list without repetition the count is the number of distinct signers. -/
theorem countP_eq_votes (hnodup : signatures.Nodup) :
    signatures.countP (fun a ↦ decide (a ∈ signers)) = votes signers signatures := by
  have hfilter : (signatures.filter fun a ↦ decide (a ∈ signers)).toFinset =
      signatures.toFinset ∩ signers.toFinset := by
    ext a
    simp
  rw [votes, ← hfilter, List.toFinset_card_of_nodup (hnodup.filter _),
    List.countP_eq_length_filter]

theorem votes_perm (hsignatures : signatures'.Perm signatures) (hsigners : signers'.Perm signers) :
    votes signers' signatures' = votes signers signatures := by
  rw [votes, votes, List.toFinset_eq_of_perm _ _ hsignatures,
    List.toFinset_eq_of_perm _ _ hsigners]

/-- The counting loop is trapped at the first address that does not authorize. -/
theorem foldlM_countSignature_of_unauthorized {n : ℕ}
    (h : ∃ a ∈ signatures, env.auths a = false) :
    signatures.foldlM (countSignature env signers) n s = .error .trap := by
  induction signatures generalizing n with
  | nil => simp at h
  | cons a signatures ih =>
    rw [List.foldlM_cons]
    cases ha : env.auths a with
    | false =>
      refine Tx.bind_of_error (Tx.bind_of_error ?_)
      rw [requireAuth, ha]
      rfl
    | true =>
      have hrest : ∃ a ∈ signatures, env.auths a = false := by simpa [ha] using h
      have hround : ∃ m, countSignature env signers n a s = .ok (m, s) := by
        simp [countSignature, ha]
      obtain ⟨m, hround⟩ := hround
      exact (Tx.bind_of_ok hround).trans (ih hrest)

/-- **The answer to every signature list.** -/
theorem checkAuth_eq (hsigners : s.signers = some signers)
    (hthreshold : s.threshold = some threshold) (signatures : List Address) :
    checkAuth env signatures s =
      if ¬signatures.Nodup then .error (.error .duplicateSignature)
      else if ∃ a ∈ signatures, env.auths a = false then .error .trap
      else if votes signers signatures < threshold then .error (.error .thresholdNotMet)
      else
        .ok ((), { s with
          events := s.events ++ [.authOk (votes signers signatures) threshold] }) := by
  have hread : ∀ k : List Address → ℕ → Op Address Unit,
      (Tx.get >>= fun s ↦ Tx.okOr s.signers .notInitialized >>= fun signers ↦
        Tx.okOr s.threshold .notInitialized >>= k signers) s = k signers threshold s := by
    intro k
    refine (Tx.bind_of_ok rfl).trans ?_
    rw [hsigners, hthreshold]
    rfl
  refine (hread _).trans ?_
  by_cases hnodup : signatures.Nodup
  swap
  · rw [if_pos hnodup]
    refine Tx.bind_of_error ?_
    rw [Tx.ensure, if_neg (by rwa [hasDuplicate_eq_false_iff])]
    rfl
  have hsearch : (Tx.ensure (hasDuplicate signatures = false) .duplicateSignature :
      Op Address Unit) s = .ok ((), s) :=
    Tx.ensure_eq_ok_iff.2 ⟨hasDuplicate_eq_false_iff.2 hnodup, rfl⟩
  rw [if_neg (not_not.2 hnodup), Tx.bind_of_ok hsearch]
  -- one signature that does not authorize traps, whatever else is in the list
  by_cases hauth : ∃ a ∈ signatures, env.auths a = false
  · rw [if_pos hauth]
    exact Tx.bind_of_error (foldlM_countSignature_of_unauthorized hauth)
  have hcount : signatures.foldlM (countSignature env signers) 0 s =
      .ok (votes signers signatures, s) := by
    refine foldlM_countSignature_eq_ok_iff.2 ⟨by simpa using hauth, ?_, rfl⟩
    rw [countP_eq_votes hnodup, Nat.zero_add]
  rw [if_neg hauth, Tx.bind_of_ok hcount]
  -- only then the count is compared with the threshold
  by_cases hreached : votes signers signatures < threshold
  · rw [if_pos hreached]
    refine Tx.bind_of_error ?_
    rw [Tx.ensure, if_neg (Nat.not_le.2 hreached)]
    rfl
  · rw [if_neg hreached]
    exact Tx.bind_of_ok (Tx.ensure_eq_ok_iff (u := ()).2 ⟨Nat.not_lt.1 hreached, rfl⟩)

/-- **When a signature list passes**, and what is published then. -/
theorem checkAuth_passes_iff (hsigners : s.signers = some signers)
    (hthreshold : s.threshold = some threshold) {s' : State Address} :
    checkAuth env signatures s = .ok ((), s') ↔
      (signatures.Nodup ∧ (∀ a ∈ signatures, env.auths a = true) ∧
        threshold ≤ votes signers signatures) ∧
      s' = { s with events := s.events ++ [.authOk (votes signers signatures) threshold] } := by
  have hauth : (¬∃ a ∈ signatures, env.auths a = false) ↔
      ∀ a ∈ signatures, env.auths a = true := by simp
  rw [checkAuth_eq hsigners hthreshold, ← hauth, ← Nat.not_lt]
  split_ifs with hnodup hunauthorized hshort
  · exact iff_of_false nofun fun h ↦ h.1.2.1 hunauthorized
  · exact iff_of_false nofun fun h ↦ h.1.2.2 hshort
  · constructor
    · intro h
      exact ⟨⟨hnodup, hunauthorized, hshort⟩, (Prod.mk.inj (Except.ok.inj h)).2.symm⟩
    · rintro ⟨-, rfl⟩
      rfl
  · exact iff_of_false nofun fun h ↦ hnodup h.1.1

/-- The answer alone. -/
theorem commit_checkAuth_fst (hsigners : s.signers = some signers)
    (hthreshold : s.threshold = some threshold) (signatures : List Address) :
    ((checkAuth env signatures).commit s).1 =
      if ¬signatures.Nodup then .error (.error .duplicateSignature)
      else if ∃ a ∈ signatures, env.auths a = false then .error .trap
      else if votes signers signatures < threshold then .error (.error .thresholdNotMet)
      else .ok () := by
  rw [Tx.commit, checkAuth_eq hsigners hthreshold]
  split_ifs <;> rfl

end

/-- **`__check_auth` decides exactly the M-of-N rule.** It answers `Ok` if and only if no address of
the signature list is repeated, each of them authorizes, and at least `threshold` of them are
signers; then it publishes that number, and does nothing else. Rearranging the signature list or the
signer list does not change the answer. -/
theorem checkAuth_decides (env : Env Address) {s : State Address} {signers : List Address}
    {threshold : ℕ} (hsigners : s.signers = some signers)
    (hthreshold : s.threshold = some threshold) (signatures : List Address) :
    ((∃ s', checkAuth env signatures s = .ok ((), s')) ↔
      signatures.Nodup ∧ (∀ a ∈ signatures, env.auths a = true) ∧
        threshold ≤ votes signers signatures) ∧
    (∀ s', checkAuth env signatures s = .ok ((), s') →
      s' = { s with events := s.events ++ [.authOk (votes signers signatures) threshold] }) ∧
    ∀ signatures' signers' : List Address, signatures'.Perm signatures → signers'.Perm signers →
      ((checkAuth env signatures').commit { s with signers := some signers' }).1 =
        ((checkAuth env signatures).commit s).1 := by
  refine ⟨?_, fun s' hok ↦ ?_, fun signatures' signers' hsignatures hperm ↦ ?_⟩
  · constructor
    · rintro ⟨s', hok⟩
      exact ((checkAuth_passes_iff hsigners hthreshold).1 hok).1
    · intro hpasses
      exact ⟨_, (checkAuth_passes_iff hsigners hthreshold).2 ⟨hpasses, rfl⟩⟩
  · exact ((checkAuth_passes_iff hsigners hthreshold).1 hok).2
  · rw [commit_checkAuth_fst hsigners hthreshold,
      commit_checkAuth_fst (s := { s with signers := some signers' }) rfl hthreshold]
    simp only [hsignatures.nodup_iff, hsignatures.mem_iff, votes_perm hsignatures hperm]

/-- Two of three signers, and an outsider who neither helps nor hurts. -/
theorem checkAuth_decides_outsider :
    ((∃ s', checkAuth (.granting []) [9, 1, 3]
        { (deploy 0 : State ℕ) with signers := some [1, 2, 3], threshold := some 2 } =
          .ok ((), s')) ↔
      [9, 1, 3].Nodup ∧ (∀ a ∈ [9, 1, 3], (Env.granting [] : Env ℕ).auths a = true) ∧
        2 ≤ votes [1, 2, 3] [9, 1, 3]) ∧
    (∀ s', checkAuth (.granting []) [9, 1, 3]
        { (deploy 0 : State ℕ) with signers := some [1, 2, 3], threshold := some 2 } =
          .ok ((), s') →
      s' = { (deploy 0 : State ℕ) with
        signers := some [1, 2, 3], threshold := some 2
        events := [.authOk (votes [1, 2, 3] [9, 1, 3]) 2] }) ∧
    ∀ signatures' signers' : List ℕ, signatures'.Perm [9, 1, 3] → signers'.Perm [1, 2, 3] →
      ((checkAuth (.granting []) signatures').commit
        { (deploy 0 : State ℕ) with signers := some signers', threshold := some 2 }).1 =
        ((checkAuth (.granting []) [9, 1, 3]).commit
          { (deploy 0 : State ℕ) with signers := some [1, 2, 3], threshold := some 2 }).1 :=
  checkAuth_decides (.granting [])
    (s := { (deploy 0 : State ℕ) with signers := some [1, 2, 3], threshold := some 2 }) rfl rfl
    [9, 1, 3]

/-- Their signature list passes, in whatever order it is written. -/
example : ((checkAuth (.granting []) [3, 9, 1]).commit
    { (deploy 0 : State ℕ) with signers := some [1, 2, 3], threshold := some 2 }).1 = .ok () := by
  rfl

end MultisigAdmin
