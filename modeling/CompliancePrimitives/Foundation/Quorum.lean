import Mathlib

/-!
# Committees and quorums

The mathematics of M-of-N approval, apart from any program that implements it.

A `Committee` is a finite set of members with a threshold it can reach: the two inequalities are
fields, so a committee that locks itself out cannot be built. It changes by enrolling a newcomer,
expelling a member it can spare, or retuning its threshold (`Committee.Moves`).

Programs keep the members in a list. `IsRoster signers threshold` is what such a list owes:
no repetition, and a threshold between one and the length. It is exactly the condition under which
the list stands for a committee (`IsRoster.toCommittee`), and the three list edits preserve it and
commute with the three committee moves.

`Quorum n S P` says that at least `n` **distinct** members of `S` have the property `P`. Programs
establish it by counting a list of votes; `quorum_of_countP` is the step from the count to the
quorum, and repetition-freeness of the votes is what it needs.

Votes are cast one after the other, by voters of whom some may have voted before (`castAll`). How
many there are in the end is a matter of who voted (`countP_castAll`), and not of the order.
-/

/-- At least `n` distinct members of `S` satisfy `P`. -/
def Quorum {α : Type} (n : ℕ) (S : List α) (P : α → Prop) : Prop :=
  ∃ L : Finset α, (∀ x ∈ L, x ∈ S ∧ P x) ∧ n ≤ L.card

section Quorum

variable {α : Type} {n m : ℕ} {S : List α} {P Q : α → Prop}

theorem Quorum.imp (h : Quorum n S P) (hPQ : ∀ x ∈ S, P x → Q x) : Quorum n S Q := by
  obtain ⟨L, hL, hcard⟩ := h
  exact ⟨L, fun x hx ↦ ⟨(hL x hx).1, hPQ x (hL x hx).1 (hL x hx).2⟩, hcard⟩

/-- A quorum can be counted. -/
theorem quorum_iff_le_card [DecidableEq α] [DecidablePred P] :
    Quorum n S P ↔ n ≤ (S.toFinset.filter P).card := by
  constructor
  · rintro ⟨L, hL, hcard⟩
    refine hcard.trans (Finset.card_le_card fun x hx ↦ ?_)
    rw [Finset.mem_filter, List.mem_toFinset]
    exact hL x hx
  · intro hcard
    refine ⟨S.toFinset.filter P, fun x hx ↦ ?_, hcard⟩
    rwa [Finset.mem_filter, List.mem_toFinset] at hx

instance [DecidableEq α] [DecidablePred P] : Decidable (Quorum n S P) :=
  decidable_of_iff' _ quorum_iff_le_card

/-- **Counting distinct votes.** If a repetition-free list of votes, each with property `P`, holds
at least `n` members of `S`, there is a quorum. -/
theorem quorum_of_countP [DecidableEq α] {votes : List α} (hnodup : votes.Nodup)
    (hP : ∀ x ∈ votes, P x) (hcount : n ≤ votes.countP fun x ↦ decide (x ∈ S)) :
    Quorum n S P := by
  refine ⟨(votes.filter fun x ↦ decide (x ∈ S)).toFinset, fun x hx ↦ ?_, ?_⟩
  · rw [List.mem_toFinset, List.mem_filter, decide_eq_true_eq] at hx
    exact ⟨hx.2, hP x hx.1⟩
  · rw [List.toFinset_card_of_nodup (hnodup.filter _), ← List.countP_eq_length_filter]
    exact hcount

end Quorum

/-! ### Votes, cast one after the other -/

section Cast

variable {α : Type} [DecidableEq α] {votes voters : List α}

/-- The votes after these voters, latest first. Who has voted already is not counted again. -/
def castAll (votes : List α) : List α → List α
  | [] => votes
  | x :: voters =>
    if x ∈ castAll votes voters then castAll votes voters else castAll votes voters ++ [x]

@[simp] theorem castAll_nil : castAll votes [] = votes := rfl

theorem castAll_cons (x : α) : castAll votes (x :: voters) =
    if x ∈ castAll votes voters then castAll votes voters else castAll votes voters ++ [x] := rfl

theorem mem_castAll {y : α} : y ∈ castAll votes voters ↔ y ∈ votes ∨ y ∈ voters := by
  induction voters with
  | nil => simp
  | cons x voters ih =>
    rw [castAll_cons]
    split_ifs with hx
    · have hcast : y = x → y ∈ votes ∨ y ∈ voters := by
        rintro rfl
        exact ih.1 hx
      rw [ih, List.mem_cons]
      tauto
    · rw [List.mem_append, ih, List.mem_singleton, List.mem_cons]
      tauto

/-- **How many votes count in the end**: those that were there, and one for each new voter. -/
theorem countP_castAll (p : α → Bool) (hnodup : voters.Nodup) :
    (castAll votes voters).countP p =
      votes.countP p + voters.countP fun x ↦ p x && decide (x ∉ votes) := by
  induction voters with
  | nil => simp
  | cons x voters ih =>
    obtain ⟨hnew, hnodup⟩ := List.nodup_cons.1 hnodup
    have hcast : x ∈ castAll votes voters ↔ x ∈ votes := by
      rw [mem_castAll, or_iff_left hnew]
    rw [castAll_cons, List.countP_cons]
    split_ifs with hx hcounts hcounts
    · simp [hcast.1 hx] at hcounts
    · exact ih hnodup
    · have hp : p x = true := (Bool.and_eq_true_iff.1 hcounts).1
      rw [List.countP_append, ih hnodup, List.countP_singleton, if_pos hp, Nat.add_assoc]
    · have hp : p x = false := by simpa [mt hcast.2 hx] using hcounts
      rw [List.countP_append, ih hnodup, List.countP_singleton, hp]
      rfl

/-- A further vote takes none away. -/
theorem countP_castAll_le (p : α → Bool) (x : α) :
    (castAll votes voters).countP p ≤ (castAll votes (x :: voters)).countP p := by
  rw [castAll_cons]
  split_ifs
  · exact le_rfl
  · rw [List.countP_append]
    exact Nat.le_add_right _ _

end Cast

/-! ### Repetition, as programs look for it -/

section Duplicate

variable {α : Type} [DecidableEq α]

/-- Whether some element of the list occurs again after itself. -/
def hasDuplicate : List α → Bool
  | [] => false
  | a :: l => decide (a ∈ l) || hasDuplicate l

theorem hasDuplicate_eq_false_iff {l : List α} : hasDuplicate l = false ↔ l.Nodup := by
  induction l with
  | nil => simp [hasDuplicate]
  | cons a l ih => simp [hasDuplicate, ih]

end Duplicate

/-! ### Committees -/

/-- A finite set of members together with a threshold the set can reach. -/
@[ext]
structure Committee (α : Type) where
  members : Finset α
  threshold : ℕ
  /-- Something has to be approved by someone. -/
  threshold_pos : 0 < threshold
  /-- The full committee is enough. -/
  threshold_le : threshold ≤ members.card

namespace Committee

variable {α : Type} [DecidableEq α] (C : Committee α)

/-- Admit a newcomer. -/
def enrol (x : α) (hx : x ∉ C.members) : Committee α where
  members := insert x C.members
  threshold := C.threshold
  threshold_pos := C.threshold_pos
  threshold_le := by
    rw [Finset.card_insert_of_notMem hx]
    exact C.threshold_le.trans (Nat.le_succ _)

/-- Expel a member the committee can spare. -/
def expel (x : α) (hspare : C.threshold ≤ (C.members.erase x).card) : Committee α where
  members := C.members.erase x
  threshold := C.threshold
  threshold_pos := C.threshold_pos
  threshold_le := hspare

/-- Choose another reachable threshold. -/
def retune (n : ℕ) (hpos : 0 < n) (hle : n ≤ C.members.card) : Committee α where
  members := C.members
  threshold := n
  threshold_pos := hpos
  threshold_le := hle

/-- The changes a committee can undergo. -/
inductive Moves : Committee α → Committee α → Prop
  | enrol (C : Committee α) (x : α) (hx : x ∉ C.members) : Moves C (C.enrol x hx)
  | expel (C : Committee α) (x : α) (hspare : C.threshold ≤ (C.members.erase x).card) :
      Moves C (C.expel x hspare)
  | retune (C : Committee α) (n : ℕ) (hpos : 0 < n) (hle : n ≤ C.members.card) :
      Moves C (C.retune n hpos hle)

end Committee

/-! ### Rosters: committees kept in a list -/

/-- What a stored signer list and a stored threshold owe each other. -/
structure IsRoster {α : Type} (signers : List α) (threshold : ℕ) : Prop where
  /-- No signer is listed twice. -/
  nodup : signers.Nodup
  /-- Nothing passes without a signer. -/
  one_le : 1 ≤ threshold
  /-- All of them together are enough. -/
  le_length : threshold ≤ signers.length

namespace IsRoster

variable {α : Type} {signers : List α} {threshold : ℕ}

theorem ne_nil (h : IsRoster signers threshold) : signers ≠ [] := by
  rintro rfl
  have hpos := h.one_le
  have hle := h.le_length
  rw [List.length_nil] at hle
  omega

variable [DecidableEq α]

/-- The committee a roster stands for. -/
def toCommittee (h : IsRoster signers threshold) : Committee α where
  members := signers.toFinset
  threshold := threshold
  threshold_pos := h.one_le
  threshold_le := by
    rw [List.toFinset_card_of_nodup h.nodup]
    exact h.le_length

@[simp] theorem toCommittee_members (h : IsRoster signers threshold) :
    h.toCommittee.members = signers.toFinset := rfl

@[simp] theorem toCommittee_threshold (h : IsRoster signers threshold) :
    h.toCommittee.threshold = threshold := rfl

/-- The whole roster, each member once, is a quorum of itself. -/
theorem countP_self (h : IsRoster signers threshold) :
    threshold ≤ signers.countP fun x ↦ decide (x ∈ signers) := by
  have hall : signers.countP (fun x ↦ decide (x ∈ signers)) = signers.length :=
    List.countP_eq_length.2 fun x hx ↦ by simpa using hx
  rw [hall]
  exact h.le_length

/-! #### Admitting -/

omit [DecidableEq α] in
theorem append (h : IsRoster signers threshold) {x : α} (hx : x ∉ signers) :
    IsRoster (signers ++ [x]) threshold where
  nodup := by
    refine h.nodup.append (List.nodup_singleton x) ?_
    intro a ha hax
    rw [List.mem_singleton] at hax
    exact hx (hax ▸ ha)
  one_le := h.one_le
  le_length := by
    rw [List.length_append, List.length_singleton]
    exact h.le_length.trans (Nat.le_succ _)

theorem moves_append (h : IsRoster signers threshold) {x : α} (hx : x ∉ signers) :
    Committee.Moves h.toCommittee (h.append hx).toCommittee := by
  have heq : (h.append hx).toCommittee = h.toCommittee.enrol x (by simpa using hx) := by
    ext a
    · simp [Committee.enrol]
    · simp [Committee.enrol]
  rw [heq]
  exact .enrol _ _ _

/-! #### Expelling -/

theorem erase (h : IsRoster signers threshold) {x : α}
    (hspare : threshold ≤ (signers.erase x).length) :
    IsRoster (signers.erase x) threshold where
  nodup := h.nodup.erase x
  one_le := h.one_le
  le_length := hspare

theorem moves_erase (h : IsRoster signers threshold) {x : α}
    (hspare : threshold ≤ (signers.erase x).length) :
    Committee.Moves h.toCommittee (h.erase hspare).toCommittee := by
  have hmem : (signers.erase x).toFinset = signers.toFinset.erase x := by
    ext a
    simp [h.nodup.mem_erase_iff]
  have hcard : h.toCommittee.threshold ≤ (h.toCommittee.members.erase x).card := by
    rw [toCommittee_members, ← hmem, List.toFinset_card_of_nodup (h.nodup.erase x)]
    exact hspare
  have heq : (h.erase hspare).toCommittee = h.toCommittee.expel x hcard := by
    ext a
    · simp [Committee.expel, hmem]
    · simp [Committee.expel]
  rw [heq]
  exact .expel _ _ _

/-! #### Retuning -/

omit [DecidableEq α] in
theorem retune (h : IsRoster signers threshold) {n : ℕ} (hpos : 1 ≤ n)
    (hle : n ≤ signers.length) : IsRoster signers n where
  nodup := h.nodup
  one_le := hpos
  le_length := hle

theorem moves_retune (h : IsRoster signers threshold) {n : ℕ} (hpos : 1 ≤ n)
    (hle : n ≤ signers.length) :
    Committee.Moves h.toCommittee (h.retune hpos hle).toCommittee :=
  .retune h.toCommittee n hpos (by rwa [toCommittee_members, List.toFinset_card_of_nodup h.nodup])

end IsRoster
