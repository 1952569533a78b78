import CompliancePrimitives.Foundation.Run

/-!
# Handing over a role in two steps

A role has a **holder**, and at most one **pending** successor. The holder proposes a successor, who
becomes the holder by accepting; until then the holder may propose another one, take the proposal
back, or hand the role over at once. `Moves` says what each of these does and whose authorization it
takes.

The guard of an acceptance looks at the pending slot alone. That the slot is never out of date is a
fact about whole runs: whatever is found in it was proposed by the **present** holder, and nothing
was done to the role since (`View.Follows.twoStep`). It holds for every system whose steps are moves
(`View.Follows`), and needs nothing else of the system.
-/

namespace Handover

variable {P : Type}

/-- Who holds a role, and who is to hold it next. -/
@[ext]
structure Roles (P : Type) where
  holder : Option P
  pending : Option P
  deriving DecidableEq

/-- Nobody holds the role yet. -/
def Roles.vacant : Roles P := ⟨none, none⟩

/-- What may be done to a role. -/
inductive Move (P : Type) where
  | found (x : P)
  | propose (holder x : P)
  | accept (x : P)
  | cancel (holder : P)
  | transfer (holder x : P)
  | other
  deriving DecidableEq

/-- **What a move takes, and what it does.** -/
inductive Moves (auths : P → Bool) : Move P → Roles P → Roles P → Prop
  | found {x : P} {r : Roles P} (hnone : r.holder = none) (hauth : auths x = true) :
    Moves auths (.found x) r ⟨some x, r.pending⟩
  | propose {c x : P} {r : Roles P} (hholder : r.holder = some c) (hauth : auths c = true) :
    Moves auths (.propose c x) r ⟨r.holder, some x⟩
  | accept {c x : P} {r : Roles P} (hholder : r.holder = some c) (hpending : r.pending = some x)
    (hauth : auths x = true) : Moves auths (.accept x) r ⟨some x, none⟩
  | cancel {c : P} {r : Roles P} (hholder : r.holder = some c) (hauth : auths c = true) :
    Moves auths (.cancel c) r ⟨r.holder, none⟩
  | transfer {c x : P} {r : Roles P} (hholder : r.holder = some c) (hauth : auths c = true) :
    Moves auths (.transfer c x) r ⟨some x, none⟩
  | other {r : Roles P} : Moves auths .other r r

variable {auths : P → Bool} {m : Move P} {r r' : Roles P} {c : P}

theorem Moves.eq_of_other (h : Moves auths m r r') (hm : m = .other) : r' = r := by
  cases h with
  | found | propose | accept | cancel | transfer => cases hm
  | other => rfl

theorem Moves.of_kept (hm : m = .other) (hr : r' = r) : Moves auths m r r' := by
  rw [hm, hr]
  exact .other

/-- An acceptance is made by whoever is pending. -/
theorem Moves.of_accept {x : P} (h : Moves auths m r r') (hm : m = .accept x) :
    auths x = true ∧ r.pending = some x ∧ ∃ holder, r.holder = some holder := by
  cases h with
  | accept hholder hpending hauth =>
    cases hm
    exact ⟨hauth, hpending, _, hholder⟩
  | found | propose | cancel | transfer | other => cases hm

/-- Whoever is pending after a move that is made, on a role with nobody pending while it is vacant,
was proposed by it. -/
theorem Moves.proposed {x : P} (h : Moves auths m r r') (hm : m ≠ .other)
    (hr : r.holder = none → r.pending = none) (hx : r'.pending = some x) :
    ∃ holder, m = .propose holder x ∧ auths holder = true ∧ r.holder = some holder ∧
      r'.holder = some holder := by
  cases h with
  | found hnone =>
    rw [hr hnone] at hx
    cases hx
  | propose hholder hauth =>
    cases hx
    exact ⟨_, rfl, hauth, hholder, hholder⟩
  | accept | cancel | transfer => cases hx
  | other => exact absurd rfl hm

/-- Nobody is proposed for a role that is vacant. -/
theorem Moves.pending_of_vacant (h : Moves auths m r r')
    (hr : r.holder = none → r.pending = none) (hr' : r'.holder = none) : r'.pending = none := by
  cases h with
  | found | accept | transfer => cases hr'
  | propose hholder => cases hholder.symm.trans hr'
  | cancel => rfl
  | other => exact hr hr'

/-- A role that is held stays held. -/
theorem Moves.isSome_holder (h : Moves auths m r r') (hheld : r.holder.isSome = true) :
    r'.holder.isSome = true := by
  cases h with
  | found | accept | transfer => rfl
  | propose | cancel | other => exact hheld

/-- Whoever withholds his authorization is the only one whose authorization would count. -/
theorem not_authorized {slot : Option P} (hslot : slot = some c) (hauth : auths c = false) :
    ∀ a, slot = some a → auths a = true → False := by
  intro a ha hyes
  obtain rfl : c = a := Option.some.inj (hslot.symm.trans ha)
  rw [hauth] at hyes
  cases hyes

/-- **Without its holder's authorization** a role moves only by an acceptance of whoever is
pending. -/
theorem Moves.of_unauthorized (h : Moves auths m r r') (hheld : r.holder = some c)
    (hauth : auths c = false) :
    (m = .other ∧ r' = r) ∨
      ∃ x, m = .accept x ∧ r.pending = some x ∧ auths x = true ∧ r' = ⟨some x, none⟩ := by
  have habsurd := not_authorized hheld hauth
  cases h with
  | found hnone => cases hheld.symm.trans hnone
  | propose hholder hyes => exact (habsurd _ hholder hyes).elim
  | accept _ hpending hyes => exact .inr ⟨_, rfl, hpending, hyes, rfl⟩
  | cancel hholder hyes => exact (habsurd _ hholder hyes).elim
  | transfer hholder hyes => exact (habsurd _ hholder hyes).elim
  | other => exact .inl ⟨rfl, rfl⟩

/-! ### Runs of a system with a role in it -/

variable {σ ι ρ : Type}

/-- How a role is read off a system: off its states, its inputs and its results. -/
structure View (P σ ι ρ : Type) where
  /-- The holder of the role and whom it is offered to, in a state. -/
  roles : σ → Roles P
  /-- What an input asks of the role. -/
  move : ι → Move P
  /-- Whether someone has authorized an input. -/
  auths : ι → P → Bool
  /-- The result is not that of a failure. -/
  completed : ρ → Prop

namespace View

variable (V : View P σ ι ρ) (M : System σ ι ρ)

/-- The step did something to the role. -/
def Acts (e : Step σ ι ρ) : Prop := V.completed e.result ∧ V.move e.input ≠ .other

/-- In the step the holder of the role proposed `x`, and remained the holder. -/
def Proposes (x : P) (e : Step σ ι ρ) : Prop :=
  ∃ holder, V.move e.input = .propose holder x ∧ V.auths e.input holder = true ∧
    (V.roles e.pre).holder = some holder ∧ (V.roles e.post).holder = some holder

/-- Every step of a run is a move, or leaves the role alone because it did not complete. -/
structure Follows : Prop where
  /-- At first nobody holds the role, and it is offered to nobody. -/
  start : V.roles M.start = .vacant
  /-- A step that completes makes its move, and one that does not leaves the role as it is. -/
  step : ∀ inputs i,
    (V.completed (M.exec i (M.final inputs)).1 ∧
        Moves (V.auths i) (V.move i) (V.roles (M.final inputs))
          (V.roles (M.exec i (M.final inputs)).2)) ∨
      (¬V.completed (M.exec i (M.final inputs)).1 ∧
        V.roles (M.exec i (M.final inputs)).2 = V.roles (M.final inputs))

/-- **Hand-over takes two steps.** Whenever `x` accepts, `x` authorizes, and the latest thing done
to the role was that its present holder proposed `x`. Nobody else has held the role since. -/
def TwoStep : Prop :=
  ∀ inputs i x, V.move i = .accept x → V.completed (M.exec i (M.final inputs)).1 →
    V.auths i x = true ∧
      ∃ holder, (V.roles (M.final inputs)).holder = some holder ∧
        ∃ since proposal before, inputs = since ++ proposal :: before ∧
          V.move proposal = .propose holder x ∧
          V.completed (M.exec proposal (M.final before)).1 ∧
          V.auths proposal holder = true ∧
          (V.roles (M.final before)).holder = some holder ∧
          ∀ e ∈ (M.startingAt (M.final (proposal :: before))).history since,
            ¬V.Acts e ∧ (V.roles e.pre).holder = some holder ∧
              (V.roles e.post).holder = some holder

variable {V M}

namespace Follows

variable (hV : V.Follows M)
include hV

/-- What does not act leaves the role alone. -/
theorem roles_of_not_acts {inputs : List ι} {i : ι}
    (hacts : ¬V.Acts (M.stepFrom (M.final inputs) i)) :
    V.roles (M.final (i :: inputs)) = V.roles (M.final inputs) := by
  rcases hV.step inputs i with ⟨hcompleted, hmoves⟩ | ⟨-, hkept⟩
  · refine hmoves.eq_of_other ?_
    by_contra hne
    exact hacts ⟨hcompleted, hne⟩
  · exact hkept

/-- A completed step is a move. -/
theorem moves_of_completed {inputs : List ι} {i : ι}
    (hcompleted : V.completed (M.exec i (M.final inputs)).1) :
    Moves (V.auths i) (V.move i) (V.roles (M.final inputs)) (V.roles (M.final (i :: inputs))) :=
  (hV.step inputs i).elim And.right fun h ↦ absurd hcompleted h.1

/-- Nobody is ever proposed for a vacant role. -/
theorem pending_of_vacant (inputs : List ι) :
    (V.roles (M.final inputs)).holder = none → (V.roles (M.final inputs)).pending = none := by
  induction inputs with
  | nil =>
    rw [System.final_nil, hV.start]
    exact fun _ ↦ rfl
  | cons i inputs ih =>
    rw [System.final_cons]
    rcases hV.step inputs i with ⟨-, hmoves⟩ | ⟨-, hkept⟩
    · exact hmoves.pending_of_vacant ih
    · rwa [hkept]

/-- While nothing is done to the role, it stays as it is. -/
theorem roles_of_quiet {before during : List ι}
    (hquiet : ∀ e ∈ (M.startingAt (M.final before)).history during, ¬V.Acts e) :
    V.roles (M.final (during ++ before)) = V.roles (M.final before) ∧
      ∀ e ∈ (M.startingAt (M.final before)).history during,
        V.roles e.pre = V.roles (M.final before) ∧ V.roles e.post = V.roles (M.final before) := by
  induction during with
  | nil => exact ⟨rfl, by simp⟩
  | cons i during ih =>
    rw [System.history_cons, List.forall_mem_cons, ← System.final_append] at hquiet ⊢
    obtain ⟨hfinal, hsteps⟩ := ih hquiet.2
    have hpost : V.roles (M.final (i :: (during ++ before))) = V.roles (M.final before) :=
      (hV.roles_of_not_acts hquiet.1).trans hfinal
    exact ⟨hpost, ⟨hfinal, hpost⟩, hsteps⟩

/-- **Whoever is pending was proposed by the holder at that time**, and nothing was done to the role
since. -/
theorem latest_proposal {inputs : List ι} {x : P}
    (hx : (V.roles (M.final inputs)).pending = some x) : M.Latest V.Acts (V.Proposes x) inputs := by
  refine M.latest_of_slot (fun s ↦ (V.roles s).pending) ?_ (fun before i hacts ↦ ?_)
    (fun before i y hacts hy ↦ ?_) hx
  · rw [hV.start]
    rfl
  · exact congrArg Roles.pending (hV.roles_of_not_acts hacts)
  · exact (hV.moves_of_completed hacts.1).proposed hacts.2 (hV.pending_of_vacant before) hy

/-- **Hand-over takes two steps** in every system whose steps are moves. -/
theorem twoStep : V.TwoStep M := by
  intro inputs i x hmove hcompleted
  obtain ⟨hauth, hpending, -⟩ := (hV.moves_of_completed hcompleted).of_accept hmove
  obtain ⟨since, proposal, before, rfl, hacts, ⟨holder, hproposes, hsigned, hpre, hpost⟩, hquiet⟩ :=
    hV.latest_proposal hpending
  obtain ⟨hfinal, hsteps⟩ := hV.roles_of_quiet hquiet
  have hpost' : (V.roles (M.final (proposal :: before))).holder = some holder := hpost
  refine ⟨hauth, holder, ?_, since, proposal, before, rfl, hproposes, hacts.1, hsigned, hpre,
    fun e he ↦ ⟨hquiet e he, ?_, ?_⟩⟩
  · exact (congrArg Roles.holder hfinal).trans hpost'
  · exact (congrArg Roles.holder (hsteps e he).1).trans hpost'
  · exact (congrArg Roles.holder (hsteps e he).2).trans hpost'

end Follows

end View

end Handover
