import Mathlib

/-!
# Runs of a system, and what their past says

A **system** answers each input with a result and a next state. A run is a list of inputs, written
**latest first**: the run that goes on from `is` with the input `i` is `i :: is`. So every fact
about runs is an induction on a list, and the head of a history is always the step just made.

Two rules carry the invariants of this development:

* `System.final_induction` — what holds of the start and is preserved by every step holds of every
  state a run ends in;
* `System.history_induction` — the same for a relation between the **whole past** and the state.
  This is the form needed whenever a stored value is only meaningful because of how it got there:
  a counter that has issued certain numbers, a list of approvals each of which someone once gave.

A third, `System.same_results`, compares two systems under the same inputs.

A **stretch** of a run is a run of the same system started where an earlier run ended. An invariant
of a stretch may ask something of each of its steps (`System.stretch_induction`), and a value that
is found in a slot is traced back to the step that left it there (`System.latest_of_slot`).

The past-time connectives `Since` and `AtMostOnce` are recursive on the history, so that each one
meets a new step through one simp lemma.
-/

/-- Something that answers inputs `ι` with results `ρ`, moving between states `σ`. -/
structure System (σ ι ρ : Type) where
  /-- The state before any input. -/
  start : σ
  /-- The answer to an input, and the state after it. -/
  exec : ι → σ → ρ × σ

/-- One step of a run: the state it was made in, its input, its result, and the state after. -/
structure Step (σ ι ρ : Type) where
  pre : σ
  input : ι
  result : ρ
  post : σ

namespace System

variable {σ ι ρ : Type} (M : System σ ι ρ)

/-- The state a run ends in. -/
def final : List ι → σ
  | [] => M.start
  | i :: is => (M.exec i (final is)).2

/-- The step an input makes from a state. -/
def stepFrom (s : σ) (i : ι) : Step σ ι ρ :=
  ⟨s, i, (M.exec i s).1, (M.exec i s).2⟩

/-- Everything that happened in a run, latest first. -/
def history : List ι → List (Step σ ι ρ)
  | [] => []
  | i :: is => M.stepFrom (M.final is) i :: history is

@[simp] theorem final_nil : M.final [] = M.start := rfl

@[simp] theorem final_cons (i : ι) (is : List ι) :
    M.final (i :: is) = (M.exec i (M.final is)).2 := rfl

@[simp] theorem history_nil : M.history [] = [] := rfl

@[simp] theorem history_cons (i : ι) (is : List ι) :
    M.history (i :: is) = M.stepFrom (M.final is) i :: M.history is := rfl

@[simp] theorem stepFrom_pre (s : σ) (i : ι) : (M.stepFrom s i).pre = s := rfl

@[simp] theorem stepFrom_input (s : σ) (i : ι) : (M.stepFrom s i).input = i := rfl

@[simp] theorem stepFrom_result (s : σ) (i : ι) : (M.stepFrom s i).result = (M.exec i s).1 := rfl

@[simp] theorem stepFrom_post (s : σ) (i : ι) : (M.stepFrom s i).post = (M.exec i s).2 := rfl

/-- **The invariant rule.** -/
theorem final_induction {P : σ → Prop} (hstart : P M.start)
    (hstep : ∀ s i, P s → P (M.exec i s).2) : ∀ is, P (M.final is) := by
  intro is
  induction is with
  | nil => exact hstart
  | cons i is ih => exact hstep _ i ih

/-- **The invariant rule for the past.** The step is given the state it is made from, so the
invariant may relate what happened to what is stored. -/
theorem history_induction {P : List (Step σ ι ρ) → σ → Prop} (hstart : P [] M.start)
    (hstep : ∀ h s i, P h s → P (M.stepFrom s i :: h) (M.exec i s).2) :
    ∀ is, P (M.history is) (M.final is) := by
  intro is
  induction is with
  | nil => exact hstart
  | cons i is ih => exact hstep _ _ i ih

/-- The same system, started in another state. -/
def startingAt (s : σ) : System σ ι ρ := { M with start := s }

@[simp] theorem startingAt_start (s : σ) : (M.startingAt s).start = s := rfl

@[simp] theorem startingAt_exec (s : σ) : (M.startingAt s).exec = M.exec := rfl

/-- **Two systems that cannot be told apart.** If related states answer every input alike and stay
related, then no run shows which of the two systems it is a run of. -/
theorem same_results {τ : Type} {M : System σ ι ρ} {N : System τ ι ρ} {R : σ → τ → Prop}
    (hstart : R M.start N.start)
    (hstep : ∀ s t i, R s t → (M.exec i s).1 = (N.exec i t).1 ∧ R (M.exec i s).2 (N.exec i t).2)
    (is : List ι) :
    (M.history is).map Step.result = (N.history is).map Step.result ∧
      R (M.final is) (N.final is) := by
  induction is with
  | nil => exact ⟨rfl, hstart⟩
  | cons i is ih =>
    obtain ⟨hresults, hrel⟩ := ih
    obtain ⟨hanswer, hrel'⟩ := hstep _ _ i hrel
    refine ⟨?_, hrel'⟩
    rw [history_cons, history_cons, List.map_cons, List.map_cons, hresults]
    exact congrArg (· :: _) hanswer

/-- The inputs of a history are those of the run. -/
@[simp]
theorem map_input_history (is : List ι) : (M.history is).map Step.input = is := by
  induction is with
  | nil => rfl
  | cons i is ih => rw [history_cons, List.map_cons, ih, stepFrom_input]

/-- What happened in an earlier part of a run happened in the run. -/
theorem history_suffix {is js : List ι} (h : js <:+ is) : M.history js <:+ M.history is := by
  obtain ⟨later, rfl⟩ := h
  induction later with
  | nil => exact List.suffix_refl _
  | cons i later ih => exact ih.trans (List.suffix_cons _ _)

/-- Every step of a history was made from the state its own past ended in. -/
theorem exists_of_mem_history {e : Step σ ι ρ} :
    ∀ {is : List ι}, e ∈ M.history is →
      ∃ is₀, e = M.stepFrom (M.final is₀) e.input ∧ e.input :: is₀ <:+ is := by
  intro is
  induction is with
  | nil => simp
  | cons i is ih =>
    intro he
    rcases List.mem_cons.1 he with rfl | he'
    · exact ⟨is, rfl, List.suffix_refl _⟩
    · obtain ⟨is₀, hstep, hsuf⟩ := ih he'
      exact ⟨is₀, hstep, hsuf.trans (List.suffix_cons i is)⟩

/-! ### Stretches of a run -/

section Stretch

variable {s : σ} {e : Step σ ι ρ} {during : List ι}

/-- A run in two parts: the later part starts where the earlier one ended. -/
theorem final_append (late early : List ι) :
    M.final (late ++ early) = (M.startingAt (M.final early)).final late := by
  induction late with
  | nil => rfl
  | cons i late ih => rw [List.cons_append, final_cons, final_cons, ih, startingAt_exec]

theorem history_append (late early : List ι) :
    M.history (late ++ early) =
      (M.startingAt (M.final early)).history late ++ M.history early := by
  induction late with
  | nil => rfl
  | cons i late ih =>
    rw [List.cons_append, history_cons, history_cons, List.cons_append, ih, final_append]
    rfl

/-- Every step of a stretch is a step of the system. -/
theorem eq_stepFrom_of_mem_history (he : e ∈ (M.startingAt s).history during) :
    e = M.stepFrom e.pre e.input := by
  obtain ⟨is₀, hstep, -⟩ := exists_of_mem_history _ he
  have hpre : e.pre = (M.startingAt s).final is₀ := by rw [hstep]; rfl
  rw [hpre]
  exact hstep

/-- **The invariant rule under a condition on each step.** It gives the state every step is made
from as well. -/
theorem stretch_induction {P : σ → Prop} {C : Step σ ι ρ → Prop} (hs : P s)
    (hstep : ∀ t i, P t → C (M.stepFrom t i) → P (M.exec i t).2)
    (hC : ∀ e ∈ (M.startingAt s).history during, C e) :
    P ((M.startingAt s).final during) ∧ ∀ e ∈ (M.startingAt s).history during, P e.pre := by
  induction during with
  | nil => exact ⟨hs, by simp⟩
  | cons i during ih =>
    rw [history_cons, List.forall_mem_cons] at hC ⊢
    obtain ⟨hfinal, hsteps⟩ := ih hC.2
    exact ⟨hstep _ i hfinal hC.1, hfinal, hsteps⟩

end Stretch

/-- The latest step that acts is one of which `P` holds. -/
def Latest (Acts P : Step σ ι ρ → Prop) (is : List ι) : Prop :=
  ∃ since i before, is = since ++ i :: before ∧
    Acts (M.stepFrom (M.final before) i) ∧ P (M.stepFrom (M.final before) i) ∧
    ∀ e ∈ (M.startingAt (M.final (i :: before))).history since, ¬Acts e

/-- **Where a stored value comes from.** If only acting steps change a slot, which is empty at the
start, then what is found in it was left there by the latest acting step. -/
theorem latest_of_slot {τ : Type} (slot : σ → Option τ) {Acts : Step σ ι ρ → Prop}
    {Writes : τ → Step σ ι ρ → Prop} (hstart : slot M.start = none)
    (hkeep : ∀ before i, ¬Acts (M.stepFrom (M.final before) i) →
      slot (M.final (i :: before)) = slot (M.final before))
    (hwrite : ∀ before i v, Acts (M.stepFrom (M.final before) i) →
      slot (M.final (i :: before)) = some v → Writes v (M.stepFrom (M.final before) i))
    {is : List ι} {v : τ} (hv : slot (M.final is) = some v) :
    M.Latest Acts (Writes v) is := by
  induction is with
  | nil =>
    rw [final_nil, hstart] at hv
    cases hv
  | cons i is ih =>
    by_cases hacts : Acts (M.stepFrom (M.final is) i)
    · exact ⟨[], i, is, rfl, hacts, hwrite is i v hacts hv, by simp⟩
    · rw [hkeep is i hacts] at hv
      obtain ⟨since, j, before, rfl, hj, hwrites, hsince⟩ := ih hv
      refine ⟨i :: since, j, before, rfl, hj, hwrites, ?_⟩
      rw [history_cons, List.forall_mem_cons, ← final_append]
      exact ⟨hacts, hsince⟩

/-- **Nothing acts between.** Any acting step of a run is the latest one, or was made before it. -/
theorem eq_or_before_of_acts {Acts : Step σ ι ρ → Prop} {since before late early : List ι} {i j : ι}
    (hsplit : since ++ i :: before = late ++ j :: early)
    (hquiet : ∀ e ∈ (M.startingAt (M.final (i :: before))).history since, ¬Acts e)
    (hacts : Acts (M.stepFrom (M.final early) j)) :
    i = j ∨ ∃ mid, before = mid ++ j :: early := by
  rcases List.append_eq_append_iff.1 hsplit with ⟨mid, rfl, hrest⟩ | ⟨mid, rfl, hrest⟩
  · cases mid with
    | nil => exact .inl (List.cons.inj hrest).1
    | cons k mid => exact .inr ⟨mid, (List.cons.inj hrest).2⟩
  · cases mid with
    | nil => exact .inl (List.cons.inj hrest).1.symm
    | cons k mid =>
      obtain ⟨rfl, hearly⟩ := List.cons.inj hrest
      have hfinal : M.final early = (M.startingAt (M.final (i :: before))).final mid := by
        rw [hearly]
        exact M.final_append mid (i :: before)
      rw [hfinal] at hacts
      -- then the step lies among those that do not act
      refine absurd hacts (hquiet _ ?_)
      rw [history_append, history_cons]
      exact List.mem_append_right _ List.mem_cons_self

end System

/-! ### Past-time connectives -/

section Past

variable {α : Type} {R P : α → Prop} {h : List α} {e : α}

/-- `P` happened, and `R` has not happened since (nor at that moment). -/
def Since (R P : α → Prop) : List α → Prop
  | [] => False
  | e :: h => ¬R e ∧ (P e ∨ Since R P h)

@[simp] theorem since_nil : Since R P [] ↔ False := Iff.rfl

@[simp] theorem since_cons : Since R P (e :: h) ↔ ¬R e ∧ (P e ∨ Since R P h) := Iff.rfl

theorem Since.exists_mem : ∀ {h : List α}, Since R P h → ∃ e ∈ h, P e := by
  intro h
  induction h with
  | nil => exact False.elim
  | cons e h ih =>
    rintro ⟨-, hP | hsince⟩
    · exact ⟨e, List.mem_cons_self, hP⟩
    · obtain ⟨e', he', hP⟩ := ih hsince
      exact ⟨e', List.mem_cons_of_mem _ he', hP⟩

/-- `P` happened no more than once. -/
def AtMostOnce (P : α → Prop) : List α → Prop
  | [] => True
  | e :: h => (P e → ∀ e' ∈ h, ¬P e') ∧ AtMostOnce P h

@[simp] theorem atMostOnce_nil : AtMostOnce P [] ↔ True := Iff.rfl

@[simp] theorem atMostOnce_cons :
    AtMostOnce P (e :: h) ↔ (P e → ∀ e' ∈ h, ¬P e') ∧ AtMostOnce P h := Iff.rfl

theorem atMostOnce_iff_pairwise :
    ∀ {h : List α}, AtMostOnce P h ↔ h.Pairwise fun later earlier ↦ P later → ¬P earlier := by
  intro h
  induction h with
  | nil => simp
  | cons e h ih =>
    rw [atMostOnce_cons, List.pairwise_cons, ih]
    exact and_congr_left fun _ ↦ ⟨fun hnew e' he' hP ↦ hnew hP e' he',
      fun hnew hP e' he' ↦ hnew e' he' hP⟩

end Past
