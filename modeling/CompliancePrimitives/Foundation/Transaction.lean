import Mathlib

/-!
# Transactions with rollback

A **transaction** reads and rewrites a state and either completes with a value, stops with a typed
error, or is trapped by its host. Nothing of a transaction that does not complete is kept:
`Tx.commit` returns the state the transaction was started in, so a half-made write is never
visible.

Two kinds of facts about transactions are used everywhere above this module, and both are stated
here once:

* **inversion** — the `_eq_ok_iff` lemmas say exactly when a composite transaction completes, and
  with which state. They are simp lemmas, so unfolding an operation and simplifying turns "it
  completed" into the conjunction of its guards and the state it leaves;
* **frames** — `Tx.Keeps f x` says that `x` never changes the observation `f` of the state, and
  then committing it does not either (`Tx.Keeps.commit`).

Others are for particular uses. `Tx.FailsClosed` is for transactions that decide a
question: what they accept is what the question asks for, and not completing is no way around it.
`Tx.Commutes f x` says that `x` is blind to a change `f` of the state, such as the choice between
two ways of storing the same thing. Where more than a decision is asked for, `Tx.Yields` names the
answer of a transaction that completes.

Nothing here depends on what the state is.
-/

/-- Why a transaction did not complete: a typed error of the program, or a trap of its host. -/
inductive Failure (ε : Type) where
  | error (e : ε)
  | trap
  deriving DecidableEq, Repr

/-- A transaction over states `σ` with errors `ε` and value `α`. -/
def Tx (ε σ α : Type) := σ → Except (Failure ε) (α × σ)

namespace Tx

variable {ε ε' σ τ α β γ : Type}

instance : Monad (Tx ε σ) where
  pure a := fun s ↦ .ok (a, s)
  bind x f := fun s ↦
    match x s with
    | .ok (a, s') => f a s'
    | .error e => .error e

/-! ### Primitive transactions -/

/-- Stop with the typed error `e`. -/
def fail (e : ε) : Tx ε σ α := fun _ ↦ .error (.error e)

/-- Be stopped by the host. -/
def trap : Tx ε σ α := fun _ ↦ .error .trap

/-- Read the whole state. -/
def get : Tx ε σ σ := fun s ↦ .ok (s, s)

/-- Rewrite the state. -/
def modify (f : σ → σ) : Tx ε σ Unit := fun s ↦ .ok ((), f s)

/-- Go on only if `c` holds, and stop with `e` otherwise. -/
def ensure (c : Prop) [Decidable c] (e : ε) : Tx ε σ Unit :=
  if c then pure () else fail e

/-- Go on only if `c` holds, and trap otherwise. -/
def orTrap (c : Prop) [Decidable c] : Tx ε σ Unit :=
  if c then pure () else trap

/-- The value of an option, or the error `e` when there is none. -/
def okOr (o : Option α) (e : ε) : Tx ε σ α :=
  match o with
  | some a => pure a
  | none => fail e

/-- Run `x` for the host: a typed error inside becomes a trap outside. -/
def asHost (x : Tx ε σ α) : Tx ε σ α := fun s ↦
  match x s with
  | .ok r => .ok r
  | .error _ => .error .trap

/-- Run `x` on a part of a larger state, which may be missing. -/
def within (read : σ → Option τ) (write : τ → σ → σ) (x : Tx ε τ α) : Tx ε σ α := fun s ↦
  match read s with
  | none => .error .trap
  | some t =>
    match x t with
    | .ok (a, t') => .ok (a, write t' s)
    | .error e => .error e

/-- Run `x` on the first half of a state. -/
def onFst (x : Tx ε σ α) : Tx ε (σ × τ) α :=
  within (fun p ↦ some p.1) (fun s p ↦ (s, p.2)) x

/-- Run `x` on the second half of a state. -/
def onSnd (x : Tx ε τ α) : Tx ε (σ × τ) α :=
  within (fun p ↦ some p.2) (fun t p ↦ (p.1, t)) x

/-- Call into another program: whatever stops the callee is a trap for the caller. -/
def call (x : Tx ε σ α) : Tx ε' σ α := fun s ↦
  match x s with
  | .ok r => .ok r
  | .error _ => .error .trap

/-- Call into another program and survive its failure, which undoes what it did. -/
def attempt (x : Tx ε σ α) : Tx ε' σ (Option α) := fun s ↦
  match x s with
  | .ok (a, s') => .ok (some a, s')
  | .error _ => .ok (none, s)

/-- Ask about two, the second only if the first passes. -/
def both (ask : β → Tx ε σ Bool) (first second : β) : Tx ε σ Bool := do
  let passes ← ask first
  if passes then ask second else pure false

/-- Run a transaction to its end: the new state when it completes, the old state otherwise. -/
def commit (x : Tx ε σ α) (s : σ) : Except (Failure ε) α × σ :=
  match x s with
  | .ok (a, s') => (.ok a, s')
  | .error e => (.error e, s)

/-! ### When a transaction completes -/

@[simp]
theorem pure_eq_ok_iff {a b : α} {s s' : σ} :
    (pure a : Tx ε σ α) s = .ok (b, s') ↔ b = a ∧ s' = s := by
  constructor
  · intro h
    cases h
    exact ⟨rfl, rfl⟩
  · rintro ⟨rfl, rfl⟩
    rfl

@[simp]
theorem bind_eq_ok_iff {x : Tx ε σ α} {f : α → Tx ε σ β} {s s' : σ} {b : β} :
    (x >>= f) s = .ok (b, s') ↔ ∃ a s₁, x s = .ok (a, s₁) ∧ f a s₁ = .ok (b, s') := by
  show (match x s with
    | .ok (a, s₁) => f a s₁
    | .error e => .error e) = .ok (b, s') ↔ _
  rcases hx : x s with e | ⟨a, s₁⟩ <;> simp

/-- Running `x` and reshaping its value completes exactly when `x` does. -/
theorem bind_pure_eq_ok_iff {x : Tx ε σ α} {f : α → β} {s s' : σ} {b : β} :
    (x >>= fun a ↦ pure (f a)) s = .ok (b, s') ↔ ∃ a, x s = .ok (a, s') ∧ b = f a := by
  simp only [bind_eq_ok_iff, pure_eq_ok_iff]
  constructor
  · rintro ⟨a, s₁, hx, rfl, rfl⟩
    exact ⟨a, hx, rfl⟩
  · rintro ⟨a, hx, rfl⟩
    exact ⟨a, s', hx, rfl, rfl⟩

/-- **A loop without exits.** If every round completes, and `F` says what rounds for a list of items
make of a state, that is what the loop leaves. -/
theorem foldlM_eq_ok_iff {k : β → Tx ε σ Unit} {f : β → σ → σ} {F : List β → σ → σ}
    (hround : ∀ b s s', k b s = .ok ((), s') ↔ s' = f b s) (hnil : ∀ s, F [] s = s)
    (hcons : ∀ b l s, F (b :: l) s = F l (f b s)) {l : List β} {s s' : σ} {u : Unit} :
    l.foldlM (fun _ b ↦ k b) () s = .ok (u, s') ↔ s' = F l s := by
  induction l generalizing s with
  | nil => rw [List.foldlM_nil, pure_eq_ok_iff, hnil, eq_self, true_and]
  | cons b l ih =>
    have hfirst : ∀ s₁, k b s = .ok ((), s₁) ↔ s₁ = f b s := hround b s
    rw [List.foldlM_cons, bind_eq_ok_iff, hcons, ← ih]
    constructor
    · rintro ⟨_, s₁, hb, hrest⟩
      rwa [(hfirst s₁).1 hb] at hrest
    · intro hrest
      exact ⟨(), f b s, (hfirst _).2 rfl, hrest⟩

@[simp]
theorem fail_eq_ok_iff {e : ε} {s s' : σ} {a : α} :
    (fail e : Tx ε σ α) s = .ok (a, s') ↔ False := by
  simp [fail]

@[simp]
theorem trap_eq_ok_iff {s s' : σ} {a : α} :
    (trap : Tx ε σ α) s = .ok (a, s') ↔ False := by
  simp [trap]

@[simp]
theorem get_eq_ok_iff {s s' t : σ} :
    (get : Tx ε σ σ) s = .ok (t, s') ↔ t = s ∧ s' = s := by
  simp only [get, Except.ok.injEq, Prod.mk.injEq]
  exact ⟨fun h ↦ ⟨h.1.symm, h.2.symm⟩, fun h ↦ ⟨h.1.symm, h.2.symm⟩⟩

@[simp]
theorem modify_eq_ok_iff {f : σ → σ} {s s' : σ} {u : Unit} :
    (modify f : Tx ε σ Unit) s = .ok (u, s') ↔ s' = f s := by
  simp only [modify, Except.ok.injEq, Prod.mk.injEq, true_and]
  exact eq_comm

@[simp]
theorem ensure_eq_ok_iff {c : Prop} [Decidable c] {e : ε} {s s' : σ} {u : Unit} :
    (ensure c e : Tx ε σ Unit) s = .ok (u, s') ↔ c ∧ s' = s := by
  by_cases hc : c <;> simp [ensure, hc]

@[simp]
theorem orTrap_eq_ok_iff {c : Prop} [Decidable c] {s s' : σ} {u : Unit} :
    (orTrap c : Tx ε σ Unit) s = .ok (u, s') ↔ c ∧ s' = s := by
  by_cases hc : c <;> simp [orTrap, hc]

@[simp]
theorem okOr_eq_ok_iff {o : Option α} {e : ε} {s s' : σ} {a : α} :
    (okOr o e : Tx ε σ α) s = .ok (a, s') ↔ o = some a ∧ s' = s := by
  cases o with
  | none => simp [okOr]
  | some b =>
    rw [okOr, pure_eq_ok_iff, Option.some.injEq]
    exact and_congr_left fun _ ↦ eq_comm

@[simp]
theorem asHost_eq_ok_iff {x : Tx ε σ α} {s s' : σ} {a : α} :
    asHost x s = .ok (a, s') ↔ x s = .ok (a, s') := by
  rcases hx : x s with e | r <;> simp [asHost, hx]

theorem within_eq_ok_iff {read : σ → Option τ} {write : τ → σ → σ} {x : Tx ε τ α} {s s' : σ}
    {a : α} :
    within read write x s = .ok (a, s') ↔
      ∃ t t', read s = some t ∧ x t = .ok (a, t') ∧ s' = write t' s := by
  rcases hs : read s with _ | t
  · simp [within, hs]
  · rcases hx : x t with e | ⟨b, t'⟩
    · simp [within, hs, hx]
    · simp only [within, hs, hx, Except.ok.injEq, Prod.mk.injEq, Option.some.injEq,
        exists_and_left]
      constructor
      · rintro ⟨rfl, rfl⟩
        exact ⟨t, rfl, t', by rw [hx], rfl⟩
      · rintro ⟨_, rfl, t'', ht, rfl⟩
        simp only [hx, Except.ok.injEq, Prod.mk.injEq] at ht
        exact ⟨ht.1, by rw [ht.2]⟩

@[simp]
theorem onFst_eq_ok_iff {x : Tx ε σ α} {p p' : σ × τ} {a : α} :
    onFst x p = .ok (a, p') ↔ x p.1 = .ok (a, p'.1) ∧ p'.2 = p.2 := by
  rw [onFst, within_eq_ok_iff]
  constructor
  · rintro ⟨_, s', hread, hx, rfl⟩
    cases hread
    exact ⟨hx, rfl⟩
  · rintro ⟨hx, hsnd⟩
    exact ⟨p.1, p'.1, rfl, hx, Prod.ext rfl hsnd⟩

@[simp]
theorem onSnd_eq_ok_iff {x : Tx ε τ α} {p p' : σ × τ} {a : α} :
    onSnd x p = .ok (a, p') ↔ x p.2 = .ok (a, p'.2) ∧ p'.1 = p.1 := by
  rw [onSnd, within_eq_ok_iff]
  constructor
  · rintro ⟨_, t', hread, hx, rfl⟩
    cases hread
    exact ⟨hx, rfl⟩
  · rintro ⟨hx, hfst⟩
    exact ⟨p.2, p'.2, rfl, hx, Prod.ext hfst rfl⟩

@[simp]
theorem call_eq_ok_iff {x : Tx ε σ α} {s s' : σ} {a : α} :
    (call x : Tx ε' σ α) s = .ok (a, s') ↔ x s = .ok (a, s') := by
  rcases hx : x s with e | r <;> simp [call, hx]

/-! ### Running a composite step by step -/

theorem bind_of_ok {x : Tx ε σ α} {f : α → Tx ε σ β} {s s₁ : σ} {a : α}
    (h : x s = .ok (a, s₁)) : (x >>= f) s = f a s₁ := by
  show (match x s with
    | .ok (a, s₁) => f a s₁
    | .error e => .error e) = _
  rw [h]

theorem bind_of_error {x : Tx ε σ α} {f : α → Tx ε σ β} {s : σ} {e : Failure ε}
    (h : x s = .error e) : (x >>= f) s = .error e := by
  show (match x s with
    | .ok (a, s₁) => f a s₁
    | .error e => .error e) = _
  rw [h]

theorem ensure_of_not {c : Prop} [Decidable c] {e : ε} {s : σ} (h : ¬c) :
    (ensure c e : Tx ε σ Unit) s = .error (.error e) := by
  rw [ensure, if_neg h]
  rfl

theorem within_of_error {read : σ → Option τ} {write : τ → σ → σ} {x : Tx ε τ α} {s : σ} {t : τ}
    {e : Failure ε} (hs : read s = some t) (h : x t = .error e) :
    within read write x s = .error e := by
  rw [within, hs]
  dsimp only
  rw [h]

theorem onSnd_of_error {x : Tx ε τ α} {p : σ × τ} {e : Failure ε} (h : x p.2 = .error e) :
    onSnd x p = .error e :=
  within_of_error rfl h

theorem call_of_error {x : Tx ε σ α} {s : σ} {e : Failure ε} (h : x s = .error e) :
    (call x : Tx ε' σ α) s = .error .trap := by
  rw [call, h]

theorem attempt_of_ok {x : Tx ε σ α} {s s' : σ} {a : α} (h : x s = .ok (a, s')) :
    (attempt x : Tx ε' σ (Option α)) s = .ok (some a, s') := by
  rw [attempt, h]

theorem attempt_of_error {x : Tx ε σ α} {s : σ} {e : Failure ε} (h : x s = .error e) :
    (attempt x : Tx ε' σ (Option α)) s = .ok (none, s) := by
  rw [attempt, h]

/-! ### Commit -/

theorem commit_of_ok {x : Tx ε σ α} {s s' : σ} {a : α} (h : x s = .ok (a, s')) :
    x.commit s = (.ok a, s') := by
  rw [commit, h]

theorem commit_of_error {x : Tx ε σ α} {s : σ} {e : Failure ε} (h : x s = .error e) :
    x.commit s = (.error e, s) := by
  rw [commit, h]

/-- A committed value comes from a completed transaction, with its state. -/
theorem ok_of_commit_fst {x : Tx ε σ α} {s : σ} {a : α} (h : (x.commit s).1 = .ok a) :
    x s = .ok (a, (x.commit s).2) := by
  rcases hx : x s with e | ⟨b, s'⟩
  · simp [commit, hx] at h
  · simp only [commit, hx, Except.ok.injEq] at h ⊢
    rw [h]

/-- **Either it completes, or nothing happened.** -/
theorem commit_cases (x : Tx ε σ α) (s : σ) :
    (∃ a s', x s = .ok (a, s') ∧ x.commit s = (.ok a, s')) ∨
      ∃ e, x s = .error e ∧ x.commit s = (.error e, s) := by
  rcases hx : x s with e | ⟨a, s'⟩
  · exact .inr ⟨e, rfl, commit_of_error hx⟩
  · exact .inl ⟨a, s', rfl, commit_of_ok hx⟩

/-- The same, as facts about the answer and the committed state. -/
theorem commit_answer (x : Tx ε σ α) (s : σ) :
    (∃ a, (x.commit s).1 = .ok a ∧ x s = .ok (a, (x.commit s).2)) ∨
      (∃ e, (x.commit s).1 = .error e) ∧ (x.commit s).2 = s := by
  rcases commit_cases x s with ⟨a, s', hx, hc⟩ | ⟨e, -, hc⟩
  · rw [hc]
    exact .inl ⟨a, rfl, hx⟩
  · rw [hc]
    exact .inr ⟨⟨e, rfl⟩, rfl⟩

/-- What holds of the old state and of every state the transaction can complete in, holds of the
committed state. -/
theorem commit_induction {x : Tx ε σ α} {s : σ} {P : σ → Prop} (hs : P s)
    (h : ∀ a s', x s = .ok (a, s') → P s') : P (x.commit s).2 := by
  rcases commit_cases x s with ⟨a, s', hx, hc⟩ | ⟨e, -, hc⟩
  · rw [hc]
    exact h a s' hx
  · rw [hc]
    exact hs

/-! ### Frames -/

/-- `x` keeps the observation `f`: completing it leaves `f` of the state as it was. -/
def Keeps (f : σ → γ) (x : Tx ε σ α) : Prop :=
  ∀ ⦃s a s'⦄, x s = .ok (a, s') → f s' = f s

/-- Committing a transaction keeps what the transaction keeps. -/
theorem Keeps.commit {f : σ → γ} {x : Tx ε σ α} (hx : Keeps f x) (s : σ) :
    f (x.commit s).2 = f s :=
  commit_induction (P := fun s' ↦ f s' = f s) rfl fun _ _ h ↦ hx h

theorem keeps_pure (f : σ → γ) (a : α) : Keeps f (pure a : Tx ε σ α) := by
  intro s b s' h
  rw [(pure_eq_ok_iff.1 h).2]

theorem Keeps.bind {f : σ → γ} {x : Tx ε σ α} {k : α → Tx ε σ β} (hx : Keeps f x)
    (hk : ∀ a, Keeps f (k a)) : Keeps f (x >>= k) := by
  intro s b s' h
  obtain ⟨a, s₁, hfirst, hrest⟩ := bind_eq_ok_iff.1 h
  exact (hk a hrest).trans (hx hfirst)

theorem keeps_foldlM {f : σ → γ} {k : β → α → Tx ε σ β} (hk : ∀ b a, Keeps f (k b a))
    (l : List α) (b : β) : Keeps f (l.foldlM k b) := by
  induction l generalizing b with
  | nil => exact keeps_pure f b
  | cons a l ih =>
    rw [List.foldlM_cons]
    exact (hk b a).bind ih

/-- Of a state in two halves, work on one half keeps what is seen of the other. -/
theorem keeps_onSnd {f : σ → γ} (x : Tx ε τ α) : Keeps (fun p : σ × τ ↦ f p.1) (onSnd x) := by
  intro p a p' h
  exact congrArg f (onSnd_eq_ok_iff.1 h).2

theorem Keeps.onFst {f : σ → γ} {x : Tx ε σ α} (hx : Keeps f x) :
    Keeps (fun p : σ × τ ↦ f p.1) (Tx.onFst x) := by
  intro p a p' h
  exact hx (onFst_eq_ok_iff.1 h).1

/-! ### Differences that do not matter -/

/-- `x` does not see what `f` changes: from `f s` it runs as from `s`, up to `f` in the end. -/
def Commutes (f : σ → σ) (x : Tx ε σ α) : Prop :=
  ∀ s, x (f s) = (x s).map fun r ↦ (r.1, f r.2)

section Commutes

variable {f : σ → σ}

theorem commutes_pure (a : α) : Commutes f (pure a : Tx ε σ α) := fun _ ↦ rfl

theorem commutes_fail (e : ε) : Commutes f (fail e : Tx ε σ α) := fun _ ↦ rfl

theorem commutes_ensure (c : Prop) [Decidable c] (e : ε) :
    Commutes f (ensure c e : Tx ε σ Unit) := by
  rw [ensure]
  split_ifs
  · exact commutes_pure ()
  · exact commutes_fail e

theorem commutes_orTrap (c : Prop) [Decidable c] : Commutes f (orTrap c : Tx ε σ Unit) := by
  rw [orTrap]
  split_ifs
  · exact commutes_pure ()
  · exact fun _ ↦ rfl

theorem commutes_okOr (o : Option α) (e : ε) : Commutes f (okOr o e : Tx ε σ α) := by
  cases o with
  | none => exact commutes_fail e
  | some a => exact commutes_pure a

theorem commutes_modify {g : σ → σ} (hg : ∀ s, g (f s) = f (g s)) :
    Commutes f (modify g : Tx ε σ Unit) := by
  intro s
  rw [modify, hg]
  rfl

theorem Commutes.bind {x : Tx ε σ α} {k : α → Tx ε σ β} (hx : Commutes f x)
    (hk : ∀ a, Commutes f (k a)) : Commutes f (x >>= k) := by
  intro s
  rcases h : x s with e | ⟨a, s₁⟩
  · have hf : x (f s) = .error e := by rw [hx s, h]; rfl
    rw [bind_of_error h, bind_of_error hf]
    rfl
  · have hf : x (f s) = .ok (a, f s₁) := by rw [hx s, h]; rfl
    rw [bind_of_ok h, bind_of_ok hf]
    exact hk a s₁

/-- What is read of the state must not depend on the difference. -/
theorem commutes_get_bind {k : σ → Tx ε σ β} (hread : ∀ s, k (f s) = k s)
    (hk : ∀ s, Commutes f (k s)) : Commutes f (get >>= k) := by
  intro s
  show k (f s) (f s) = (k s s).map fun r ↦ (r.1, f r.2)
  rw [hread]
  exact hk s s

theorem commutes_foldlM {k : β → α → Tx ε σ β} (hk : ∀ b a, Commutes f (k b a)) :
    ∀ (l : List α) (b : β), Commutes f (l.foldlM k b) := by
  intro l
  induction l with
  | nil => exact fun b ↦ commutes_pure b
  | cons a l ih => exact fun b ↦ (hk b a).bind fun b' ↦ ih b'

/-- Committing is blind to the difference as well, whether or not the transaction completes. -/
theorem Commutes.commit {x : Tx ε σ α} (hx : Commutes f x) (s : σ) :
    x.commit (f s) = ((x.commit s).1, f (x.commit s).2) := by
  rcases h : x s with e | ⟨a, s'⟩
  · have hf : x (f s) = .error e := by rw [hx s, h]; rfl
    rw [commit_of_error h, commit_of_error hf]
  · have hf : x (f s) = .ok (a, f s') := by rw [hx s, h]; rfl
    rw [commit_of_ok h, commit_of_ok hf]

end Commutes

/-! ### Failing closed -/

/-- **`x` decides `P` and fails closed**: where it completes it keeps the observation `f` and
accepts exactly when `P` holds, and where it does not complete `P` does not hold. -/
def FailsClosed (f : σ → γ) (accepts : α → Bool) (x : Tx ε σ α) (P : Prop) (s : σ) : Prop :=
  match x s with
  | .ok (a, s') => f s' = f s ∧ (accepts a = true ↔ P)
  | .error _ => ¬P

section FailsClosed

variable {f : σ → γ} {accepts : α → Bool} {P Q : Prop}

theorem failsClosed_of_ok {x : Tx ε σ α} {s s' : σ} {a : α} (h : x s = .ok (a, s'))
    (hkeep : f s' = f s) (hiff : accepts a = true ↔ P) : FailsClosed f accepts x P s := by
  rw [FailsClosed, h]
  exact ⟨hkeep, hiff⟩

theorem failsClosed_of_error {x : Tx ε σ α} {s : σ} {e : Failure ε} (h : x s = .error e)
    (hP : ¬P) : FailsClosed f accepts x P s := by
  rw [FailsClosed, h]
  exact hP

/-- **Accepting is the property decided.** -/
theorem FailsClosed.accepts_iff {x : Tx ε σ α} {s : σ} (h : FailsClosed f accepts x P s) :
    (∃ a s', x s = .ok (a, s') ∧ accepts a = true) ↔ P := by
  rcases hx : x s with e | ⟨a, s'⟩
  · rw [FailsClosed, hx] at h
    simpa using h
  · rw [FailsClosed, hx] at h
    rw [← h.2]
    simp

/-- Where the property holds, the transaction completes, accepts, and keeps the observation. -/
theorem FailsClosed.exists_ok {x : Tx ε σ α} {s : σ} (h : FailsClosed f accepts x P s) (hP : P) :
    ∃ a s', x s = .ok (a, s') ∧ accepts a = true ∧ f s' = f s := by
  obtain ⟨a, s', hx, haccepts⟩ := h.accepts_iff.2 hP
  rw [FailsClosed, hx] at h
  exact ⟨a, s', hx, haccepts, h.1⟩

theorem FailsClosed.congr {x : Tx ε σ α} {s : σ} (h : FailsClosed f accepts x P s)
    (hiff : P ↔ Q) : FailsClosed f accepts x Q s := by
  rwa [← propext hiff]

/-- What comes before a decision and completes does not matter to it. -/
theorem FailsClosed.after {x : Tx ε σ β} {k : β → Tx ε σ α} {s s₁ : σ} {b : β}
    (h : FailsClosed f accepts (k b) P s₁) (hx : x s = .ok (b, s₁)) (hkeep : f s₁ = f s) :
    FailsClosed f accepts (x >>= k) P s := by
  rw [FailsClosed, bind_of_ok hx, ← hkeep]
  exact h

/-- Rewording the answer. -/
theorem FailsClosed.map {accepts' : β → Bool} {x : Tx ε σ α} {s : σ} (g : α → β)
    (h : FailsClosed f (fun a ↦ accepts' (g a)) x P s) :
    FailsClosed f accepts' (x >>= fun a ↦ pure (g a)) P s := by
  rcases hx : x s with e | ⟨a, s'⟩
  · rw [FailsClosed, hx] at h
    exact failsClosed_of_error (bind_of_error hx) h
  · rw [FailsClosed, hx] at h
    exact failsClosed_of_ok (bind_of_ok hx) h.1 h.2

/-- **One question after the other**: `k` goes on to decide `Q` if `x` accepts, and refuses
otherwise. -/
theorem FailsClosed.bind {accepts' : β → Bool} {x : Tx ε σ α} {k : α → Tx ε σ β} {s : σ}
    (hx : FailsClosed f accepts x P s)
    (hyes : ∀ a s', accepts a = true → f s' = f s → FailsClosed f accepts' (k a) Q s')
    (hno : ∀ a s', accepts a = false → f s' = f s → FailsClosed f accepts' (k a) False s') :
    FailsClosed f accepts' (x >>= k) (P ∧ Q) s := by
  rcases h : x s with e | ⟨a, s₁⟩
  · rw [FailsClosed, h] at hx
    exact failsClosed_of_error (bind_of_error h) fun hPQ ↦ hx hPQ.1
  · rw [FailsClosed, h] at hx
    obtain ⟨hkeep, hiff⟩ := hx
    rw [FailsClosed, bind_of_ok h, ← hkeep]
    rcases haccepts : accepts a with _ | _
    · have hP : ¬P := by rw [← hiff, haccepts]; exact Bool.false_ne_true
      exact (hno a s₁ haccepts hkeep).congr ⟨False.elim, fun hPQ ↦ hP hPQ.1⟩
    · have hP : P := hiff.1 haccepts
      exact (hyes a s₁ haccepts hkeep).congr ⟨fun hQ ↦ ⟨hP, hQ⟩, And.right⟩

/-- A decision asked of another program. -/
theorem FailsClosed.call {x : Tx ε σ α} {s : σ} (h : FailsClosed f accepts x P s) :
    FailsClosed f accepts (Tx.call x : Tx ε' σ α) P s := by
  rcases hx : x s with e | ⟨a, s'⟩
  · rw [FailsClosed, hx] at h
    exact failsClosed_of_error (call_of_error hx) h
  · rw [FailsClosed, hx] at h
    exact failsClosed_of_ok (call_eq_ok_iff.2 hx) h.1 h.2

/-- `x` goes through exactly when `P` holds, and keeps the observation `f` then. -/
abbrev GoesThrough (f : σ → γ) (x : Tx ε σ α) (P : Prop) (s : σ) : Prop :=
  FailsClosed f (fun _ ↦ true) x P s

/-- **A guard**: going on only if the answer to a question accepts. -/
theorem FailsClosed.guard {x : Tx ε σ α} {k : Tx ε σ β} {s : σ} {c : α → Prop}
    [∀ a, Decidable (c a)] {e : ε} (hx : FailsClosed f accepts x P s)
    (hc : ∀ a, c a ↔ accepts a = true) (hk : ∀ s', f s' = f s → GoesThrough f k Q s') :
    GoesThrough f (x >>= fun a ↦ ensure (c a) e >>= fun _ ↦ k) (P ∧ Q) s := by
  refine hx.bind (fun a s' hyes hkeep ↦ ?_) (fun a s' hno _ ↦ ?_)
  · have hensure : (ensure (c a) e : Tx ε σ Unit) s' = .ok ((), s') :=
      ensure_eq_ok_iff.2 ⟨(hc a).2 hyes, rfl⟩
    exact (hk s' hkeep).after hensure rfl
  · refine failsClosed_of_error (bind_of_error (ensure_of_not (e := e) ?_)) not_false
    exact fun h ↦ by simp [(hc a).1 h] at hno

/-- Both pass. -/
theorem FailsClosed.both {ask : β → Tx ε σ Bool} {P : β → Prop} {s : σ}
    (h : ∀ b s', f s' = f s → FailsClosed f id (ask b) (P b) s') (first second : β) :
    FailsClosed f id (both ask first second) (P first ∧ P second) s := by
  refine (h first s rfl).bind ?_ ?_
  · rintro _ s' rfl hs'
    exact h second s' hs'
  · rintro _ s' rfl _
    exact failsClosed_of_ok rfl rfl (by simp)

/-- The last guard of a list. -/
theorem FailsClosed.guard_last {x : Tx ε σ α} {s : σ} {c : α → Prop} [∀ a, Decidable (c a)] {e : ε}
    (hx : FailsClosed f accepts x P s) (hc : ∀ a, c a ↔ accepts a = true) :
    GoesThrough f (x >>= fun a ↦ ensure (c a) e) P s := by
  refine (hx.bind (Q := True) (fun a s' hyes _ ↦ ?_) (fun a s' hno _ ↦ ?_)).congr
    (and_iff_left trivial)
  · have hensure : (ensure (c a) e : Tx ε σ Unit) s' = .ok ((), s') :=
      ensure_eq_ok_iff.2 ⟨(hc a).2 hyes, rfl⟩
    exact failsClosed_of_ok hensure rfl (by simp)
  · exact failsClosed_of_error (ensure_of_not fun h ↦ by simp [(hc a).1 h] at hno) not_false

/-- A decision made on one half of a state. -/
theorem FailsClosed.onSnd {x : Tx ε τ α} {f : τ → γ} {p : σ × τ}
    (h : FailsClosed f accepts x P p.2) :
    FailsClosed (fun q : σ × τ ↦ f q.2) accepts (onSnd x) P p := by
  rcases hx : x p.2 with e | ⟨a, t⟩
  · rw [FailsClosed, hx] at h
    exact failsClosed_of_error (onSnd_of_error hx) h
  · rw [FailsClosed, hx] at h
    exact failsClosed_of_ok (onSnd_eq_ok_iff.2 ⟨hx, rfl⟩ : Tx.onSnd x p = .ok (a, (p.1, t)))
      h.1 h.2

end FailsClosed

/-! ### Answering -/

/-- **`x` answers `a`**, and keeps the observation `f`. -/
def Yields (f : σ → γ) (x : Tx ε σ α) (a : α) (s : σ) : Prop :=
  ∃ s', x s = .ok (a, s') ∧ f s' = f s

section Yields

variable {f : σ → γ}

theorem yields_pure {a : α} {s : σ} : Yields f (pure a : Tx ε σ α) a s := ⟨s, rfl, rfl⟩

/-- One after the other; the second finds what the first has kept. -/
theorem Yields.bind {x : Tx ε σ α} {k : α → Tx ε σ β} {a : α} {b : β} {s : σ}
    (hx : Yields f x a s) (hk : ∀ s', f s' = f s → Yields f (k a) b s') :
    Yields f (x >>= k) b s := by
  obtain ⟨s₁, hx, hkeep⟩ := hx
  obtain ⟨s', hrun, hkeep'⟩ := hk s₁ hkeep
  exact ⟨s', (bind_of_ok hx).trans hrun, hkeep'.trans hkeep⟩

/-- Rewording the answer. -/
theorem Yields.map {x : Tx ε σ α} {a : α} {s : σ} (g : α → β) (h : Yields f x a s) :
    Yields f (x >>= fun a ↦ pure (g a)) (g a) s :=
  h.bind fun _ _ ↦ yields_pure

end Yields

end Tx
