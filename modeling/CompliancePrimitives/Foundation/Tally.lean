import CompliancePrimitives.Foundation.Transaction

/-!
# Counting what a computation does

A `Tally` is a transaction that counts as it goes. The count survives a failure: what was done up to
there was done. Forgetting the count gives a transaction again (`Tally.forget`), and does so
step by step, so a program can be written with a count at the place that matters (`Tally.once`) and
be shown to be the program without it.

Counts are bounded by a resource `left` of the states, such as the input that is still to be read.
`Tx.Takes` is a transaction that uses up some of it, and gives up in one way only. Two judgements
follow the shape of a program:

* `Tally.Spends` — what is counted was paid for out of the resource, except for the last time where
  the computation fails;
* `Tally.Settles` — where less than `n` is left, one program runs as the other does. This is how a
  recursion with a bound on its depth is compared with a deeper one: every level takes something
  before it goes on (`Tally.settles_once_bind`), so where little is left, few levels are enough.

What the two have in common is that they pass from the parts of a program to the whole
(`Tally.Compositional`), so the cases of a program are gone through once for both.
-/

/-- A transaction uses up `n` of what is left, at least, and does not fail but with `e`. -/
structure Tx.Takes {ε σ α : Type} (left : σ → ℕ) (e : ε) (n : ℕ) (x : Tx ε σ α) : Prop where
  /-- If it completes, there are `n` less left. -/
  of_ok : ∀ {s a s'}, x s = .ok (a, s') → left s' + n ≤ left s
  /-- It does not fail but with `e`. -/
  of_error : ∀ {s f}, x s = .error f → f = .error e

namespace Tx.Takes

variable {ε σ α β : Type} {left : σ → ℕ} {e : ε} {m n : ℕ} {x : Tx ε σ α} {k : α → Tx ε σ β}

theorem pure (a : α) : Takes left e 0 (Pure.pure a : Tx ε σ α) where
  of_ok h := by
    obtain ⟨-, rfl⟩ := Tx.pure_eq_ok_iff.1 h
    exact le_rfl
  of_error h := by cases h

theorem get : Takes left e 0 (Tx.get : Tx ε σ σ) where
  of_ok h := by
    obtain ⟨-, rfl⟩ := Tx.get_eq_ok_iff.1 h
    exact le_rfl
  of_error h := by cases h

theorem modify {f : σ → σ} (hf : ∀ s, left (f s) + n ≤ left s) :
    Takes left e n (Tx.modify f : Tx ε σ Unit) where
  of_ok {s a s'} h := by
    rw [Tx.modify_eq_ok_iff.1 h]
    exact hf s
  of_error h := by cases h

theorem ensure (c : Prop) [Decidable c] : Takes left e 0 (Tx.ensure c e : Tx ε σ Unit) where
  of_ok h := by
    obtain ⟨-, rfl⟩ := Tx.ensure_eq_ok_iff.1 h
    exact le_rfl
  of_error h := by
    rw [Tx.ensure] at h
    split_ifs at h
    cases h
    rfl

theorem mono (h : Takes left e n x) (hle : m ≤ n) : Takes left e m x where
  of_ok hx := (Nat.add_le_add_left hle _).trans (h.of_ok hx)
  of_error := h.of_error

theorem bind (hx : Takes left e m x) (hk : ∀ a, Takes left e n (k a)) :
    Takes left e (m + n) (x >>= k) where
  of_ok {s b s'} h := by
    obtain ⟨a, s₁, hfirst, hrest⟩ := Tx.bind_eq_ok_iff.1 h
    have h₁ := hx.of_ok hfirst
    have h₂ := (hk a).of_ok hrest
    omega
  of_error {s f} h := by
    rcases hfirst : x s with f' | ⟨a, s₁⟩
    · rw [Tx.bind_of_error hfirst] at h
      cases h
      exact hx.of_error hfirst
    · rw [Tx.bind_of_ok hfirst] at h
      exact (hk a).of_error h

end Tx.Takes

/-- A computation over states `σ` that counts. -/
def Tally (ε σ α : Type) := σ → Except (Failure ε) (α × σ) × ℕ

namespace Tally

variable {ε σ α β : Type}

instance : Monad (Tally ε σ) where
  pure a := fun s ↦ (.ok (a, s), 0)
  bind x k := fun s ↦
    match x s with
    | (.ok (a, s'), m) => ((k a s').1, m + (k a s').2)
    | (.error f, m) => (.error f, m)

/-- A transaction, of which nothing is counted. -/
def lift (x : Tx ε σ α) : Tally ε σ α := fun s ↦ (x s, 0)

/-- Count one, and run a transaction. -/
def once (x : Tx ε σ α) : Tally ε σ α := fun s ↦ (x s, 1)

/-- The transaction, without the count. -/
def forget (x : Tally ε σ α) : Tx ε σ α := fun s ↦ (x s).1

/-- The count. -/
def count (x : Tally ε σ α) (s : σ) : ℕ := (x s).2

section

variable {x y : Tally ε σ α} {k l : α → Tally ε σ β} {s s' : σ} {a : α} {m : ℕ} {f : Failure ε}

theorem bind_of_ok (h : x s = (.ok (a, s'), m)) :
    (x >>= k) s = ((k a s').1, m + (k a s').2) := by
  show (match x s with
    | (.ok (a, s'), m) => ((k a s').1, m + (k a s').2)
    | (.error f, m) => (.error f, m)) = _
  rw [h]

theorem bind_of_error (h : x s = (.error f, m)) : (x >>= k) s = (.error f, m) := by
  show (match x s with
    | (.ok (a, s'), m) => ((k a s').1, m + (k a s').2)
    | (.error f, m) => (.error f, m)) = _
  rw [h]

/-! ### Forgetting -/

@[simp] theorem forget_pure (a : α) : forget (pure a : Tally ε σ α) = pure a := rfl

@[simp] theorem forget_lift (x : Tx ε σ α) : forget (lift x) = x := rfl

@[simp] theorem forget_once (x : Tx ε σ α) : forget (once x) = x := rfl

@[simp]
theorem forget_bind (x : Tally ε σ α) (k : α → Tally ε σ β) :
    forget (x >>= k) = forget x >>= fun a ↦ forget (k a) := by
  funext s
  rcases h : x s with ⟨f | ⟨a, s'⟩, m⟩
  · have hx : forget x s = .error f := congrArg Prod.fst h
    rw [Tx.bind_of_error hx]
    show ((x >>= k) s).1 = .error f
    rw [bind_of_error h]
  · have hx : forget x s = .ok (a, s') := congrArg Prod.fst h
    rw [Tx.bind_of_ok hx]
    show ((x >>= k) s).1 = (k a s').1
    rw [bind_of_ok h]

/-! ### Counts that are paid for -/

/-- **Whatever is counted costs `price`**, except for the last time in a computation that fails. -/
structure Spends (left : σ → ℕ) (price : ℕ) (x : Tally ε σ α) : Prop where
  /-- In a computation that completes, everything that is counted is paid for. -/
  of_ok : ∀ {s a s' m}, x s = (.ok (a, s'), m) → price * m + left s' ≤ left s
  /-- In one that fails, everything but the last. -/
  of_error : ∀ {s f m}, x s = (.error f, m) → price * m ≤ left s + price

variable {left : σ → ℕ} {price n n' : ℕ} {e : ε} {z : Tx ε σ α}

theorem spends_pure (a : α) : Spends left price (pure a : Tally ε σ α) where
  of_ok h := by
    cases h
    rw [Nat.mul_zero, Nat.zero_add]
  of_error h := by cases h

theorem Spends.lift (h : z.Takes left e 0) : Spends left price (lift z) where
  of_ok hz := by
    obtain ⟨hok, rfl⟩ := Prod.mk.inj hz
    rw [Nat.mul_zero, Nat.zero_add]
    exact h.of_ok hok
  of_error hz := by
    obtain ⟨-, rfl⟩ := Prod.mk.inj hz
    exact Nat.zero_le _

theorem Spends.bind (hx : Spends left price x) (hk : ∀ a, Spends left price (k a)) :
    Spends left price (x >>= k) where
  of_ok {s b s' m} h := by
    rcases hfirst : x s with ⟨f | ⟨a, s₁⟩, m₁⟩
    · rw [bind_of_error hfirst] at h
      cases h
    · rcases hrest : k a s₁ with ⟨r, m₂⟩
      rw [bind_of_ok hfirst, hrest] at h
      obtain ⟨rfl, rfl⟩ := Prod.mk.inj h
      -- both have paid, and what the first left is what the second started with
      have h₁ := hx.of_ok hfirst
      have h₂ := (hk a).of_ok hrest
      dsimp only
      rw [Nat.mul_add]
      omega
  of_error {s f m} h := by
    rcases hfirst : x s with ⟨f' | ⟨a, s₁⟩, m₁⟩
    · rw [bind_of_error hfirst] at h
      cases h
      exact hx.of_error hfirst
    · rcases hrest : k a s₁ with ⟨r, m₂⟩
      rw [bind_of_ok hfirst, hrest] at h
      obtain ⟨rfl, rfl⟩ := Prod.mk.inj h
      have h₁ := hx.of_ok hfirst
      have h₂ := (hk a).of_error hrest
      dsimp only
      rw [Nat.mul_add]
      omega

/-- What is counted is paid for by what the transaction takes. -/
theorem Spends.once (h : z.Takes left e price) : Spends left price (once z) where
  of_ok hz := by
    obtain ⟨hok, rfl⟩ := Prod.mk.inj hz
    rw [Nat.mul_one, Nat.add_comm]
    exact h.of_ok hok
  of_error hz := by
    obtain ⟨-, rfl⟩ := Prod.mk.inj hz
    rw [Nat.mul_one]
    exact Nat.le_add_left _ _

/-! ### Levels that are enough -/

/-- **Where less than `n` is left, `y` runs as `x` does**, and fails with `e` if at all. -/
structure Settles (left : σ → ℕ) (n : ℕ) (e : ε) (x y : Tally ε σ α) : Prop where
  /-- The two run alike where little is left, -/
  eq : ∀ {s}, left s < n → y s = x s
  /-- and fail there with `e` only. -/
  of_error : ∀ {s f m}, left s < n → x s = (.error f, m) → f = .error e

theorem settles_pure (a : α) : Settles left n e (pure a : Tally ε σ α) (pure a) where
  eq _ := rfl
  of_error _ h := by cases h

theorem Settles.lift (h : z.Takes left e 0) : Settles left n e (lift z) (lift z) where
  eq _ := rfl
  of_error _ hz := h.of_error (Prod.mk.inj hz).1

/-- What comes later is settled where the first part leaves less than `n'`. -/
theorem Settles.bind_of_left (hx : Settles left n e x y)
    (hleft : ∀ {s a s' m}, left s < n → x s = (.ok (a, s'), m) → left s' < n')
    (hk : ∀ a, Settles left n' e (k a) (l a)) : Settles left n e (x >>= k) (y >>= l) where
  eq {s} hs := by
    rcases hfirst : x s with ⟨f | ⟨a, s₁⟩, m₁⟩
    · rw [bind_of_error hfirst, bind_of_error ((hx.eq hs).trans hfirst)]
    · rw [bind_of_ok hfirst, bind_of_ok ((hx.eq hs).trans hfirst), (hk a).eq (hleft hs hfirst)]
  of_error {s f m} hs h := by
    rcases hfirst : x s with ⟨f' | ⟨a, s₁⟩, m₁⟩
    · rw [bind_of_error hfirst] at h
      cases h
      exact hx.of_error hs hfirst
    · rcases hrest : k a s₁ with ⟨r, m₂⟩
      rw [bind_of_ok hfirst, hrest] at h
      cases h
      exact (hk a).of_error (hleft hs hfirst) hrest

theorem Settles.bind (hx : Settles left n e x y) (hspends : Spends left price x)
    (hk : ∀ a, Settles left n e (k a) (l a)) : Settles left n e (x >>= k) (y >>= l) :=
  hx.bind_of_left (fun hs hok ↦ by have hpaid := hspends.of_ok hok; omega) hk

/-- **A level that takes something first** leaves less for the levels inside it. -/
theorem settles_once_bind (hz : z.Takes left e price) (hk : ∀ a, Settles left n e (k a) (l a)) :
    Settles left (n + price) e (once z >>= k) (once z >>= l) := by
  refine Settles.bind_of_left ⟨fun _ ↦ rfl, fun _ h ↦ hz.of_error (Prod.mk.inj h).1⟩
    (fun hs hok ↦ ?_) hk
  have hleft := hz.of_ok (Prod.mk.inj hok).1
  omega

end

/-! ### From parts to the whole -/

/-- **A relation between programs that are alike but for their innermost parts.** Two programs are
related if those parts are. -/
structure Compositional (left : σ → ℕ) (e : ε)
    (R : ∀ {α : Type}, Tally ε σ α → Tally ε σ α → Prop) : Prop where
  /-- A value is related to itself, -/
  pure : ∀ {α : Type} (a : α), R (Pure.pure a) (Pure.pure a)
  /-- so is a transaction that is not counted and does not fail but with `e`, -/
  lift : ∀ {α : Type} {z : Tx ε σ α}, z.Takes left e 0 → R (lift z) (lift z)
  /-- and what is put together of related programs is related. -/
  bind : ∀ {α β : Type} {x y : Tally ε σ α} {k l : α → Tally ε σ β}, R x y →
    (∀ a, R (k a) (l a)) → R (x >>= k) (y >>= l)

theorem compositional_spends (left : σ → ℕ) (e : ε) (price : ℕ) :
    Compositional left e fun x _ ↦ Spends left price x where
  pure := spends_pure
  lift := Spends.lift
  bind := Spends.bind

theorem compositional_settles (left : σ → ℕ) (e : ε) (n price : ℕ) :
    Compositional left e fun x y ↦ Settles left n e x y ∧ Spends left price x where
  pure a := ⟨settles_pure a, spends_pure a⟩
  lift h := ⟨.lift h, .lift h⟩
  bind hx hk := ⟨hx.1.bind hx.2 fun a ↦ (hk a).1, hx.2.bind fun a ↦ (hk a).2⟩

end Tally
