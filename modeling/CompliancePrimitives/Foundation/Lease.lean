import CompliancePrimitives.Foundation.Run
import CompliancePrimitives.Foundation.Transaction

/-!
# Leases

A **lease** runs until a certain moment. A touch renews it only when less than `threshold` remains,
and then gives it `target` from that moment on; an earlier touch changes nothing.

Moments are naturals, and touches are listed latest first, as runs are. Nothing but the touches
decides where a lease ends (`ending`), and so nothing else decides whether it ever lapsed
(`Unbroken`). The terms it was given one after another (`terms`) say when it did not: each but the
last has to see a touch in its last `threshold - 1` moments (`unbroken_iff_renewedInTime`).

So how often it is touched is not the whole story. A touch with just `threshold` left renews
nothing, and the next one has to come before these are used up. Only gaps below `threshold` are
always survived (`Spaced.unbroken`), however long `target` is.

Where a system touches a lease in its steps, `expiry_final` turns what one step does into where the
lease ends after a run, and `expiry_commit` gives that step for a transaction.
-/

/-- The terms on which a lease is renewed. -/
structure Lease where
  /-- A touch renews what has less than this left. -/
  threshold : ℕ
  /-- What remains right after a renewal. -/
  target : ℕ
  /-- A touch may renew. -/
  threshold_pos : 0 < threshold
  /-- A renewal does not shorten. -/
  threshold_le_target : threshold ≤ target

namespace Lease

variable (l : Lease)

/-- Where a lease that runs until `e` ends once it is touched at `t`. -/
def touch (t e : ℕ) : ℕ := if e - t < l.threshold then t + l.target else e

/-- Where a lease that first ran until `e` ends after some touches. -/
def ending (e : ℕ) : List ℕ → ℕ
  | [] => e
  | t :: ts => l.touch t (ending e ts)

/-- All the ends it was given one after another, the latest first. -/
def terms (e : ℕ) : List ℕ → List ℕ
  | [] => [e]
  | t :: ts =>
    if l.ending e ts - t < l.threshold then (t + l.target) :: terms e ts else terms e ts

/-- **The lease never lapsed**: not before a touch, and not up to `now`. -/
def Unbroken (e : ℕ) : ℕ → List ℕ → Prop
  | now, [] => now < e
  | now, t :: ts => now < l.ending e (t :: ts) ∧ Unbroken e t ts

/-- **Every term but the current one saw a touch that renews**, in its last `threshold - 1`
moments. -/
def RenewedInTime (e now : ℕ) (ts : List ℕ) : Prop :=
  ∀ x ∈ l.terms e ts, now < x ∨ ∃ t ∈ ts, x < t + l.threshold ∧ t < x

/-- No two consecutive moments of `start`, the touches and `now` are more than `gap` apart. -/
def Spaced (gap start : ℕ) : ℕ → List ℕ → Prop
  | now, [] => now ≤ start + gap
  | now, t :: ts => now ≤ t + gap ∧ Spaced gap start t ts

@[simp] theorem ending_nil (e : ℕ) : l.ending e [] = e := rfl

@[simp] theorem ending_cons (e t : ℕ) (ts : List ℕ) :
    l.ending e (t :: ts) = l.touch t (l.ending e ts) := rfl

@[simp] theorem unbroken_nil (e now : ℕ) : l.Unbroken e now [] ↔ now < e := Iff.rfl

@[simp] theorem unbroken_cons (e now t : ℕ) (ts : List ℕ) :
    l.Unbroken e now (t :: ts) ↔ now < l.touch t (l.ending e ts) ∧ l.Unbroken e t ts := Iff.rfl

@[simp] theorem spaced_nil (gap start now : ℕ) :
    Spaced gap start now [] ↔ now ≤ start + gap := Iff.rfl

@[simp] theorem spaced_cons (gap start now t : ℕ) (ts : List ℕ) :
    Spaced gap start now (t :: ts) ↔ now ≤ t + gap ∧ Spaced gap start t ts := Iff.rfl

/-! ### One touch -/

section

variable {e now t u x : ℕ} {ts : List ℕ}

/-- **A touch leaves at least the threshold.** -/
theorem threshold_le_touch (t e : ℕ) : t + l.threshold ≤ l.touch t e := by
  have hpos := l.threshold_pos
  have hle := l.threshold_le_target
  unfold touch
  split
  · exact Nat.add_le_add_left hle t
  · omega

theorem touch_of_lt (h : e - t < l.threshold) : l.touch t e = t + l.target := if_pos h

theorem touch_of_le (h : l.threshold ≤ e - t) : l.touch t e = e := if_neg h.not_gt

/-- A later touch takes nothing away from what an earlier one left. -/
theorem le_touch (h : u ≤ t) (hx : u + l.threshold ≤ x) : u + l.threshold ≤ l.touch t x := by
  by_cases hlow : x - t < l.threshold
  · rw [l.touch_of_lt hlow]
    exact Nat.add_le_add h l.threshold_le_target
  · rwa [l.touch_of_le (not_lt.1 hlow)]

/-! ### Many touches -/

/-- A lease still has the threshold after each of its touches. -/
theorem threshold_le_ending (hts : ts.Pairwise (· ≥ ·)) :
    ∀ t ∈ ts, t + l.threshold ≤ l.ending e ts := by
  induction ts with
  | nil => simp
  | cons u ts ih =>
    obtain ⟨hlatest, hts⟩ := List.pairwise_cons.1 hts
    intro t ht
    rw [ending_cons]
    rcases List.mem_cons.1 ht with rfl | ht
    · exact l.threshold_le_touch t _
    · exact l.le_touch (hlatest t ht) (ih hts t ht)

/-- The current end is among the terms. -/
theorem ending_mem_terms (e : ℕ) (ts : List ℕ) : l.ending e ts ∈ l.terms e ts := by
  induction ts with
  | nil => exact List.mem_singleton_self e
  | cons t ts ih =>
    rw [ending_cons, terms]
    split
    case isTrue hlow =>
      rw [l.touch_of_lt hlow]
      exact List.mem_cons_self
    case isFalse hlow =>
      rwa [l.touch_of_le (not_lt.1 hlow)]

/-- Terms stay terms. -/
theorem mem_terms_cons (hx : x ∈ l.terms e ts) : x ∈ l.terms e (t :: ts) := by
  rw [terms]
  split
  · exact List.mem_cons_of_mem _ hx
  · exact hx

/-- A term given by a touch ends after it. -/
theorem mem_terms_of_le (hx : x ∈ l.terms e (t :: ts)) (hle : x ≤ t) : x ∈ l.terms e ts := by
  have hpos := l.threshold_pos
  have htarget := l.threshold_le_target
  rw [terms] at hx
  split at hx
  · rcases List.mem_cons.1 hx with rfl | hx
    · omega
    · exact hx
  · exact hx

/-- **A term that is over was replaced**, by a touch that found less than the threshold. -/
theorem eq_ending_or_replaced :
    ∀ {ts : List ℕ}, x ∈ l.terms e ts → x = l.ending e ts ∨ ∃ t ∈ ts, x < t + l.threshold := by
  intro ts
  induction ts with
  | nil => exact fun hx ↦ .inl (List.mem_singleton.1 hx)
  | cons t ts ih =>
    have hpos := l.threshold_pos
    intro hx
    rw [terms] at hx
    split at hx
    case isTrue hlow =>
      rcases List.mem_cons.1 hx with rfl | hx
      · exact .inl (l.touch_of_lt hlow).symm
      · rcases ih hx with rfl | ⟨u, hu, hxu⟩
        · exact .inr ⟨t, List.mem_cons_self, by omega⟩
        · exact .inr ⟨u, List.mem_cons_of_mem _ hu, hxu⟩
    case isFalse hlow =>
      rcases ih hx with rfl | ⟨u, hu, hxu⟩
      · exact .inl (l.touch_of_le (not_lt.1 hlow)).symm
      · exact .inr ⟨u, List.mem_cons_of_mem _ hu, hxu⟩

/-- Looking at it on the way changes nothing. -/
theorem unbroken_iff_of_le (h : t ≤ now) :
    l.Unbroken e now ts ↔ now < l.ending e ts ∧ l.Unbroken e t ts := by
  cases ts with
  | nil =>
    rw [unbroken_nil, unbroken_nil, ending_nil]
    exact ⟨fun hnow ↦ ⟨hnow, h.trans_lt hnow⟩, And.left⟩
  | cons u ts =>
    rw [unbroken_cons, unbroken_cons, ending_cons]
    constructor
    · rintro ⟨hnow, hpast⟩
      exact ⟨hnow, h.trans_lt hnow, hpast⟩
    · rintro ⟨hnow, -, hpast⟩
      exact ⟨hnow, hpast⟩

/-- **When a lease never lapsed.** -/
theorem unbroken_iff_renewedInTime (hts : (now :: ts).Pairwise (· ≥ ·)) :
    l.Unbroken e now ts ↔ l.RenewedInTime e now ts := by
  induction ts generalizing now with
  | nil => simp [RenewedInTime, terms]
  | cons t ts ih =>
    obtain ⟨hnow, hts⟩ := List.pairwise_cons.1 hts
    have htnow : t ≤ now := hnow t List.mem_cons_self
    have hlatest : ∀ u ∈ t :: ts, u ≤ t := by
      rw [List.forall_mem_cons]
      exact ⟨le_rfl, (List.pairwise_cons.1 hts).1⟩
    rw [unbroken_cons, ih hts]
    constructor
    · rintro ⟨hend, hpast⟩ x hx
      rcases l.eq_ending_or_replaced hx with rfl | ⟨u, hu, hxu⟩
      · exact .inl hend
      · refine .inr ?_
        by_cases hux : u < x
        · exact ⟨u, hu, hxu, hux⟩
        -- otherwise the term was over before the latest touch
        have hxt : x ≤ t := (not_lt.1 hux).trans (hlatest u hu)
        obtain hlate | ⟨u', hu', hrenews⟩ := hpast x (l.mem_terms_of_le hx hxt)
        · exact absurd hlate hxt.not_gt
        · exact ⟨u', List.mem_cons_of_mem _ hu', hrenews⟩
    · intro h
      refine ⟨?_, fun x hx ↦ ?_⟩
      · obtain hend | ⟨u, hu, hlow, -⟩ := h _ (l.ending_mem_terms e (t :: ts))
        · exact hend
        · exact absurd hlow (l.threshold_le_ending hts u hu).not_gt
      · obtain hlate | ⟨u, hu, hlow, hux⟩ := h x (l.mem_terms_cons hx)
        · exact .inl (htnow.trans_lt hlate)
        · rcases List.mem_cons.1 hu with rfl | hu
          · exact .inl hux
          · exact .inr ⟨u, hu, hlow, hux⟩

/-- **Gaps below the threshold are survived.** -/
theorem Spaced.unbroken {gap start : ℕ} (hgap : gap < l.threshold)
    (hstart : start + l.threshold ≤ e) (h : Spaced gap start now ts) : l.Unbroken e now ts := by
  induction ts generalizing now with
  | nil =>
    rw [spaced_nil] at h
    exact (h.trans_lt (Nat.add_lt_add_left hgap start)).trans_le hstart
  | cons t ts ih =>
    obtain ⟨hnow, hpast⟩ := h
    have hleft := l.threshold_le_touch t (l.ending e ts)
    exact ⟨(hnow.trans_lt (Nat.add_lt_add_left hgap t)).trans_le hleft, ih hpast⟩

/-! ### Transactions that touch a lease -/

section

variable {ε σ α : Type}

/-- When a call made at `t` touched the lease: it has to complete, and to be one that touches. -/
def touchedAt (touches : Bool) (t : ℕ) : Except ε α → Option ℕ
  | .ok _ => if touches then some t else none
  | .error _ => none

theorem eq_of_touchedAt {touches : Bool} {result : Except ε α}
    (h : touchedAt touches t result = some u) : u = t := by
  cases result with
  | error e => cases h
  | ok a =>
    cases touches with
    | false => cases h
    | true => exact (Option.some.inj h).symm

/-- A committed call touches the lease, or leaves it alone. -/
theorem expiry_commit {x : Tx ε σ α} {expiry : σ → ℕ} {touches : Bool}
    (hx : ∀ ⦃s a s'⦄, x s = .ok (a, s') →
      expiry s' = if touches then l.touch t (expiry s) else expiry s) (s : σ) :
    expiry (x.commit s).2 =
      (touchedAt touches t (x.commit s).1).elim (expiry s) (l.touch · (expiry s)) := by
  rcases Tx.commit_cases x s with ⟨a, s', hok, hcommit⟩ | ⟨f, -, hcommit⟩
  · rw [hcommit, hx hok]
    cases touches <;> rfl
  · rw [hcommit]
    rfl

end

/-- **A system that touches a lease.** If every step touches it at most once, then where it ends is
decided by when that was. -/
theorem expiry_final {σ ι ρ : Type} {M : System σ ι ρ} {expiry : σ → ℕ}
    {touched : Step σ ι ρ → Option ℕ}
    (hstep : ∀ i s, expiry (M.exec i s).2 =
      (touched (M.stepFrom s i)).elim (expiry s) (l.touch · (expiry s)))
    (is : List ι) :
    expiry (M.final is) = l.ending (expiry M.start) ((M.history is).filterMap touched) := by
  induction is with
  | nil => rfl
  | cons i is ih =>
    rw [System.final_cons, hstep, ih, System.history_cons]
    cases htouch : touched (M.stepFrom (M.final is) i) with
    | none =>
      rw [List.filterMap_cons_none htouch]
      rfl
    | some t =>
      rw [List.filterMap_cons_some htouch]
      rfl

end

end Lease
