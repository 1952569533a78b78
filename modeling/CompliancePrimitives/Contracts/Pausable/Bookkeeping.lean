import CompliancePrimitives.Contracts.Pausable
import CompliancePrimitives.Foundation.Run

/-!
# What the pause switch remembers

The three functions that write the switch, under any sequence of calls from fresh storage. What is
stored at the end is decided by one call of the run: the first pause since the switch was last
cleared (`FirstPause`). Later pauses change nothing, whatever reason they give, and what was before
the clearing has left no trace (`bookkeeping`).

The run is one of the switch alone: its inputs are the three calls with the environment each is made
in, and a contract that embeds the switch contributes such a run with the calls that pass its own
guards. `Remembers` relates the state to the inputs that led to it, and is kept by every call.
-/

namespace Pausable

open Soroban

/-- `paused_since`. -/
def pausedSince (s : State) : Option ℕ := s.pausedSince

/-- `pause_reason`. -/
def pauseReason (s : State) : Option Bytes := s.pauseReason

/-! ### The switch as a system -/

/-- A call that may write the switch. -/
inductive Call where
  | pause
  | pauseWithReason (reason : Option Bytes)
  | unpause
  deriving DecidableEq, Repr

/-- A call, and the host's view it runs under. -/
structure Input (Address : Type) where
  env : Env Address
  call : Call

variable {Address : Type}

/-- Dispatch of a call. -/
def invoke (env : Env Address) : Call → State → State
  | .pause => pause env
  | .pauseWithReason reason => pauseWithReason env reason
  | .unpause => unpause

/-- The switch, from fresh storage on. -/
def system : System State (Input Address) Unit where
  start := .fresh
  exec i s := ((), invoke i.env i.call s)

/-! ### The pause in force -/

/-- The reason a call gives. -/
def Call.reason : Call → Option Bytes
  | .pauseWithReason reason => reason
  | .pause | .unpause => none

/-- Nothing paused the switch since it was last cleared: the run is empty, or ends by clearing. -/
def Resumed (inputs : List (Input Address)) : Prop :=
  ∀ i ∈ inputs.head?, i.call = .unpause

/-- **The first pause since the switch was last cleared.** -/
def FirstPause (inputs : List (Input Address)) (first : Input Address) : Prop :=
  first.call ≠ .unpause ∧ ∃ since before, inputs = since ++ first :: before ∧
    (∀ i ∈ since, i.call ≠ .unpause) ∧ Resumed before

/-- **What the switch remembers** of a run: nothing, or the first pause in force. -/
inductive Remembers (inputs : List (Input Address)) (s : State) : Prop
  | resumed (hresumed : Resumed inputs) (hpaused : isPaused s = false)
      (hsince : pausedSince s = none) (hreason : pauseReason s = none)
  | paused (first : Input Address) (hfirst : FirstPause inputs first)
      (hpaused : isPaused s = true) (hsince : pausedSince s = some first.env.timestamp)
      (hreason : pauseReason s = first.call.reason)

section

variable {s t : State} {i first : Input Address} {inputs : List (Input Address)}

/-! ### One call -/

/-- A pause of a switch that is on changes nothing. -/
theorem invoke_of_paused (env : Env Address) {call : Call} (hcall : call ≠ .unpause)
    (hpaused : isPaused s = true) : invoke env call s = s := by
  cases call with
  | pause => exact if_pos hpaused
  | pauseWithReason reason => exact if_pos hpaused
  | unpause => exact absurd rfl hcall

/-- A pause of a switch that is off records its time and its reason. -/
theorem invoke_of_resumed (env : Env Address) {call : Call} (hcall : call ≠ .unpause)
    (hpaused : isPaused s = false) (hreason : pauseReason s = none) :
    invoke env call s = ⟨some true, some env.timestamp, call.reason⟩ := by
  obtain ⟨paused, since, reason⟩ := s
  obtain rfl : reason = none := hreason
  cases call with
  | pause => rw [invoke, pause, hpaused]; rfl
  | pauseWithReason reason =>
    rw [invoke, pauseWithReason, hpaused]
    cases reason <;> rfl
  | unpause => exact absurd rfl hcall

theorem FirstPause.cons (h : FirstPause inputs first) (hi : i.call ≠ .unpause) :
    FirstPause (i :: inputs) first := by
  obtain ⟨hfirst, since, before, rfl, hsince, hbefore⟩ := h
  exact ⟨hfirst, i :: since, before, rfl, List.forall_mem_cons.2 ⟨hi, hsince⟩, hbefore⟩

/-- Every call keeps the memory in step with the run. -/
theorem Remembers.step (h : Remembers inputs s) (i : Input Address) :
    Remembers (i :: inputs) (invoke i.env i.call s) := by
  by_cases hclear : i.call = .unpause
  · rw [hclear]
    refine .resumed ?_ rfl rfl rfl
    rintro j hj
    obtain rfl : i = j := Option.some.inj hj
    exact hclear
  cases h with
  | resumed hresumed hpaused hsince hreason =>
    rw [invoke_of_resumed i.env hclear hpaused hreason]
    exact .paused i ⟨hclear, [], inputs, rfl, by simp, hresumed⟩ rfl rfl rfl
  | paused first hfirst hpaused hsince hreason =>
    rw [invoke_of_paused i.env hclear hpaused]
    exact .paused first (hfirst.cons hclear) hpaused hsince hreason

/-- **What the switch remembers of a run.** -/
theorem remembers_final (inputs : List (Input Address)) :
    Remembers inputs (system.final inputs) := by
  induction inputs with
  | nil => exact .resumed (by simp [Resumed]) rfl rfl rfl
  | cons i inputs ih => exact ih.step i

/-! ### The call that decides -/

/-- A run whose latest call pauses is not one that ended by clearing the switch. -/
theorem not_resumed {since before : List (Input Address)} (hsince : ∀ i ∈ since, i.call ≠ .unpause)
    (hfirst : first.call ≠ .unpause) : ¬Resumed (since ++ first :: before) := by
  intro hresumed
  cases since with
  | nil => exact hfirst (hresumed first rfl)
  | cons i since => exact hsince i List.mem_cons_self (hresumed i rfl)

theorem FirstPause.not_resumed (h : FirstPause inputs first) : ¬Resumed inputs := by
  obtain ⟨hfirst, since, before, rfl, hsince, -⟩ := h
  exact Pausable.not_resumed hsince hfirst

/-- Of two ways to single out a pause in force, neither can be the earlier one. -/
theorem eq_of_split {since mid before before' : List (Input Address)} {first' : Input Address}
    (hbefore : Resumed before) (hmid : ∀ i ∈ since ++ mid, i.call ≠ .unpause)
    (hfirst' : first'.call ≠ .unpause) (hrest : first :: before = mid ++ first' :: before') :
    first = first' := by
  cases mid with
  | nil => exact (List.cons.inj hrest).1
  | cons i mid =>
    rw [(List.cons.inj hrest).2] at hbefore
    refine absurd hbefore (Pausable.not_resumed (fun j hj ↦ hmid j ?_) hfirst')
    exact List.mem_append_right _ (List.mem_cons_of_mem i hj)

/-- There is no more than one pause in force. -/
theorem FirstPause.unique {first' : Input Address} (h : FirstPause inputs first)
    (h' : FirstPause inputs first') : first = first' := by
  obtain ⟨hfirst, since, before, rfl, hsince, hbefore⟩ := h
  obtain ⟨hfirst', since', before', hsplit, hsince', hbefore'⟩ := h'
  rcases List.append_eq_append_iff.1 hsplit with ⟨mid, rfl, hrest⟩ | ⟨mid, rfl, hrest⟩
  · exact eq_of_split hbefore hsince' hfirst' hrest
  · exact (eq_of_split hbefore' hsince hfirst hrest).symm

/-! ### What clearing forgets -/

/-- The readers cannot tell the two storages apart. -/
structure Alike (s t : State) : Prop where
  /-- `is_paused` reads the same, -/
  paused : isPaused s = isPaused t
  /-- `paused_since` does, -/
  since : pausedSince s = pausedSince t
  /-- and `pause_reason` does. -/
  reason : pauseReason s = pauseReason t

/-- No call tells them apart either. -/
theorem Alike.invoke (h : Alike s t) (env : Env Address) (call : Call) :
    Alike (invoke env call s) (invoke env call t) := by
  cases call with
  | pause =>
    simp only [Pausable.invoke, pause, h.paused]
    split
    · exact h
    · exact ⟨rfl, rfl, h.reason⟩
  | pauseWithReason reason =>
    simp only [Pausable.invoke, pauseWithReason, h.paused]
    split
    · exact h
    · exact ⟨rfl, rfl, congrArg (reason.orElse fun _ ↦ ·) h.reason⟩
  | unpause => exact ⟨rfl, rfl, rfl⟩

/-- **A cleared switch starts anew.** -/
theorem alike_of_unpause {since before : List (Input Address)} {i : Input Address}
    (hclear : i.call = .unpause) :
    Alike (system.final (since ++ i :: before)) (system.final since) := by
  have hstart : Alike (system.final (i :: before)) State.fresh := by
    rw [System.final_cons, show (system.exec i _).2 = invoke i.env i.call _ from rfl, hclear]
    exact ⟨rfl, rfl, rfl⟩
  rw [System.final_append]
  refine (System.same_results (R := Alike) (N := system) hstart ?_ since).2
  exact fun s t j h ↦ ⟨rfl, h.invoke j.env j.call⟩

end

/-- **The bookkeeping of the pause switch.** After every run from fresh storage, there is a
timestamp exactly while the switch is on, and a reason only then; the switch is on exactly if some
pause is the first one since the last call of `unpause`, and the timestamp and the reason are its
own, whatever pauses follow it; and what a run did up to some call of `unpause` shows in none of
the three readers. -/
theorem bookkeeping (inputs : List (Input Address)) :
    let s := system.final inputs
    ((pausedSince s).isSome ↔ isPaused s) ∧ ((pauseReason s).isSome → isPaused s) ∧
      (isPaused s ↔ ∃ first, FirstPause inputs first) ∧
      (∀ first, FirstPause inputs first →
        pausedSince s = some first.env.timestamp ∧ pauseReason s = first.call.reason) ∧
      ∀ since i before, inputs = since ++ i :: before → i.call = .unpause →
        Alike s (system.final since) := by
  refine ⟨?_, ?_, ?_, ?_, ?_⟩
  · cases remembers_final inputs with
    | resumed hresumed hpaused hsince hreason => simp [hpaused, hsince]
    | paused first hfirst hpaused hsince hreason => simp [hpaused, hsince]
  · cases remembers_final inputs with
    | resumed hresumed hpaused hsince hreason => simp [hreason]
    | paused first hfirst hpaused hsince hreason => exact fun _ ↦ hpaused
  · cases remembers_final inputs with
    | resumed hresumed hpaused hsince hreason =>
      rw [hpaused]
      exact iff_of_false Bool.false_ne_true fun ⟨first, hfirst⟩ ↦ hfirst.not_resumed hresumed
    | paused first hfirst hpaused hsince hreason => exact iff_of_true hpaused ⟨first, hfirst⟩
  · intro first hfirst
    cases remembers_final inputs with
    | resumed hresumed hpaused hsince hreason => exact absurd hresumed hfirst.not_resumed
    | paused first' hfirst' hpaused hsince hreason =>
      rw [hfirst.unique hfirst']
      exact ⟨hsince, hreason⟩
  · rintro since i before rfl hclear
    exact alike_of_unpause hclear

end Pausable
