import CompliancePrimitives.Contracts.JurisdictionFlag.Roles

/-!
# `jurisdiction-flag`: a batch is its single calls

`set_multiple_jurisdictions` is documented to behave like `set_jurisdiction` once per entry. It does
not run that way: it checks the caller, the pause and the length once, validates every code, and
only then writes, so that the codes are looked at in another order than they are written in, and a
late invalid code has to undo nothing.

The single calls are compared with it as a **run**: `singleCalls` lists them, and the run is made
from the state the batch is called in. What connects the two is that whether the caller may write
(`Writable`) is not touched by a write, so every single call is asked the same question as the
first one, and all of them complete exactly if the batch is `Writable` with codes throughout
(`singles_complete_iff`). Then both have made the same edits (`final_singleCalls`), events
included.
-/

namespace JurisdictionFlag

open Soroban

variable {Address : Type} {env : Env Address} {s : State Address} {caller : Address}

/-- Whether the caller may write codes: authorized, in one of the two roles, and not in a pause. -/
def Writable (env : Env Address) (s : State Address) (caller : Address) : Prop :=
  env.auths caller = true ∧ HasAuthority s caller ∧ s.paused.getD false = false

/-- The edits that entries ask for. -/
def assignments (entries : List (Address × Bytes)) : List (Address × Edit) :=
  entries.map fun entry ↦ (entry.1, .assign entry.2 none)

/-- `set_jurisdiction` once per entry, in order. Runs are written latest first. -/
def singleCalls (env : Env Address) (caller : Address) (entries : List (Address × Bytes)) :
    List (Input Address) :=
  (entries.map fun entry ↦ ⟨env, .setJurisdiction caller entry.1 entry.2⟩).reverse

@[simp]
theorem assignments_append_singleton (entries : List (Address × Bytes)) (entry : Address × Bytes) :
    assignments (entries ++ [entry]) =
      assignments entries ++ [(entry.1, .assign entry.2 none)] := by
  rw [assignments, List.map_append]
  rfl

@[simp]
theorem singleCalls_append_singleton (env : Env Address) (caller : Address)
    (entries : List (Address × Bytes)) (entry : Address × Bytes) :
    singleCalls env caller (entries ++ [entry]) =
      ⟨env, .setJurisdiction caller entry.1 entry.2⟩ :: singleCalls env caller entries := by
  rw [singleCalls, List.map_append, List.reverse_append]
  rfl

variable [DecidableEq Address]

theorem State.editAll_append (s : State Address) (early late : List (Address × Edit)) :
    s.editAll (early ++ late) = (s.editAll early).editAll late := by
  induction early generalizing s with
  | nil => rfl
  | cons p early ih =>
    obtain ⟨address, x⟩ := p
    exact ih (s.edit address x)

/-- **Writing does not change who may write.** -/
theorem writable_editAll (edits : List (Address × Edit)) :
    Writable env (s.editAll edits) caller ↔ Writable env s caller := by
  rw [State.editAll_eq s edits]
  exact Iff.rfl

/-- Edits of other addresses leave the keys of an address alone. -/
theorem State.keys_editAll_of_forall_ne {edits : List (Address × Edit)} {a : Address}
    (hne : ∀ p ∈ edits, p.1 ≠ a) : (s.editAll edits).keys a = s.keys a := by
  induction edits generalizing s with
  | nil => rfl
  | cons p edits ih =>
    obtain ⟨address, x⟩ := p
    rw [List.forall_mem_cons] at hne
    have hother : a ≠ address := fun h ↦ hne.1 h.symm
    rw [State.editAll_cons, ih hne.2, State.keys_edit, Function.update_of_ne hother]

/-! ### The batch, and one single call -/

theorem setMultipleJurisdictions_ok_iff {entries : List (Address × Bytes)} {s' : State Address}
    {v : Value} :
    invoke env (.setMultipleJurisdictions caller entries) s = .ok (v, s') ↔
      v = .unit ∧ Writable env s caller ∧ (entries ≠ [] ∧ entries.length ≤ maxBatchSize) ∧
        (∀ entry ∈ entries, IsCode entry.2) ∧ s' = s.editAll (assignments entries) := by
  rw [invoke, Tx.bind_pure_eq_ok_iff]
  constructor
  · rintro ⟨_, h, rfl⟩
    obtain ⟨hauth, hauthority, hpaused, hlength, hcodes, rfl⟩ :=
      setMultipleJurisdictions_eq_ok_iff.1 h
    exact ⟨rfl, ⟨hauth, hauthority, hpaused⟩, hlength, hcodes, rfl⟩
  · rintro ⟨rfl, ⟨hauth, hauthority, hpaused⟩, hlength, hcodes, rfl⟩
    exact ⟨(), setMultipleJurisdictions_eq_ok_iff.2
      ⟨hauth, hauthority, hpaused, hlength, hcodes, rfl⟩, rfl⟩

theorem setJurisdiction_ok_iff {address : Address} {code : Bytes} {s' : State Address}
    {v : Value} :
    invoke env (.setJurisdiction caller address code) s = .ok (v, s') ↔
      v = .unit ∧ Writable env s caller ∧ IsCode code ∧
        s' = s.edit address (.assign code none) := by
  rw [invoke, Tx.bind_pure_eq_ok_iff]
  constructor
  · rintro ⟨_, h, rfl⟩
    obtain ⟨hauth, hauthority, hpaused, hcode, rfl⟩ := setJurisdiction_eq_ok_iff.1 h
    exact ⟨rfl, ⟨hauth, hauthority, hpaused⟩, hcode, rfl⟩
  · rintro ⟨rfl, ⟨hauth, hauthority, hpaused⟩, hcode, rfl⟩
    exact ⟨(), setJurisdiction_eq_ok_iff.2 ⟨hauth, hauthority, hpaused, hcode, rfl⟩, rfl⟩

/-- A call has completed in a step. -/
def Completed (e : Step (State Address) (Input Address) (Except (Failure Error) Value)) : Prop :=
  ∃ v, e.result = .ok v

/-- What a single call answers, in the run of an earlier one. -/
theorem completed_setJurisdiction_iff {start : State Address} {address : Address} {code : Bytes} :
    Completed ((system start).stepFrom s ⟨env, .setJurisdiction caller address code⟩) ↔
      Writable env s caller ∧ IsCode code := by
  constructor
  · rintro ⟨v, hv⟩
    obtain ⟨-, hwritable, hcode, -⟩ := setJurisdiction_ok_iff.1 (Tx.ok_of_commit_fst hv)
    exact ⟨hwritable, hcode⟩
  · rintro ⟨hwritable, hcode⟩
    have hok : invoke env (.setJurisdiction caller address code) s = .ok (.unit, _) :=
      setJurisdiction_ok_iff.2 ⟨rfl, hwritable, hcode, rfl⟩
    exact ⟨.unit, congrArg Prod.fst (Tx.commit_of_ok hok)⟩

/-- When the batch completes, and what it leaves. -/
theorem completed_setMultipleJurisdictions_iff {start : State Address}
    {entries : List (Address × Bytes)} :
    Completed ((system start).stepFrom s ⟨env, .setMultipleJurisdictions caller entries⟩) ↔
      Writable env s caller ∧ (entries ≠ [] ∧ entries.length ≤ maxBatchSize) ∧
        ∀ entry ∈ entries, IsCode entry.2 := by
  constructor
  · rintro ⟨v, hv⟩
    obtain ⟨-, hwritable, hlength, hcodes, -⟩ :=
      setMultipleJurisdictions_ok_iff.1 (Tx.ok_of_commit_fst hv)
    exact ⟨hwritable, hlength, hcodes⟩
  · rintro ⟨hwritable, hlength, hcodes⟩
    have hok := setMultipleJurisdictions_ok_iff.2 ⟨rfl, hwritable, hlength, hcodes, rfl⟩
    exact ⟨.unit, congrArg Prod.fst (Tx.commit_of_ok hok)⟩

theorem post_of_completed {start : State Address} {entries : List (Address × Bytes)}
    (h : Completed ((system start).stepFrom s
      ⟨env, .setMultipleJurisdictions caller entries⟩)) :
    ((system start).stepFrom s ⟨env, .setMultipleJurisdictions caller entries⟩).post =
      s.editAll (assignments entries) := by
  obtain ⟨hwritable, hlength, hcodes⟩ := completed_setMultipleJurisdictions_iff.1 h
  have hok := setMultipleJurisdictions_ok_iff.2 ⟨rfl, hwritable, hlength, hcodes, rfl⟩
  exact congrArg Prod.snd (Tx.commit_of_ok hok)

/-- **The last entry of an address is its code**, without expiry. -/
theorem keys_editAll_assignments {before after : List (Address × Bytes)} {a : Address}
    {code : Bytes} (hlater : ∀ entry ∈ after, entry.1 ≠ a) :
    (s.editAll (assignments (before ++ (a, code) :: after))).keys a =
      ⟨some [code], some code, none⟩ := by
  have hothers : ∀ p ∈ assignments after, p.1 ≠ a := by
    intro p hp
    obtain ⟨entry, hentry, rfl⟩ := List.mem_map.1 hp
    exact hlater entry hentry
  rw [List.append_cons, assignments, List.map_append, ← assignments, ← assignments,
    State.editAll_append, State.keys_editAll_of_forall_ne hothers, assignments_append_singleton,
    State.editAll_append, State.editAll_cons, State.editAll_nil, State.keys_edit,
    Function.update_self]
  rfl

/-! ### The run of single calls -/

/-- **Where every single call may write a code, the run makes the edits of the batch.** -/
theorem final_singleCalls {entries : List (Address × Bytes)} (hwritable : Writable env s caller)
    (hcodes : ∀ entry ∈ entries, IsCode entry.2) :
    (system s).final (singleCalls env caller entries) = s.editAll (assignments entries) := by
  induction entries using List.reverseRecOn with
  | nil => rfl
  | append_singleton entries entry ih =>
    rw [List.forall_mem_append, List.forall_mem_singleton] at hcodes
    have hok : invoke env (.setJurisdiction caller entry.1 entry.2)
        (s.editAll (assignments entries)) = .ok (.unit, _) :=
      setJurisdiction_ok_iff.2 ⟨rfl, (writable_editAll _).2 hwritable, hcodes.2, rfl⟩
    rw [singleCalls_append_singleton, System.final_cons, ih hcodes.1,
      assignments_append_singleton, State.editAll_append]
    exact congrArg Prod.snd (Tx.commit_of_ok hok)

/-- **When every single call completes**: there is none, or the caller may write and every entry
has a code. -/
theorem singles_complete_iff {entries : List (Address × Bytes)} :
    (∀ e ∈ (system s).history (singleCalls env caller entries), Completed e) ↔
      entries = [] ∨ (Writable env s caller ∧ ∀ entry ∈ entries, IsCode entry.2) := by
  induction entries using List.reverseRecOn with
  | nil => simp [singleCalls]
  | append_singleton entries entry ih =>
    have hne : entries ++ [entry] ≠ [] := by simp
    rw [singleCalls_append_singleton, System.history_cons, List.forall_mem_cons, ih,
      completed_setJurisdiction_iff, List.forall_mem_append, List.forall_mem_singleton,
      or_iff_right hne]
    constructor
    · rintro ⟨⟨hlast, hcode⟩, rfl | ⟨hwritable, hcodes⟩⟩
      · exact ⟨hlast, by simp, hcode⟩
      · exact ⟨hwritable, hcodes, hcode⟩
    · rintro ⟨hwritable, hcodes, hcode⟩
      -- the last call is asked in the state the others leave
      rw [final_singleCalls hwritable hcodes, writable_editAll]
      exact ⟨⟨hwritable, hcode⟩, .inr ⟨hwritable, hcodes⟩⟩

/-- **The batch is its single calls.** Where `set_multiple_jurisdictions` completes, it leaves the
state that `set_jurisdiction` once per entry leaves, with the same events in the same order; an
address ends with the code of its last entry and without expiry. It completes exactly for a list
that is not empty, not longer than `MAX_BATCH_SIZE`, and all of whose single calls complete one
after the other. Otherwise the state, events included, is the one before. -/
theorem setMultipleJurisdictions_eq_singles (env : Env Address) (s : State Address)
    (caller : Address) (entries : List (Address × Bytes)) :
    let batch := (system s).stepFrom s ⟨env, .setMultipleJurisdictions caller entries⟩
    let singles := singleCalls env caller entries
    (Completed batch → batch.post = (system s).final singles ∧
      ∀ before a code after, entries = before ++ (a, code) :: after →
        (∀ entry ∈ after, entry.1 ≠ a) → batch.post.keys a = ⟨some [code], some code, none⟩) ∧
    (Completed batch ↔ entries ≠ [] ∧ entries.length ≤ maxBatchSize ∧
      ∀ e ∈ (system s).history singles, Completed e) ∧
    (¬Completed batch → batch.post = s) := by
  intro batch singles
  have hiff : Completed batch ↔ _ := completed_setMultipleJurisdictions_iff
  refine ⟨fun hcompleted ↦ ?_, ?_, fun hfailed ↦ ?_⟩
  · obtain ⟨hwritable, -, hcodes⟩ := hiff.1 hcompleted
    have hpost : batch.post = s.editAll (assignments entries) := post_of_completed hcompleted
    rw [hpost]
    refine ⟨(final_singleCalls hwritable hcodes).symm, ?_⟩
    rintro before a code after rfl hlater
    exact keys_editAll_assignments hlater
  · rw [hiff, singles_complete_iff]
    constructor
    · rintro ⟨hwritable, ⟨hne, hlength⟩, hcodes⟩
      exact ⟨hne, hlength, .inr ⟨hwritable, hcodes⟩⟩
    · rintro ⟨hne, hlength, hsingles⟩
      obtain ⟨hwritable, hcodes⟩ := hsingles.resolve_left hne
      exact ⟨hwritable, ⟨hne, hlength⟩, hcodes⟩
  · rcases Tx.commit_answer (invoke env (.setMultipleJurisdictions caller entries)) s with
      ⟨v, hv, -⟩ | ⟨-, hkept⟩
    · exact absurd ⟨v, hv⟩ hfailed
    · exact hkept

end JurisdictionFlag
