import CompliancePrimitives.Foundation.Run

/-!
# Maps, the logs of their writes, and tables that replay them

A **write** gives a key a value, or takes its value away. What a map is after a log of writes is
`replay`, and only the last write to a key counts (`replay_eq_lastWrite`). A system whose steps
write to a map leaves in it what the writes of the run make of it (`System.replay_history`). A table
**mirrors** a map if its rows are the entries of the map, each under the name the table has for the
key.

A table is kept by reading a stream in which the writes of one map are mixed with other things, and
in which not every item that is about the map is a write. `mirrors_foldl` says what each item has to
do to the table for the table to mirror what the log of writes makes of the map.
-/

/-- A write: the value a key has afterwards, if any. -/
structure Write (κ ν : Type) where
  key : κ
  value : Option ν

section

variable {κ κ' ν : Type} [DecidableEq κ]

/-- The map after a write. -/
def Write.apply (σ : κ → Option ν) (w : Write κ ν) : κ → Option ν :=
  Function.update σ w.key w.value

/-- The map after a log of writes. -/
def replay (σ : κ → Option ν) (log : List (Write κ ν)) : κ → Option ν := log.foldl Write.apply σ

@[simp] theorem replay_nil (σ : κ → Option ν) : replay σ [] = σ := rfl

@[simp] theorem replay_cons (σ : κ → Option ν) (w : Write κ ν) (log : List (Write κ ν)) :
    replay σ (w :: log) = replay (w.apply σ) log := rfl

theorem replay_append (σ : κ → Option ν) (log later : List (Write κ ν)) :
    replay σ (log ++ later) = replay (replay σ log) later := List.foldl_append

/-- The last write to a key. -/
def lastWrite (log : List (Write κ ν)) (k : κ) : Option (Write κ ν) :=
  (log.filter fun w ↦ decide (w.key = k)).getLast?

/-- **The last write to a key wins**, and a key that is not written to keeps its value. -/
theorem replay_eq_lastWrite (σ : κ → Option ν) (log : List (Write κ ν)) (k : κ) :
    replay σ log k = (lastWrite log k).elim (σ k) Write.value := by
  induction log using List.reverseRecOn with
  | nil => rfl
  | append_singleton log w ih =>
    rw [replay_append, replay_cons, replay_nil, Write.apply, lastWrite, List.filter_append]
    by_cases hk : w.key = k
    · subst hk
      simp
    · rw [Function.update_of_ne (Ne.symm hk), ih, lastWrite]
      simp [hk]

/-- The map that only the log has written to. -/
theorem replay_empty (log : List (Write κ ν)) (k : κ) :
    replay (fun _ ↦ none) log k = (lastWrite log k).bind Write.value := by
  rw [replay_eq_lastWrite]
  cases lastWrite log k <;> rfl

theorem lastWrite_eq_none_iff {log : List (Write κ ν)} {k : κ} :
    lastWrite log k = none ↔ ∀ w ∈ log, w.key ≠ k := by
  rw [lastWrite, List.getLast?_eq_none_iff, List.filter_eq_nil_iff]
  simp only [decide_eq_true_eq, ne_eq]

/-- **A replay starts over.** Writes whose keys are all written again leave no trace. -/
theorem replay_absorbs (σ : κ → Option ν) {earlier log : List (Write κ ν)}
    (hagain : ∀ w ∈ earlier, ∃ w' ∈ log, w'.key = w.key) :
    replay (replay σ earlier) log = replay σ log := by
  funext k
  rw [replay_eq_lastWrite, replay_eq_lastWrite σ log]
  rcases hlast : lastWrite log k with _ | w
  -- a key the log does not write was not written before it either
  · have hearlier : lastWrite earlier k = none := lastWrite_eq_none_iff.2 fun w hw hk ↦ by
      obtain ⟨w', hw', hkey⟩ := hagain w hw
      exact lastWrite_eq_none_iff.1 hlast w' hw' (hkey.trans hk)
    rw [Option.elim_none, Option.elim_none, replay_eq_lastWrite, hearlier]
    rfl
  · rfl

/-- Writing a value to one key and then to others. -/
theorem ite_mem_update {α : Type} (f : κ → α) (key : κ) (keys : List κ)
    (value : α) :
    (fun k ↦ if k ∈ keys then value else Function.update f key value k) =
      fun k ↦ if k ∈ key :: keys then value else f k := by
  funext k
  by_cases hk : k = key <;> by_cases hmem : k ∈ keys <;> simp [hk, hmem]

/-- Writing one value to many keys. -/
theorem replay_map (σ : κ → Option ν) (keys : List κ) (value : Option ν) :
    replay σ (keys.map fun k ↦ ⟨k, value⟩) = fun k ↦ if k ∈ keys then value else σ k := by
  induction keys generalizing σ with
  | nil => simp
  | cons key keys ih =>
    rw [List.map_cons, replay_cons, ih]
    exact ite_mem_update σ key keys value

/-- **A map is what a log of events makes of it**, of which some stand for a write. -/
def MadeBy {ε : Type} (write : ε → Option (Write κ ν)) (σ : κ → Option ν) (events : List ε) :
    Prop :=
  σ = replay (fun _ ↦ none) (events.filterMap write)

/-- Writes that are logged. -/
theorem MadeBy.append {ε : Type} {write : ε → Option (Write κ ν)} {σ σ' : κ → Option ν}
    {events later : List ε} {writes : List (Write κ ν)} (h : MadeBy write σ events)
    (hwrites : later.filterMap write = writes) (hσ : σ' = replay σ writes) :
    MadeBy write σ' (events ++ later) := by
  rw [MadeBy, hσ, List.filterMap_append, hwrites, replay_append, ← h]

omit [DecidableEq κ] in
/-- A batch of events that each stand for one write. -/
theorem filterMap_map_write {ε : Type} {write : ε → Option (Write κ ν)} {event : κ → ε}
    {value : Option ν} (h : ∀ k, write (event k) = some ⟨k, value⟩) (keys : List κ) :
    (keys.map event).filterMap write = keys.map fun k ↦ ⟨k, value⟩ := by
  induction keys with
  | nil => rfl
  | cons key keys ih => rw [List.map_cons, List.filterMap_cons_some (h key), ih, List.map_cons]

/-! ### Runs -/

section Run

variable {σ' ι ρ : Type} (M : System σ' ι ρ)

/-- The writes of a run, first to last. -/
def runWrites (writes : Step σ' ι ρ → List (Write κ ν)) (h : List (Step σ' ι ρ)) :
    List (Write κ ν) :=
  h.reverse.flatMap writes

/-- **A map that the steps of a run write to** is what all their writes make of it. -/
theorem System.replay_history {view : σ' → κ → Option ν}
    {writes : Step σ' ι ρ → List (Write κ ν)}
    (hstep : ∀ s i, view (M.exec i s).2 = replay (view s) (writes (M.stepFrom s i)))
    (is : List ι) :
    view (M.final is) = replay (view M.start) (runWrites writes (M.history is)) := by
  induction is with
  | nil => rfl
  | cons i is ih =>
    rw [System.final_cons, hstep, ih, ← replay_append, System.history_cons, runWrites, runWrites,
      List.reverse_cons, List.flatMap_append, List.flatMap_singleton]

end Run

/-! ### Tables -/

/-- **A table mirrors a map**: its rows are the entries of the map, under their names. -/
def Mirrors (name : κ → κ') (table : κ' → Option ν) (σ : κ → Option ν) : Prop :=
  ∀ x value, table x = some value ↔ ∃ k, x = name k ∧ σ k = some value

variable {name : κ → κ'} {table : κ' → Option ν} {σ τ : κ → Option ν}

omit [DecidableEq κ] in
theorem mirrors_empty : Mirrors name (fun _ ↦ none) (fun _ ↦ (none : Option ν)) := by
  intro x value
  simp

/-- A write keeps a table a mirror, if no two keys share a name. -/
theorem Mirrors.apply [DecidableEq κ'] (hname : Function.Injective name) (h : Mirrors name table σ)
    (w : Write κ ν) :
    Mirrors name (Function.update table (name w.key) w.value) (w.apply σ) := by
  intro x value
  by_cases hx : x = name w.key
  · subst hx
    rw [Function.update_self]
    constructor
    · intro hvalue
      exact ⟨w.key, rfl, by rw [Write.apply, Function.update_self, hvalue]⟩
    · rintro ⟨k, hk, hσ⟩
      rwa [← hname hk, Write.apply, Function.update_self] at hσ
  · rw [Function.update_of_ne hx, h]
    refine exists_congr fun k ↦ and_congr_right ?_
    rintro rfl
    rw [Write.apply, Function.update_of_ne fun hk ↦ hx (congrArg name hk)]

omit [DecidableEq κ] in
/-- The row of a key is its entry. -/
theorem Mirrors.table_name (hname : Function.Injective name) (h : Mirrors name table σ) (k : κ) :
    table (name k) = σ k := by
  refine Option.ext fun value ↦ ((h (name k) value).trans ⟨?_, fun hσ ↦ ⟨k, rfl, hσ⟩⟩)
  rintro ⟨k', hk, hσ⟩
  rwa [hname hk]

/-! ### Two folds over one stream -/

/-- **Two folds, of which one sees more.** A relation that every item of the stream keeps, be it one
that the other fold sees or not, holds at the end. -/
theorem foldl_related {α β ρ τ : Type} {mine : α → Bool} {rel : α → β → Prop} {R : ρ → τ → Prop}
    {f : ρ → β → ρ} {g : τ → α → τ} {stream : List α} {seen : List β}
    (hskip : ∀ r t a, mine a = false → R r t → R r (g t a))
    (hstep : ∀ r t a, mine a = true → ∀ b ∈ seen, rel a b → R r t → R (f r b) (g t a))
    (h : List.Forall₂ rel (stream.filter mine) seen) {r : ρ} {t : τ} (hR : R r t) :
    R (seen.foldl f r) (stream.foldl g t) := by
  induction stream generalizing seen r t with
  | nil =>
    cases h
    exact hR
  | cons a stream ih =>
    cases ha : mine a with
    | false =>
      rw [List.filter_cons_of_neg (by simp [ha])] at h
      exact ih hstep h (hskip r t a ha hR)
    | true =>
      rw [List.filter_cons_of_pos ha] at h
      cases h with
      | cons hab hrest =>
        exact ih (fun r t a ha b hb ↦ hstep r t a ha b (List.mem_cons_of_mem _ hb)) hrest
          (hstep r t a ha _ List.mem_cons_self hab hR)

/-- **A table that is kept by replaying a stream mirrors the map.** An item that is not about the
map leaves the table alone, and so does one that is no write. -/
theorem mirrors_foldl {α β T : Type} [DecidableEq κ'] (hname : Function.Injective name)
    {mine : α → Bool} {rel : α → β → Prop} {write : β → Option (Write κ ν)}
    {view : T → κ' → Option ν} {g : T → α → T} {stream : List α} {seen : List β}
    (hskip : ∀ t a, mine a = false → view (g t a) = view t)
    (hstep : ∀ t a, mine a = true → ∀ b ∈ seen, rel a b →
      view (g t a) = (write b).elim (view t) fun w ↦ Function.update (view t) (name w.key) w.value)
    (h : List.Forall₂ rel (stream.filter mine) seen) {t : T} (ht : Mirrors name (view t) σ) :
    Mirrors name (view (stream.foldl g t)) (replay σ (seen.filterMap write)) := by
  rw [replay, List.foldl_filterMap]
  refine foldl_related (R := fun σ t ↦ Mirrors name (view t) σ) ?_ ?_ h ht
  · intro σ t a ha hmirrors
    rwa [hskip t a ha]
  · intro σ t a ha b hb hab hmirrors
    rw [hstep t a ha b hb hab]
    cases hwrite : write b with
    | none => simpa [hwrite] using hmirrors
    | some w => simpa [hwrite] using hmirrors.apply hname w

end
