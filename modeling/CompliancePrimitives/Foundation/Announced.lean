import CompliancePrimitives.Foundation.Run

/-!
# What a run announces, and when

The states of a system keep a log of announcements to which a step may add and from which none
takes away (`System.Announces`). `announced` dates each announcement by the input it was made at, so
what was announced is the log (`map_fst_announced`).

Where the dates of a run do not fall (`Chronological`), the announcements through a moment are those
of the run as it was at that moment (`announced_through`). So a reader who has come to a certain
date has read what a shorter run announces, and nothing else.

A reader of this kind is anything that follows a log and keeps a position in it: what it has is then
a question about a run of the system that was followed, which is cut at the position, and not about
the reader.
-/

variable {σ ι ρ ε : Type}

/-- What a step announces, with its date. -/
def announcedBy (events : σ → List ε) (clock : ι → ℕ) (e : Step σ ι ρ) : List (ε × ℕ) :=
  ((events e.post).drop (events e.pre).length).map fun event ↦ (event, clock e.input)

/-- **What a run announces**, first to last. -/
def announced (events : σ → List ε) (clock : ι → ℕ) (h : List (Step σ ι ρ)) : List (ε × ℕ) :=
  h.reverse.flatMap (announcedBy events clock)

/-- The dates of a run do not fall. -/
def Chronological (clock : ι → ℕ) (is : List ι) : Prop :=
  is.Pairwise fun later earlier ↦ clock earlier ≤ clock later

instance (clock : ι → ℕ) (is : List ι) : Decidable (Chronological clock is) :=
  inferInstanceAs (Decidable (List.Pairwise _ _))

/-- The inputs of a run through a date. -/
def runThrough (clock : ι → ℕ) (date : ℕ) (is : List ι) : List ι :=
  is.filter fun i ↦ decide (clock i ≤ date)

section

variable {M : System σ ι ρ} {events : σ → List ε} {clock : ι → ℕ} {date : ℕ} {is : List ι}

@[simp]
theorem announced_cons (e : Step σ ι ρ) (h : List (Step σ ι ρ)) :
    announced events clock (e :: h) = announced events clock h ++ announcedBy events clock e := by
  simp [announced]

/-- The announcements of a step have its date. -/
theorem snd_of_mem_announcedBy {e : Step σ ι ρ} {a : ε × ℕ} (h : a ∈ announcedBy events clock e) :
    a.2 = clock e.input := by
  obtain ⟨_, -, rfl⟩ := List.mem_map.1 h
  rfl

/-- Every announcement has the date of an input. -/
theorem exists_of_mem_announced {a : ε × ℕ} (h : a ∈ announced events clock (M.history is)) :
    ∃ i ∈ is, a.2 = clock i := by
  obtain ⟨e, he, ha⟩ := List.mem_flatMap.1 h
  have hinput := List.mem_map_of_mem (f := Step.input) (List.mem_reverse.1 he)
  rw [M.map_input_history] at hinput
  exact ⟨e.input, hinput, snd_of_mem_announcedBy ha⟩

/-- No step takes an announcement back. -/
def System.Announces (M : System σ ι ρ) (events : σ → List ε) : Prop :=
  ∀ s i, events s <+: events (M.exec i s).2

/-- What a run announces is what its log has at the end. -/
theorem map_fst_announced (hgrows : M.Announces events) (hstart : events M.start = [])
    (clock : ι → ℕ) (is : List ι) :
    (announced events clock (M.history is)).map Prod.fst = events (M.final is) := by
  induction is with
  | nil => exact hstart.symm
  | cons i is ih =>
    obtain ⟨new, hnew⟩ := hgrows (M.final is) i
    rw [System.history_cons, announced_cons, List.map_append, ih, announcedBy,
      System.stepFrom_post, System.stepFrom_pre, ← hnew, List.drop_left, List.map_map,
      System.final_cons, ← hnew]
    exact congrArg (events (M.final is) ++ ·) (List.map_id _)

/-- **What was announced through a date is what the run through it announces.** -/
theorem announced_through (h : Chronological clock is) :
    (announced events clock (M.history is)).filter (fun a ↦ decide (a.2 ≤ date)) =
      announced events clock (M.history (runThrough clock date is)) := by
  induction is with
  | nil => rfl
  | cons i is ih =>
    obtain ⟨hlast, hbefore⟩ := List.pairwise_cons.1 h
    by_cases hi : clock i ≤ date
    -- then the run has not come farther than the date
    · have hall : ∀ j ∈ i :: is, clock j ≤ date :=
        List.forall_mem_cons.2 ⟨hi, fun j hj ↦ (hlast j hj).trans hi⟩
      have hrun : runThrough clock date (i :: is) = i :: is :=
        List.filter_eq_self.2 fun j hj ↦ decide_eq_true (hall j hj)
      rw [hrun, List.filter_eq_self]
      intro a ha
      obtain ⟨j, hj, hdate⟩ := exists_of_mem_announced ha
      exact decide_eq_true (hdate ▸ hall j hj)
    · have hrun : runThrough clock date (i :: is) = runThrough clock date is :=
        List.filter_cons_of_neg (by simpa using hi)
      have hlate : (announcedBy events clock (M.stepFrom (M.final is) i)).filter
          (fun a ↦ decide (a.2 ≤ date)) = [] :=
        List.filter_eq_nil_iff.2 fun a ha ↦ by simpa [snd_of_mem_announcedBy ha] using hi
      rw [hrun, ← ih hbefore, System.history_cons, announced_cons, List.filter_append, hlate,
        List.append_nil]

end
