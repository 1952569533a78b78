import CompliancePrimitives.Contracts.AuditLog.Trail

/-!
# `audit-log`: how a log grows

What can be read from a log in whatever state it is (`trail`), and by how much a call makes it
longer (`GrowsBy`), with nothing said of the calls before. This is the form other contracts need
that share a log: each of them knows what its own calls add.

`GrowsBy` is about every list a state may stand for, so it can be put together from the calls of
several contracts without knowing what any of them stands for at first. Only one thing about the
state matters besides, that nothing is in a log without an admin: `initialize` sets the counter to
zero, and would otherwise lose entries.
-/

namespace AuditLog

open Soroban

variable {Address : Type} {s s' : State Address} {l : List (LogEntry Address)}

/-- A log stands for a list of entries, which is empty before the log is initialized. -/
structure Stands (s : State Address) (l : List (LogEntry Address)) : Prop where
  /-- The counter counts the list, and the slots hold it. -/
  holds : CountedLog.Holds (entryCount s) s.entries l
  /-- Nothing is in it before there is an admin. -/
  uninitialized : s.admin = none → l = []

theorem stands_deploy : Stands (deploy : State Address) [] := ⟨CountedLog.holds_nil, fun _ ↦ rfl⟩

/-- Everything that can be read from a log, one index after the other. -/
def trail (s : State Address) : List (LogEntry Address) :=
  CountedLog.scan (entryCount s) (getEntry s) (entryCount s) 0

theorem Stands.trail_eq (h : Stands s l) : trail s = l := by
  refine (h.holds.scan (entryCount s) 0).trans ?_
  rw [List.drop_zero, h.holds.count, List.take_length]

/-- A log grows by some entries. -/
def GrowsBy (s s' : State Address) (new : List (LogEntry Address)) : Prop :=
  ∀ l, Stands s l → Stands s' (l ++ new)

theorem growsBy_refl : GrowsBy s s [] := fun l h ↦ (List.append_nil l).symm ▸ h

/-- A completed call makes the log grow by the entry it asks for. -/
theorem LogStep.growsBy [DecidableEq Address] {i : Input Address} (h : LogStep i s s') :
    GrowsBy s s' i.entry.toList := by
  intro l hs
  cases h with
  -- the counter is set to zero, which it was: nothing is recorded without an admin
  | founded hentry hnone hadmin hcount hentries =>
    have hnil := hs.uninitialized hnone
    have hzero : entryCount s = 0 := by rw [hs.holds.count, hnil, List.length_nil]
    rw [hentry, Option.toList_none, List.append_nil]
    refine ⟨?_, fun _ ↦ hnil⟩
    rw [hcount, hentries, ← hzero]
    exact hs.holds
  | appended entry hentry hauth hsome hadmin hcount hentries =>
    rw [hentry]
    refine ⟨?_, fun hnone ↦ ?_⟩
    · rw [hcount, hentries]
      exact hs.holds.append entry
    · rw [← hadmin, hnone] at hsome
      cases hsome
  | kept hentry hadmin hcount hentries =>
    rw [hentry, Option.toList_none, List.append_nil]
    refine ⟨?_, fun hnone ↦ hs.uninitialized (hadmin ▸ hnone)⟩
    rw [hcount, hentries]
    exact hs.holds

/-- The source of an entry authorized it. -/
theorem LogStep.auths [DecidableEq Address] {i : Input Address} (h : LogStep i s s')
    {entry : LogEntry Address} (hentry : i.entry = some entry) :
    i.env.auths entry.source = true := by
  cases h with
  | founded hno | kept hno => cases hno.symm.trans hentry
  | appended entry' hasked hauth =>
    obtain rfl : entry' = entry := Option.some.inj (hasked.symm.trans hentry)
    exact hauth

/-- What is read from a log is what was recorded. -/
theorem trail_eq_recorded [DecidableEq Address] (inputs : List (Input Address)) :
    trail (system.final inputs) = recorded (system.history inputs) := by
  have hs := trail_final inputs
  exact Stands.trail_eq ⟨hs.holds, hs.uninitialized⟩

end AuditLog
