import CompliancePrimitives.Contracts.AuditLog.Trail

/-!
# `audit-log`: reading the log in pages

A reader goes through the log with `list_entries` or `get_entries`, one page after the other, and
each time starts where the last page ended. Nothing locks the log meanwhile: between two pages any
number of entries may be recorded. A `Session` is the log and the reader next to each other, and its
runs are all the interleavings of the two.

What carries the result is that the log only grows (`exec_recorded`), so that the pages read so far
stay a segment of it.

An entry recorded while the reader is between two pages is seen if he has not passed its place, and
he never has: entries go behind the last one. So what he has read when a page comes back empty is
the whole log from where he started, as it is then, with nothing twice (`paging_seamless`). The size
of the pages plays no part, as long as it is one the contract admits.
-/

namespace AuditLog

open Soroban

/-- How a page is asked for. -/
inductive Query where
  | listEntries (limit : ℕ)
  | getEntries (count : ℕ)
  deriving DecidableEq, Repr

/-- A page is asked for with room for at least one entry, and for no more than `list_entries`
accepts; `get_entries` accepts any count. -/
def Query.Admissible : Query → Prop
  | .listEntries limit => 1 ≤ limit ∧ limit ≤ maxPageSize
  | .getEntries count => 1 ≤ count

instance : DecidablePred Query.Admissible
  | .listEntries limit => inferInstanceAs (Decidable (1 ≤ limit ∧ limit ≤ maxPageSize))
  | .getEntries count => inferInstanceAs (Decidable (1 ≤ count))

variable {Address : Type}

/-- What the contract answers. -/
def Query.answer (s : State Address) (start : ℕ) : Query → Except Error (List (LogEntry Address))
  | .listEntries limit => AuditLog.listEntries s start limit
  | .getEntries count => .ok (AuditLog.getEntries s start count)

/-- A reader: where his next page starts, and the pages he was given. -/
structure Reader (Address : Type) where
  start : ℕ
  pages : List (List (LogEntry Address))

/-- **The reader's protocol**: the next page starts at the last start plus the number of entries
returned. A query that is refused moves nothing. -/
def Reader.receive (r : Reader Address) :
    Except Error (List (LogEntry Address)) → Reader Address
  | .ok page => { start := r.start + page.length, pages := r.pages ++ [page] }
  | .error _ => r

/-- What was read so far. -/
def Reader.read (r : Reader Address) : List (LogEntry Address) := r.pages.flatten

/-- The log, and a reader going through it. -/
structure Session (Address : Type) where
  log : State Address
  reader : Reader Address

/-- The next thing to happen: somebody calls the contract, or the reader asks for a page. -/
inductive Move (Address : Type) where
  | invoke (i : Input Address)
  | page (q : Query)

/-- What came back. -/
inductive Answer (Address : Type) where
  | invoked (result : Except (Failure Error) Unit)
  | page (result : Except Error (List (LogEntry Address)))

/-- The calls among the moves. -/
def Move.input? : Move Address → Option (Input Address)
  | .invoke i => some i
  | .page _ => none

section

variable [DecidableEq Address]

/-- **All interleavings** of a reader, who begins at `first`, with whatever is called. -/
def session (first : ℕ) : System (Session Address) (Move Address) (Answer Address) where
  start := { log := deploy, reader := { start := first, pages := [] } }
  exec
    | .invoke i, s =>
      (.invoked (system.exec i s.log).1, { s with log := (system.exec i s.log).2 })
    | .page q, s =>
      (.page (q.answer s.log s.reader.start),
        { s with reader := s.reader.receive (q.answer s.log s.reader.start) })

variable (first : ℕ) {moves : List (Move Address)}

/-- The log of a session is that of a run of the contract. -/
theorem session_log (moves : List (Move Address)) :
    ((session first).final moves).log = system.final (moves.filterMap Move.input?) := by
  induction moves with
  | nil => rfl
  | cons move moves ih =>
    cases move with
    | invoke i => exact congrArg (fun s ↦ (system.exec i s).2) ih
    | page q => exact ih

/-- What the log of a session has recorded. -/
def recordedBy (moves : List (Move Address)) : List (LogEntry Address) :=
  recorded (system.history (moves.filterMap Move.input?))

/-- **An admissible query** is answered with a segment of the log, cut at a positive length. -/
theorem Query.Admissible.answer_eq {q : Query} (hq : q.Admissible) (inputs : List (Input Address))
    (start : ℕ) :
    ∃ n, 0 < n ∧ q.answer (system.final inputs) start =
      .ok (((recorded (system.history inputs)).drop start).take n) := by
  cases q with
  | listEntries limit => exact ⟨limit, hq.1, listEntries_final inputs hq.2⟩
  | getEntries count =>
    refine ⟨min count maxPageSize, lt_min hq (by decide), ?_⟩
    exact congrArg Except.ok (getEntries_final inputs start count)

omit [DecidableEq Address] in
/-- What is read next is the page. -/
theorem Reader.read_receive (r : Reader Address) (page : List (LogEntry Address)) :
    (r.receive (.ok page)).read = r.read ++ page := by
  rw [Reader.read, Reader.receive, List.flatten_append, List.flatten_singleton, Reader.read]

/-- **The reader's invariant**: he has read a segment of the log, and goes on behind it. -/
structure Reads (first : ℕ) (log : List (LogEntry Address)) (r : Reader Address) : Prop where
  /-- He asks for what comes right after what he has. -/
  start_eq : r.start = first + r.read.length
  /-- What he has is in the log, without a gap. -/
  isRead : CountedLog.IsRead log first r.read

/-- Calls only append to the log. -/
theorem Reads.invoke {r : Reader Address} (i : Input Address)
    (h : Reads first (recordedBy moves) r) : Reads first (recordedBy (.invoke i :: moves)) r :=
  ⟨h.start_eq, h.isRead.grow (recorded_append [i] _)⟩

omit [DecidableEq Address] in
/-- A page is appended to what was read. -/
theorem Reads.receive {log : List (LogEntry Address)} {r : Reader Address} (n : ℕ)
    (h : Reads first log r) : Reads first log (r.receive (.ok ((log.drop r.start).take n))) where
  start_eq := by
    rw [Reader.read_receive, List.length_append, ← Nat.add_assoc, ← h.start_eq]
    rfl
  isRead := by
    rw [Reader.read_receive, h.start_eq]
    exact h.isRead.page n

/-- The invariant holds in every session. -/
theorem reads_session (hmoves : ∀ q, .page q ∈ moves → q.Admissible) :
    Reads first (recordedBy moves) ((session first).final moves).reader := by
  induction moves with
  | nil => exact ⟨rfl, CountedLog.isRead_nil⟩
  | cons move moves ih =>
    have hreads := ih fun q hq ↦ hmoves q (List.mem_cons_of_mem _ hq)
    cases move with
    | invoke i => exact hreads.invoke first i
    | page q =>
      obtain ⟨n, -, hanswer⟩ := (hmoves q List.mem_cons_self).answer_eq
        (moves.filterMap Move.input?) ((session first).final moves).reader.start
      rw [← session_log first] at hanswer
      show Reads first (recordedBy moves) (((session first).final moves).reader.receive
        (q.answer ((session first).final moves).log ((session first).final moves).reader.start))
      rw [hanswer]
      exact hreads.receive first n

/-- **Paging loses and repeats nothing.** However a reader's pages are interleaved with calls of the
contract, what he has read is the log from his first index on, entry by entry. Every further page is
granted, and if it is empty he has read all there is. -/
theorem paging_seamless (moves : List (Move Address))
    (hmoves : ∀ q, .page q ∈ moves → q.Admissible) :
    let s := (session first).final moves
    s.reader.start = first + s.reader.read.length ∧
      (∀ k, k < s.reader.read.length → s.reader.read[k]? = getEntry s.log (first + k)) ∧
      ∀ q : Query, q.Admissible → ∃ page, q.answer s.log s.reader.start = .ok page ∧
        (page = [] → s.reader.read.length = entryCount s.log - first ∧
          ∀ k, s.reader.read[k]? = getEntry s.log (first + k)) := by
  intro s
  have hreads : Reads first (recordedBy moves) s.reader := reads_session first hmoves
  have hlog : s.log = system.final (moves.filterMap Move.input?) := session_log first moves
  have hholds := (trail_final (moves.filterMap Move.input?)).holds
  have hentry : ∀ k, getEntry s.log k = (recordedBy moves)[k]? := by
    rw [hlog]
    exact hholds.slot
  refine ⟨hreads.start_eq, fun k hk ↦ ?_, fun q hq ↦ ?_⟩
  · rw [hentry]
    exact hreads.isRead.getElem? hk
  · obtain ⟨n, hn, hanswer⟩ := hq.answer_eq (moves.filterMap Move.input?) s.reader.start
    rw [← hlog] at hanswer
    refine ⟨_, hanswer, fun hempty ↦ ?_⟩
    rw [hreads.start_eq] at hempty
    have hall : s.reader.read = (recordedBy moves).drop first := hreads.isRead.eq_drop hn hempty
    refine ⟨?_, fun k ↦ ?_⟩
    · rw [hall, List.length_drop, hlog, hholds.count]
      rfl
    · rw [hentry, hall, List.getElem?_drop]

/-- A host which grants every authorization it is asked for, in ledger 1. -/
def grantingHost : Env ℕ where
  sequence := 1
  timestamp := 0
  auths := fun _ ↦ true

/-- A reader asks for one entry, then for as many as he can get, and the third entry is recorded
between the two pages. -/
def interleaved : List (Move ℕ) :=
  [.page (.getEntries 200), .invoke ⟨grantingHost, .record 7 "thaw" 3 []⟩, .page (.listEntries 1),
    .invoke ⟨grantingHost, .record 7 "freeze" 3 []⟩, .invoke ⟨grantingHost, .record 7 "add" 3 []⟩,
    .invoke ⟨grantingHost, .initialise 0⟩]

/-- He has then read the three entries, in order. -/
theorem paging_seamless_interleaved :
    let s := (session 0).final interleaved
    s.reader.read.map LogEntry.kind = ["add", "freeze", "thaw"] ∧
      ∀ k, k < s.reader.read.length → s.reader.read[k]? = getEntry s.log (0 + k) :=
  ⟨by decide, (paging_seamless 0 interleaved
    (by simp [interleaved, Query.Admissible, maxPageSize])).2.1⟩

end

end AuditLog
