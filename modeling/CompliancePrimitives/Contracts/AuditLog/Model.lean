import CompliancePrimitives.Contracts.Pausable
import CompliancePrimitives.Foundation.CountedLog
import CompliancePrimitives.Foundation.Run
import CompliancePrimitives.Host.Env

/-!
# The `audit-log` contract

An append-only trail that other contracts can read. Whoever authorizes a record may write one, under
his own name; the admin can pause the writing and replace the code, and can neither change an entry
nor take one back. An entry is stored under the counter's value, and the counter is stored apart
from the entries.

The times to live of entries are left out: an entry that is archived would have to be restored
before it can be read, and the model reads it at once.

Pausing is that of the pausable crate, so its switch is a part of the state with its own model.
Reads are no calls: they answer from a state and leave it as it is, paused or not.
-/

namespace AuditLog

open Soroban

/-- The most entries `list_entries` returns. -/
def maxPageSize : ℕ := 100

/-- The most bytes of a record's `detail`. -/
def maxDetailLen : ℕ := 256

/-- One compliance event. -/
structure LogEntry (Address : Type) where
  source : Address
  kind : Symbol
  subject : Address
  detail : Bytes
  ledger : ℕ
  deriving DecidableEq

/-- The contract's events. -/
inductive Event (Address : Type) where
  | complianceEvent (kind : Symbol) (subject source : Address) (detail : Bytes)
  | upgradePerformed (admin : Address) (newWasmHash : Bytes32)
  | paused (admin : Address)
  | unpaused (admin : Address)
  deriving DecidableEq

/-- `Error`. -/
inductive Error where
  | notInitialized
  | alreadyInitialized
  | notAuthorized
  | pageTooLarge
  | contractPaused
  | detailTooLong
  deriving DecidableEq, Repr

/-- Instance and persistent storage, with what was emitted and installed so far. -/
structure State (Address : Type) where
  /-- `Admin`. Absent before `initialize`. -/
  admin : Option Address
  /-- `EntryCount`. What is absent counts as 0. -/
  entryCount : Option ℕ
  /-- `Entry(index)`, from 0 on. -/
  entries : ℕ → Option (LogEntry Address)
  /-- What the pausable crate keeps. -/
  pausable : Pausable.State
  /-- What was published, first to last. -/
  events : List (Event Address)
  /-- The code that was installed, first to last. -/
  installed : List Bytes32

/-- The storage of a fresh instance. -/
def deploy {Address : Type} : State Address where
  admin := none
  entryCount := none
  entries := fun _ ↦ none
  pausable := .fresh
  events := []
  installed := []

section Operations

variable {Address : Type} [DecidableEq Address]

/-- An operation of the contract. -/
abbrev Op (Address α : Type) := Tx Error (State Address) α

def publish (e : Event Address) : Op Address Unit :=
  Tx.modify fun s ↦ { s with events := s.events ++ [e] }

/-- `require_admin`. -/
def requireAdmin (env : Env Address) (admin : Address) : Op Address Unit :=
  requireStored env State.admin .notInitialized .notAuthorized admin

/-! ### Reads -/

/-- `is_paused`. -/
def isPaused (s : State Address) : Bool := Pausable.isPaused s.pausable

/-- `get_entry`. -/
def getEntry (s : State Address) (index : ℕ) : Option (LogEntry Address) := s.entries index

/-- `entry_count`. -/
def entryCount (s : State Address) : ℕ := s.entryCount.getD 0

/-- `list_entries`: the loop reads until the limit or the end of the log. -/
def listEntries (s : State Address) (start limit : ℕ) : Except Error (List (LogEntry Address)) :=
  if maxPageSize < limit then .error .pageTooLarge
  else .ok (CountedLog.scan (entryCount s) (getEntry s) limit start)

/-- `get_entries`: a count too large is cut down, not refused. -/
def getEntries (s : State Address) (start count : ℕ) : List (LogEntry Address) :=
  (listEntries s start (min count maxPageSize)).toOption.getD []

/-! ### Entry points -/

/-- `initialize`, a reserved word here. -/
def initialise (env : Env Address) (admin : Address) : Op Address Unit := do
  let s ← Tx.get
  Tx.ensure (s.admin = none) .alreadyInitialized
  requireAuth env admin
  Tx.modify fun s ↦ { s with admin := some admin, entryCount := some 0 }

/-- `pause`: announced also when already paused. -/
def pause (env : Env Address) (admin : Address) : Op Address Unit := do
  requireAdmin env admin
  Tx.modify fun s ↦ { s with pausable := Pausable.pause env s.pausable }
  publish (.paused admin)

/-- `unpause`. -/
def unpause (env : Env Address) (admin : Address) : Op Address Unit := do
  requireAdmin env admin
  Tx.modify fun s ↦ { s with pausable := Pausable.unpause s.pausable }
  publish (.unpaused admin)

/-- `upgrade`. -/
def upgrade (env : Env Address) (admin : Address) (newWasmHash : Bytes32) : Op Address Unit := do
  requireAdmin env admin
  publish (.upgradePerformed admin newWasmHash)
  Tx.modify fun s ↦ { s with installed := s.installed ++ [newWasmHash] }

/-- `record`. The counter is a `u64` and the crate is built with overflow checks, so a full log
traps. -/
def record (env : Env Address) (source : Address) (kind : Symbol) (subject : Address)
    (detail : Bytes) : Op Address Unit := do
  Pausable.requireNotPausedOr State.pausable .contractPaused
  let s ← Tx.get
  Tx.ensure (s.admin.isSome = true) .notInitialized
  Tx.ensure (¬maxDetailLen < detail.length) .detailTooLong
  requireAuth env source
  let index := s.entryCount.getD 0
  let entry : LogEntry Address := { source, kind, subject, detail, ledger := env.sequence }
  Tx.modify fun s ↦ { s with entries := Function.update s.entries index (some entry) }
  -- the increment overflows after the entry is stored; the trap takes the write back
  Tx.orTrap (index + 1 ≤ u64Max)
  Tx.modify fun s ↦ { s with entryCount := some (index + 1) }
  publish (.complianceEvent kind subject source detail)

/-! ### The contract as a system -/

/-- A call of an entry point that can change something. -/
inductive Call (Address : Type) where
  | initialise (admin : Address)
  | pause (admin : Address)
  | unpause (admin : Address)
  | upgrade (admin : Address) (newWasmHash : Bytes32)
  | record (source : Address) (kind : Symbol) (subject : Address) (detail : Bytes)
  deriving DecidableEq

/-- An invocation: a call, and the host's view it runs under. -/
structure Input (Address : Type) where
  env : Env Address
  call : Call Address

/-- Dispatch of a call to its entry point. -/
def invoke (env : Env Address) : Call Address → Op Address Unit
  | .initialise admin => initialise env admin
  | .pause admin => pause env admin
  | .unpause admin => unpause env admin
  | .upgrade admin newWasmHash => upgrade env admin newWasmHash
  | .record source kind subject detail => record env source kind subject detail

/-- The contract from its deployment on: a call that does not complete leaves no trace. -/
def system : System (State Address) (Input Address) (Except (Failure Error) Unit) where
  start := deploy
  exec i s := (invoke i.env i.call).commit s

end Operations

end AuditLog
