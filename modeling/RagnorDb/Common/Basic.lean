import Mathlib.Algebra.Group.Nat.Defs
import RagnorDb.Lib.Checked

/-!
# Identifiers, errors and MVCC records

The shared types of `ragnordb-common`: identifiers (`ids.rs`), the error type
(`result.rs`), and the lock and write records with their validation (`codec.rs`).
Identifiers and timestamps are `u64` newtypes in the source; nothing here adds to them,
so they are natural numbers.
-/

namespace RagnorDb

open Checked

variable {a b c : Nat}

/-- `Vec<u8>`. -/
abbrev Bytes := List UInt8

abbrev TabletId := Nat
abbrev TableId := Nat
abbrev TxnId := Nat
abbrev Timestamp := Nat
abbrev RaftGroupId := Nat
abbrev ColumnId := Nat
abbrev NodeId := Nat
abbrev ReplicaId := Nat

/-- The largest `u64`, and the largest `usize` of the supported targets. -/
def u64Max : Nat := 2 ^ 64 - 1

/-- `u64::checked_add`. -/
def checkedAdd (a b : Nat) : Option Nat :=
  if a + b ≤ u64Max then some (a + b) else none

/-- `u64::saturating_add`. -/
def saturatingAdd (a b : Nat) : Nat := min (a + b) u64Max

theorem checkedAdd_eq_some :
    checkedAdd a b = some c ↔ a + b ≤ u64Max ∧ a + b = c := by
  simp [checkedAdd]

theorem eq_of_checkedAdd (h : checkedAdd a b = some c) : c = a + b :=
  (checkedAdd_eq_some.mp h).2.symm

/-- The variants of `ragnordb_common::Error` that the modelled code can return. -/
inductive Error where
  | notImplemented (what : String)
  | invalidArgument (message : String)
  | corruptData (message : String)
  | writeConflict (message : String)
  | constraintViolation (message : String)
  | proposalUnavailable (reason : String)
  | unsupportedSql (message : String)
  | schemaMismatch (message : String)
  | tabletUnavailable (reason : String)
  | requestOutcomeUnknown (identity : String)
  | configuration (message : String)
  | commitOutcomeUnknown (startLsn endLsn : Nat) (reason : String)
  | recoveryRequired (reason : String)
  | catalogOutcomeUnknown (startLsn endLsn : Nat) (reason : String)
  | staleTabletEpoch (currentEpoch expectedEpoch : Nat)
  | distributedScanFailed (tabletId : TabletId) (retryable : Bool) (reason : String)
  deriving DecidableEq

/-- The error's `Display` text. -/
def Error.display : Error → String
  | .notImplemented what => s!"not implemented: {what}"
  | .invalidArgument message => s!"invalid argument: {message}"
  | .corruptData message => s!"corrupt data: {message}"
  | .writeConflict message => s!"write conflict: {message}"
  | .constraintViolation message => s!"constraint violation: {message}"
  | .proposalUnavailable reason =>
    s!"replicated proposal did not reach a known apply result: {reason}"
  | .unsupportedSql message => s!"unsupported SQL: {message}"
  | .schemaMismatch message => s!"schema mismatch: {message}"
  | .tabletUnavailable reason => s!"tablet is temporarily unavailable: {reason}"
  | .requestOutcomeUnknown identity => s!"logical request outcome is unknown: {identity}"
  | .configuration message => s!"configuration error: {message}"
  | .commitOutcomeUnknown startLsn endLsn reason =>
    s!"commit outcome is unknown for WAL extent [{startLsn}, {endLsn}): {reason}"
  | .recoveryRequired reason => s!"local write path requires recovery: {reason}"
  | .catalogOutcomeUnknown startLsn endLsn reason =>
    s!"catalog outcome is unknown for WAL extent [{startLsn}, {endLsn}): {reason}"
  | .staleTabletEpoch currentEpoch expectedEpoch =>
    s!"tablet epoch is stale; expected {expectedEpoch}, current epoch is {currentEpoch}"
  | .distributedScanFailed tabletId retryable reason =>
    s!"distributed scan failed on tablet TabletId({tabletId}) (retryable={retryable}): {reason}"

/-- What a client may do with a failed request. -/
inductive RetryAction where
  | none
  | retrySameRequest
  | restartTransaction
  | queryOriginalOutcome
  deriving DecidableEq

def Error.retryAction : Error → RetryAction
  | .staleTabletEpoch .. | .tabletUnavailable _ | .proposalUnavailable _
  | .distributedScanFailed _ true _ => .retrySameRequest
  | .commitOutcomeUnknown .. | .catalogOutcomeUnknown .. | .requestOutcomeUnknown _ =>
    .queryOriginalOutcome
  | .writeConflict _ => .restartTransaction
  | _ => .none

/-- Kind of write operation. -/
inductive WriteKind where
  | put
  | delete
  | rollback
  deriving DecidableEq

/-- An uncommitted lock on a key. -/
structure LockRecord where
  txnId : TxnId
  primaryKey : Bytes
  startTimestamp : Timestamp
  ttlMs : Nat
  op : WriteKind
  deriving DecidableEq

/-- A committed version of a key, or the marker of a rolled back transaction. -/
structure WriteRecord where
  startTimestamp : Timestamp
  commitTimestamp : Timestamp
  op : WriteKind
  deriving DecidableEq

/-- The lock contract checked before a lock crosses a durable or RPC boundary. -/
def LockRecord.validate (lock : LockRecord) : Except String Unit := do
  rejectIf (lock.txnId = 0) "lock record requires a non-zero transaction ID"
  rejectIf (lock.primaryKey = []) "lock record requires a non-empty primary key"
  rejectIf (lock.startTimestamp = 0) "lock record requires a non-zero start timestamp"
  rejectIf (lock.ttlMs = 0) "lock record requires a non-zero TTL"
  rejectIf (lock.op = .rollback) "lock record cannot contain a rollback operation"

/-- The timestamp relation that gives a write record its meaning: a rollback record uses
the start timestamp as its durable marker. -/
def WriteRecord.validate (write : WriteRecord) : Except String Unit := do
  rejectIf (write.startTimestamp = 0) "write record requires a non-zero start timestamp"
  rejectIf (write.commitTimestamp = 0) "write record requires a non-zero commit timestamp"
  match write.op with
  | .put | .delete =>
    rejectIf (write.commitTimestamp ≤ write.startTimestamp)
      "committed write timestamp must be greater than start timestamp"
  | .rollback =>
    rejectIf (write.commitTimestamp ≠ write.startTimestamp)
      "rollback write timestamp must equal start timestamp"

end RagnorDb
