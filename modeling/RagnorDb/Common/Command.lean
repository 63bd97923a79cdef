import RagnorDb.Catalog.Schema
import RagnorDb.Common.Encoding
import RagnorDb.Common.Ids
import RagnorDb.Common.Status

/-!
# Replicated tablet commands

The commands of `command_codec.rs` with their validation, and the envelope that carries a
command's identity and routing through the log.  The state machine uses the protobuf conversion
of a command only for its checks (`TabletCommand.validate`); the messages themselves are in
`CommandCodec`.
-/

namespace RagnorDb

open Std Checked

/-- One complete row mutation within a command. -/
structure WriteEntry where
  key : Bytes
  row : Option Row
  op : WriteKind
  deriving DecidableEq

def validateCommandMutation : WriteKind → Option Row → Except String Unit
  | .put, some _ | .delete, none => .ok ()
  | .put, none => .error "Put command requires a complete row"
  | .delete, some _ => .error "Delete command must not contain a row"
  | .rollback, _ => .error "Rollback is not a valid write mutation payload"

/-- The set of row keys met so far in a command. -/
abbrev SeenKeys := ExtTreeSet Bytes compare

def validateWriteEntries (writes : List WriteEntry) : Except String Unit := do
  rejectIf (writes = []) "participant command requires at least one write"
  let _ ← collect (σ := SeenKeys)
    (fun write : WriteEntry => do
      rejectIf (write.key = []) "participant command contains an empty row key"
      validateCommandMutation write.op write.row
      return write.key)
    (·.contains ·) (·.insert ·) (fun _ => "participant command contains a duplicate row key")
    writes ∅

def validateKeys (keys : List Bytes) : Except String Unit := do
  rejectIf (keys = []) "participant command requires at least one row key"
  let _ ← collect (σ := SeenKeys)
    (fun key : Bytes => do
      rejectIf (key = []) "participant command contains an empty row key"
      return key)
    (·.contains ·) (·.insert ·) (fun _ => "participant command contains a duplicate row key")
    keys ∅

def validateTxnStart (txnId : TxnId) (startTimestamp : Timestamp) : Except String Unit := do
  rejectIf (txnId = 0) "transaction ID must be non-zero"
  rejectIf (startTimestamp = 0) "transaction start timestamp must be non-zero"

/-- An optional status record of a command. -/
def validateOptional {α : Type} (check : α → Except String Unit) : Option α → Except String Unit
  | none => .ok ()
  | some a => check a

/-- Participant-wide prewrite of a distributed transaction. -/
structure PrewriteCommand where
  txnId : TxnId
  startTimestamp : Timestamp
  writes : List WriteEntry
  primaryKey : Bytes
  ttlMs : Nat
  pendingStatus : Option TxnStatusRecord
  deriving DecidableEq

def PrewriteCommand.validate (self : PrewriteCommand) : Except String Unit := do
  validateTxnStart self.txnId self.startTimestamp
  validateWriteEntries self.writes
  rejectIf (self.primaryKey = []) "prewrite primary key must not be empty"
  rejectIf (self.ttlMs = 0) "prewrite lock TTL must be non-zero"
  validateOptional (fun status => do
    status.validate
    rejectIf (status.txnId ≠ self.txnId ∨ status.startTimestamp ≠ self.startTimestamp ∨
        status.status ≠ .pending ∨ status.commitTimestamp.isSome ∨
        status.primaryKey ≠ self.primaryKey)
      "pending status does not match the primary prewrite"
    rejectIf (¬ self.writes.any fun write => write.key = status.primaryKey)
      "primary prewrite must include the status record primary key") self.pendingStatus

/-- Commit of every key owned by one tablet participant. -/
structure CommitCommand where
  txnId : TxnId
  startTimestamp : Timestamp
  commitTimestamp : Timestamp
  keys : List Bytes
  committedStatus : Option TxnStatusRecord
  deriving DecidableEq

def CommitCommand.validate (self : CommitCommand) : Except String Unit := do
  validateTxnStart self.txnId self.startTimestamp
  rejectIf (self.commitTimestamp ≤ self.startTimestamp)
    "commit timestamp must be greater than start timestamp"
  validateKeys self.keys
  validateOptional (fun status => do
    status.validate
    rejectIf (status.txnId ≠ self.txnId ∨ status.startTimestamp ≠ self.startTimestamp ∨
        status.commitTimestamp ≠ some self.commitTimestamp ∨ status.status ≠ .committed)
      "committed status does not match the primary commit"
    rejectIf (¬ self.keys.contains status.primaryKey)
      "primary commit must include the status record primary key") self.committedStatus

/-- Publication of the aborted decision after participant rollback. -/
structure PublishAbortedTransactionStatus where
  statusRecord : TxnStatusRecord
  deriving DecidableEq

def PublishAbortedTransactionStatus.validate (self : PublishAbortedTransactionStatus) :
    Except String Unit := do
  self.statusRecord.validate
  rejectIf (self.statusRecord.status ≠ .aborted ∨ self.statusRecord.commitTimestamp.isSome)
    "abort publication requires an aborted status without commit timestamp"

def sameTransactionStatusIdentity (left right : TxnStatusRecord) : Bool :=
  left.txnId = right.txnId ∧ left.startTimestamp = right.startTimestamp ∧
    left.primaryKey = right.primaryKey ∧ left.participantTabletIds = right.participantTabletIds

/-- Fenced renewal of a pending transaction lease at its status authority. -/
structure HeartbeatTransactionStatus where
  expectedStatus : TxnStatusRecord
  nextStatus : TxnStatusRecord
  nowMs : Nat
  deriving DecidableEq

def HeartbeatTransactionStatus.validate (self : HeartbeatTransactionStatus) :
    Except String Unit := do
  self.expectedStatus.validate
  self.nextStatus.validate
  rejectIf (self.nowMs = 0) "heartbeat apply time must be non-zero"
  rejectIf (self.expectedStatus.status ≠ .pending ∨ self.nextStatus.status ≠ .pending ∨
      self.expectedStatus.commitTimestamp.isSome ∨ self.nextStatus.commitTimestamp.isSome)
    "heartbeat requires pending status records"
  rejectIf (¬ sameTransactionStatusIdentity self.expectedStatus self.nextStatus)
    "heartbeat changed transaction status identity"
  let currentDeadline ← okOr self.expectedStatus.leaseDeadlineMs
    "heartbeat requires an existing lease deadline"
  rejectIf (self.nowMs ≥ currentDeadline)
    "heartbeat apply time is at or after the current lease deadline"
  let nextDeadline ← okOr self.nextStatus.leaseDeadlineMs "heartbeat requires a next lease deadline"
  rejectIf (nextDeadline < currentDeadline) "heartbeat lease deadline must not regress"
  let nextTimestamp ← okOr self.nextStatus.lastHeartbeatTimestamp
    "heartbeat requires a next heartbeat timestamp"
  rejectIf (nextTimestamp ≤
      self.expectedStatus.lastHeartbeatTimestamp.getD self.expectedStatus.startTimestamp)
    "heartbeat timestamp must advance monotonically"

/-- Abort of a pending transaction whose observed lease is still current and expired. -/
structure ExpirePendingTransactionStatus where
  expectedStatus : TxnStatusRecord
  nowMs : Nat
  deriving DecidableEq

def ExpirePendingTransactionStatus.validate (self : ExpirePendingTransactionStatus) :
    Except String Unit := do
  self.expectedStatus.validate
  rejectIf (self.nowMs = 0) "expiry apply time must be non-zero"
  rejectIf (self.expectedStatus.status ≠ .pending ∨ self.expectedStatus.commitTimestamp.isSome)
    "expiry requires a pending status record"
  let deadline ← okOr self.expectedStatus.leaseDeadlineMs
    "expiry requires an existing lease deadline"
  rejectIf (self.nowMs < deadline) "expiry apply time precedes the pending lease deadline"

/-- Rollback of every key owned by one tablet participant. -/
structure RollbackCommand where
  txnId : TxnId
  startTimestamp : Timestamp
  keys : List Bytes
  deriving DecidableEq

def RollbackCommand.validate (self : RollbackCommand) : Except String Unit := do
  validateTxnStart self.txnId self.startTimestamp
  validateKeys self.keys

/-- Atomic commit of a single-tablet transaction. -/
structure SingleShardCommitCommand where
  txnId : TxnId
  startTimestamp : Timestamp
  commitTimestamp : Timestamp
  writes : List WriteEntry
  deriving DecidableEq

def SingleShardCommitCommand.validate (self : SingleShardCommitCommand) : Except String Unit := do
  validateTxnStart self.txnId self.startTimestamp
  rejectIf (self.commitTimestamp ≤ self.startTimestamp)
    "commit timestamp must be greater than start timestamp"
  validateWriteEntries self.writes

/-- Resolution of an abandoned or completed intent. -/
structure ResolveIntentCommand where
  txnId : TxnId
  startTimestamp : Timestamp
  keys : List Bytes
  resolvedStatus : TxnStatus
  commitTimestamp : Option Timestamp
  deriving DecidableEq

def validateResolvedStatus (status : TxnStatus) (startTimestamp : Timestamp)
    (commitTimestamp : Option Timestamp) : Except String Unit :=
  match status, commitTimestamp with
  | .committed, some commitTimestamp =>
    rejectIf (commitTimestamp ≤ startTimestamp)
      ("committed intent resolution requires commit_timestamp " ++
        "greater than start_timestamp")
  | .aborted, none => .ok ()
  | .committed, none => .error "committed intent resolution requires commit_timestamp"
  | .aborted, some _ =>
    .error ("aborted intent resolution must not contain " ++ "commit_timestamp")
  | .pending, _ => .error "pending transaction cannot be resolved"

def ResolveIntentCommand.validate (self : ResolveIntentCommand) : Except String Unit := do
  validateTxnStart self.txnId self.startTimestamp
  validateKeys self.keys
  validateResolvedStatus self.resolvedStatus self.startTimestamp self.commitTimestamp

structure CreateTableOperation where
  tableDef : TableDefinition
  deriving DecidableEq

inductive CatalogOperation where
  | createTable (operation : CreateTableOperation)
  deriving DecidableEq

/-- A catalog change.  It is for the catalog owner; the tablet only orders and deduplicates it. -/
structure CatalogCommand where
  operation : CatalogOperation
  deriving DecidableEq

/-- Every command a tablet's state machine can process. -/
inductive TabletCommand where
  | prewrite (command : PrewriteCommand)
  | commit (command : CommitCommand)
  | rollback (command : RollbackCommand)
  | singleShardCommit (command : SingleShardCommitCommand)
  | resolveIntent (command : ResolveIntentCommand)
  | catalog (command : CatalogCommand)
  | noop
  | publishAbortedTransactionStatus (command : PublishAbortedTransactionStatus)
  | heartbeatTransactionStatus (command : HeartbeatTransactionStatus)
  | expirePendingTransactionStatus (command : ExpirePendingTransactionStatus)
  deriving DecidableEq

/-- The checks of `to_proto`. -/
def TabletCommand.validate : TabletCommand → Except String Unit
  | .prewrite command | .commit command | .rollback command | .singleShardCommit command
  | .resolveIntent command => command.validate
  | .catalog _ | .noop => .ok ()
  | .publishAbortedTransactionStatus command | .heartbeatTransactionStatus command
  | .expirePendingTransactionStatus command => command.validate

/-- Whether a command may share one Raft entry with adjacent commands for the same tablet. -/
def TabletCommand.isBatchable : TabletCommand → Bool
  | .prewrite _ | .commit _ | .rollback _ | .singleShardCommit _ | .resolveIntent _ => true
  | _ => false

def TabletCommand.kindName : TabletCommand → String
  | .prewrite _ => "prewrite"
  | .commit _ => "commit"
  | .rollback _ => "rollback"
  | .singleShardCommit _ => "single-shard-commit"
  | .resolveIntent _ => "resolve-intent"
  | .catalog _ => "catalog"
  | .noop => "noop"
  | .publishAbortedTransactionStatus _ => "publish-aborted-transaction-status"
  | .heartbeatTransactionStatus _ => "heartbeat-transaction-status"
  | .expirePendingTransactionStatus _ => "expire-pending-transaction-status"

/-! ## Envelopes -/

/-- The tablet command envelope format accepted. -/
def tabletCommandEnvelopeVersion : Nat := 2

inductive TabletCommandEnvelopeError where
  | unsupportedVersion (version : Nat)
  | zeroTabletId
  | zeroExpectedEpoch
  | missingField (field : String)
  | invalidRequestId (reason : String)
  | invalidLogicalCommandId (reason : String)
  | invalidCommand (reason : String)
  | decode (reason : String)
  deriving DecidableEq

def TabletCommandEnvelopeError.display : TabletCommandEnvelopeError → String
  | .unsupportedVersion version => s!"unsupported tablet command envelope version {version}"
  | .zeroTabletId => "tablet command envelope contains the reserved tablet ID zero"
  | .zeroExpectedEpoch => "tablet command envelope expected epoch must be non-zero"
  | .missingField field => s!"tablet command envelope is missing required field {field}"
  | .invalidRequestId reason => s!"invalid request ID: {reason}"
  | .invalidLogicalCommandId reason => s!"invalid logical command ID: {reason}"
  | .invalidCommand reason => s!"invalid tablet command: {reason}"
  | .decode reason => s!"cannot decode tablet command envelope: {reason}"

/-- Durable identity and routing metadata for one replicated tablet command. -/
structure TabletCommandEnvelope where
  formatVersion : Nat
  requestId : RequestId
  tabletId : TabletId
  expectedEpoch : Nat
  logicalCommandId : Option LogicalCommandId
  acknowledgedThrough : Option Nat
  command : TabletCommand
  deriving DecidableEq

namespace TabletCommandEnvelope

def validateMetadata (self : TabletCommandEnvelope) : Except TabletCommandEnvelopeError Unit := do
  rejectIf (self.formatVersion ≠ tabletCommandEnvelopeVersion)
    (.unsupportedVersion self.formatVersion)
  rejectIf (self.tabletId = 0) .zeroTabletId
  rejectIf (self.expectedEpoch = 0) .zeroExpectedEpoch
  rejectIf (self.requestId.clientId = 0) (.invalidRequestId "client ID must be non-zero")
  rejectIf (self.requestId.sequence = 0) (.invalidRequestId "request sequence must be non-zero")
  rejectIf (self.requestId.raftGroupId = 0) (.invalidRequestId "Raft group ID must be non-zero")
  match self.logicalCommandId with
  | none => .ok ()
  | some logicalCommandId => logicalCommandId.validate.mapError .invalidLogicalCommandId

/-- Validate invariants required before an envelope enters the Raft log. -/
def validate (self : TabletCommandEnvelope) : Except TabletCommandEnvelopeError Unit := do
  self.validateMetadata
  self.command.validate.mapError .invalidCommand

end TabletCommandEnvelope

end RagnorDb
