import RagnorDb.Common.Command
import RagnorDb.Storage.Mvcc

/-!
# The tablet state machine

The deterministic apply boundary of `ragnordb-tablet/src/command.rs`.  Raft decides the
order of the commands; `apply` checks that an envelope targets this tablet generation,
answers repeated commands from the replicated outcome tables, and dispatches the others
to the tablet's MVCC store and its transaction status table.  A method is a computation in
`TabletM`, which keeps the state on failure: a failed command may have advanced the
client's retry horizon or cached its rejection.
-/

namespace RagnorDb

open Std Checked

/-- A tablet: the owner of one part of a table. -/
structure Tablet where
  id : TabletId
  tableId : TableId
  storage : InMemoryMvcc
  deriving DecidableEq

/-- Construct a tablet using a supplied MVCC storage. -/
def Tablet.withStorage (id : TabletId) (tableId : TableId) (storage : InMemoryMvcc) :
    Except Error Tablet := do
  rejectIf (id = 0) (.invalidArgument "tablet ID 0 is reserved")
  rejectIf (tableId = 0) (.invalidArgument "table ID 0 is reserved")
  return { id, tableId, storage }

def Tablet.new (id : TabletId) (tableId : TableId) : Except Error Tablet :=
  withStorage id tableId .new

/-! ## Results and errors -/

/-- Deterministic result of applying a tablet command.  The cached form,
`CachedTabletCommandResult`, has the same variants. -/
inductive TabletCommandApplyResult where
  | noop
  | singleShardCommit
  | prewrite
  | commit
  | rollback
  | resolveIntent
  | publishAbortedTransactionStatus
  | heartbeatTransactionStatus
  deriving DecidableEq

/-- Result and provenance of one apply attempt. -/
structure TabletCommandApplyOutcome where
  result : TabletCommandApplyResult
  deduplicated : Bool
  deriving DecidableEq

inductive TabletCommandApplyError where
  | zeroTabletEpoch
  | zeroRaftGroupId
  | raftGroupMismatch (localRaftGroupId requestedRaftGroupId : RaftGroupId)
  | tabletIdMismatch (localTabletId requestedTabletId : TabletId)
  | tabletEpochMismatch (currentEpoch expectedEpoch : Nat)
  | staleRequestSequence (lastSequenceApplied receivedSequence : Nat)
  | requestSequenceGap (lastSequenceApplied expectedSequence receivedSequence : Nat)
  | requestSequenceExhausted (clientId : ClientId)
  | requestIdExpired (clientId : ClientId) (sessionEpoch sequence acknowledgedThrough : Nat)
  | acknowledgementRegression (clientId : ClientId) (sessionEpoch existing received : Nat)
  | invalidCommand (reason : String)
  | writeConflict (reason : String)
  | corruptState (reason : String)
  | storageFailure (reason : String)
  | unsupportedCommand (command : String)
  | invalidEnvelope (error : TabletCommandEnvelopeError)
  deriving DecidableEq

inductive CachedTabletCommandRejectionKind where
  | invalidCommand
  | writeConflict
  | unsupportedCommand
  deriving DecidableEq

structure CachedTabletCommandRejection where
  kind : CachedTabletCommandRejectionKind
  reason : String
  deriving DecidableEq

/-- A retained outcome. -/
inductive CachedTabletCommandOutcome where
  | applied (result : TabletCommandApplyResult)
  | rejected (rejection : CachedTabletCommandRejection)
  deriving DecidableEq

/-- Only deterministic rejections of the command itself are retained. -/
def cachedRejectionFromError : TabletCommandApplyError → Option CachedTabletCommandRejection
  | .invalidCommand reason => some ⟨.invalidCommand, reason⟩
  | .writeConflict reason => some ⟨.writeConflict, reason⟩
  | .unsupportedCommand command => some ⟨.unsupportedCommand, command⟩
  | _ => none

def errorFromCachedRejection (rejection : CachedTabletCommandRejection) : TabletCommandApplyError :=
  match rejection.kind with
  | .invalidCommand => .invalidCommand rejection.reason
  | .writeConflict => .writeConflict rejection.reason
  | .unsupportedCommand => .unsupportedCommand rejection.reason

def mapDatabaseError : Error → TabletCommandApplyError
  | .invalidArgument reason => .invalidCommand reason
  | .writeConflict reason => .writeConflict reason
  | .corruptData reason => .corruptState reason
  | error => .storageFailure error.display

/-! ## State -/

/-- Last applied request and outcome of one client or one logical command. -/
structure ClientDeduplicationState where
  lastSequenceApplied : Nat
  cachedOutcome : CachedTabletCommandOutcome
  deriving DecidableEq

structure ClientDeduplicationKey where
  clientId : ClientId
  raftGroupId : RaftGroupId
  deriving DecidableEq

namespace ClientDeduplicationKey

def key (self : ClientDeduplicationKey) : List Nat :=
  [self.clientId, self.raftGroupId]

theorem key_injective : Function.Injective key := by
  rintro ⟨c, g⟩ ⟨c', g'⟩ h
  simp only [key, List.cons.injEq, and_true] at h
  obtain ⟨hc, rfl⟩ := h
  rw [Fin.ext hc]

instance : Ord ClientDeduplicationKey := ⟨compareOn key⟩

instance : TransOrd ClientDeduplicationKey := inferInstanceAs (TransCmp (compareOn key))

instance : LawfulEqOrd ClientDeduplicationKey := OrderedMap.lawfulEqCmp_compareOn key_injective

end ClientDeduplicationKey

/-- The client of a request in its Raft group. -/
def RequestId.deduplicationKey (self : RequestId) : ClientDeduplicationKey :=
  ⟨self.clientId, self.raftGroupId⟩

/-- Replicated state machine owner for one tablet generation. -/
structure TabletStateMachine where
  tablet : Tablet
  epoch : Nat
  raftGroupId : RaftGroupId
  clientDeduplication : ExtTreeMap ClientDeduplicationKey ClientDeduplicationState compare
  logicalCommandDeduplication : ExtTreeMap LogicalCommandId ClientDeduplicationState compare
  logicalClientRetryHorizons : ExtTreeMap SessionKey Nat compare
  transactionStatuses : ExtTreeMap TxnId TxnStatusRecord compare
  deriving DecidableEq

abbrev TabletM := EStateM TabletCommandApplyError TabletStateMachine

namespace TabletStateMachine

/-- Bind a tablet to the non-zero descriptor epoch of this state-machine instance. -/
def new (tablet : Tablet) (epoch : Nat) (raftGroupId : RaftGroupId) :
    Except TabletCommandApplyError TabletStateMachine := do
  rejectIf (epoch = 0) .zeroTabletEpoch
  rejectIf (raftGroupId = 0) .zeroRaftGroupId
  return { tablet, epoch, raftGroupId, clientDeduplication := ∅,
           logicalCommandDeduplication := ∅, logicalClientRetryHorizons := ∅,
           transactionStatuses := ∅ }

/-! ## Target validation -/

section Validation

variable (self : TabletStateMachine)

def validateOwnedKey (key : Bytes) : Except TabletCommandApplyError Unit := do
  let rowKey ← (decodeRowKey key).mapError fun error =>
    .invalidCommand s!"malformed encoded row key: {error.display}"
  rejectIf (rowKey.tableId ≠ self.tablet.tableId) (.invalidCommand
    (s!"row belongs to table {rowKey.tableId}, but tablet {self.tablet.id} owns table " ++
      s!"{self.tablet.tableId}"))

def validateEncodedKey (key : Bytes) : Except TabletCommandApplyError Unit := do
  let _ ← (decodeRowKey key).mapError fun error =>
    .invalidCommand s!"malformed encoded row key: {error.display}"

def validateStatusAuthority (status : TxnStatusRecord) : Except TabletCommandApplyError Unit := do
  status.validate.mapError fun reason =>
    .invalidCommand s!"invalid transaction status record: {reason}"
  let primaryTabletId ← status.primaryTabletId.mapError fun reason =>
    .invalidCommand s!"invalid transaction status authority: {reason}"
  rejectIf (primaryTabletId ≠ self.tablet.id) (.invalidCommand
    (s!"transaction status belongs to primary tablet {primaryTabletId}, but this state " ++
      s!"machine owns {self.tablet.id}"))
  self.validateOwnedKey status.primaryKey

def validateOwnedKeySlice (keys : List Bytes) : Except TabletCommandApplyError Unit :=
  keys.forM self.validateOwnedKey

/-- An optional status record of a command. -/
def validateOptionalAuthority : Option TxnStatusRecord → Except TabletCommandApplyError Unit
  | none => .ok ()
  | some status => self.validateStatusAuthority status

/-- The keys and status records of a command belong to this tablet. -/
def validateTarget : TabletCommand → Except TabletCommandApplyError Unit
  | .prewrite command => do
    validateEncodedKey command.primaryKey
    command.writes.forM fun write => self.validateOwnedKey write.key
    self.validateOptionalAuthority command.pendingStatus
  | .singleShardCommit command => command.writes.forM fun write => self.validateOwnedKey write.key
  | .commit command => do
    self.validateOwnedKeySlice command.keys
    self.validateOptionalAuthority command.committedStatus
  | .rollback command | .resolveIntent command => self.validateOwnedKeySlice command.keys
  | .publishAbortedTransactionStatus command =>
    self.validateStatusAuthority command.statusRecord
  | .heartbeatTransactionStatus command => do
    self.validateStatusAuthority command.expectedStatus
    self.validateStatusAuthority command.nextStatus
  | .expirePendingTransactionStatus command =>
    self.validateStatusAuthority command.expectedStatus
  | .catalog _ | .noop => .ok ()

/-- Validate routing and storage-key structure before proposing a command. -/
def validateProposal (envelope : TabletCommandEnvelope) : Except TabletCommandApplyError Unit := do
  envelope.validate.mapError .invalidEnvelope
  rejectIf (envelope.tabletId ≠ self.tablet.id)
    (.tabletIdMismatch self.tablet.id envelope.tabletId)
  rejectIf (envelope.expectedEpoch ≠ self.epoch)
    (.tabletEpochMismatch self.epoch envelope.expectedEpoch)
  rejectIf (envelope.requestId.raftGroupId ≠ self.raftGroupId)
    (.raftGroupMismatch self.raftGroupId envelope.requestId.raftGroupId)
  self.validateTarget envelope.command

/-- The distinct keys of a participant command. -/
def validateOwnedKeys (keys : List Bytes) : Except TabletCommandApplyError KeySet := do
  rejectIf (keys = [])
    (.invalidCommand "participant command requires at least one row key")
  collect
    (fun key : Bytes => do
      self.validateOwnedKey key
      return key)
    (·.contains ·) (·.insert ·)
    (fun _ => .invalidCommand "participant command contains a duplicate row key") keys ∅

end Validation

def mutationFromCommand : WriteKind → Option Row → Except TabletCommandApplyError Mutation
  | .put, some row => (Mutation.put <$> encodeRow row).mapError mapDatabaseError
  | .delete, none => .ok .delete
  | .put, none => .error (.invalidCommand "Put command requires a complete row")
  | .delete, some _ => .error (.invalidCommand "Delete command must not contain a row")
  | .rollback, _ => .error (.invalidCommand "Rollback is not a valid write mutation payload")

/-- The mutation of a write entry, at its key. -/
def collectEntry (self : TabletStateMachine) (write : WriteEntry) :
    Except TabletCommandApplyError (Bytes × Mutation) := do
  self.validateOwnedKey write.key
  let mutation ← mutationFromCommand write.op write.row
  return (write.key, mutation)

/-- The mutations of a command by row key. -/
def collectMutations (self : TabletStateMachine) (duplicate : String) (writes : List WriteEntry) :
    Except TabletCommandApplyError Mutations :=
  collect self.collectEntry
    (fun mutations e => mutations.contains e.1) (fun mutations e => mutations.insert e.1 e.2)
    (fun _ => .invalidCommand duplicate) writes ∅

/-! ## Transaction status transitions -/

def sameStatusIdentity (existing next : TxnStatusRecord) : Bool :=
  existing.txnId = next.txnId ∧ existing.startTimestamp = next.startTimestamp ∧
    existing.primaryKey = next.primaryKey ∧
    existing.participantTabletIds = next.participantTabletIds

def identityChanged (txnId : TxnId) : TabletCommandApplyError :=
  .corruptState s!"transaction status identity changed for transaction TxnId({txnId})"

section Transitions

variable (self : TabletStateMachine)

/-- The status that a prewrite publishes, if any. -/
def validatePrewriteStatusTransition (txnId : TxnId) (startTimestamp : Timestamp)
    (primaryKey : Bytes) (writes : Mutations) (status : Option TxnStatusRecord) :
    Except TabletCommandApplyError (Option TxnStatusRecord) :=
  let existing := self.transactionStatuses[txnId]?
  match status with
  | none => do
    rejectIf (existing.any fun record =>
        record.primaryKey = primaryKey ∧ writes.contains record.primaryKey)
      (.invalidCommand "primary prewrite is missing its pending status record")
    return none
  | some status => do
    self.validateStatusAuthority status
    rejectIf (status.txnId ≠ txnId ∨ status.startTimestamp ≠ startTimestamp)
      (.invalidCommand "pending status identity does not match prewrite")
    rejectIf (status.primaryKey ≠ primaryKey ∨ ¬ writes.contains status.primaryKey)
      (.invalidCommand "pending status primary key must be included in primary prewrite")
    match existing with
    | none => return some status
    | some existing =>
      if existing = status then
        return none
      else if ¬ sameStatusIdentity existing status then
        throw (identityChanged txnId)
      else if existing.status ≠ .pending then
        throw (.invalidCommand "terminal transaction status cannot return to pending")
      else
        throw (.invalidCommand "pending transaction status changed after publication")

/-- The status that a commit publishes, if any. -/
def validateCommitStatusTransition (txnId : TxnId) (startTimestamp commitTimestamp : Timestamp)
    (keys : KeySet) (status : Option TxnStatusRecord) :
    Except TabletCommandApplyError (Option TxnStatusRecord) :=
  let existing := self.transactionStatuses[txnId]?
  match status with
  | none => do
    rejectIf (existing.any fun existing => keys.contains existing.primaryKey)
      (.invalidCommand "primary commit is missing its committed status record")
    return none
  | some status => do
    self.validateStatusAuthority status
    rejectIf (status.txnId ≠ txnId ∨ status.startTimestamp ≠ startTimestamp ∨
        status.commitTimestamp ≠ some commitTimestamp)
      (.invalidCommand "committed status identity does not match commit")
    rejectIf (¬ keys.contains status.primaryKey)
      (.invalidCommand "primary commit must include its status record primary key")
    match existing with
    | none => throw (.invalidCommand "committed status requires an existing pending status")
    | some existing =>
      if ¬ sameStatusIdentity existing status then
        throw (identityChanged txnId)
      else if existing.status = .pending then
        return some status
      else if existing = status then
        return none
      else if existing.status = .aborted then
        throw (.invalidCommand "aborted transaction cannot be committed")
      else
        throw (.invalidCommand
          "committed transaction status conflicts with the existing decision")

/-- Whether an abort publication replaces the stored status. -/
def validateAbortStatusTransition (status : TxnStatusRecord) :
    Except TabletCommandApplyError Bool := do
  let existing ← okOr self.transactionStatuses[status.txnId]?
    (.invalidCommand "aborted status requires an existing pending status")
  rejectIf (¬ sameStatusIdentity existing status) (identityChanged status.txnId)
  match existing.status with
  | .pending => return true
  | .aborted =>
    if existing = status then
      return false
    else
      throw (.invalidCommand "aborted transaction status conflicts with the existing decision")
  | .committed => throw (.invalidCommand "committed transaction cannot be aborted")

end Transitions

/-! ## Command execution -/

/-- The state machine with another store. -/
def setStorage (self : TabletStateMachine) (storage : InMemoryMvcc) : TabletStateMachine :=
  { self with tablet := { self.tablet with storage } }

/-- Run a storage method on the tablet's store. -/
def onStorage {α : Type} (method : MvccM α) : TabletM α := fun self =>
  match method.run self.tablet.storage with
  | .ok a storage => .ok a (self.setStorage storage)
  | .error e storage => .error (mapDatabaseError e) (self.setStorage storage)

/-- The state machine after a command has published a status, if it publishes one. -/
def published (txnId : TxnId) (transition : Option TxnStatusRecord)
    (self : TabletStateMachine) : TabletStateMachine :=
  match transition with
  | none => self
  | some status =>
    { self with transactionStatuses := self.transactionStatuses.insert txnId status }

/-- Store the status that a command publishes, if any. -/
def publishStatus (txnId : TxnId) (transition : Option TxnStatusRecord) : TabletM Unit :=
  modify (published txnId transition)

def applySingleShardCommit (command : SingleShardCommitCommand) :
    TabletM TabletCommandApplyResult := do
  rejectIf (command.writes = []) (TabletCommandApplyError.invalidCommand
    "single-shard commit requires at least one write")
  let self ← get
  let mutations ← self.collectMutations "single-shard commit contains a duplicate row key"
    command.writes
  let _ ← onStorage (InMemoryMvcc.commitBatch command.txnId command.startTimestamp
    command.commitTimestamp mutations)
  return .singleShardCommit

def applyPrewrite (command : PrewriteCommand) : TabletM TabletCommandApplyResult := do
  let self ← get
  let mutations ← self.collectMutations "prewrite contains a duplicate row key" command.writes
  let statusTransition ← self.validatePrewriteStatusTransition command.txnId
    command.startTimestamp command.primaryKey mutations command.pendingStatus
  onStorage (InMemoryMvcc.prewriteBatch command.txnId command.startTimestamp mutations
    command.primaryKey command.ttlMs)
  publishStatus command.txnId statusTransition
  return .prewrite

def applyCommit (command : CommitCommand) : TabletM TabletCommandApplyResult := do
  let self ← get
  let keys ← self.validateOwnedKeys command.keys
  let statusTransition ← self.validateCommitStatusTransition command.txnId
    command.startTimestamp command.commitTimestamp keys command.committedStatus
  onStorage (InMemoryMvcc.commitIntentsBatch command.txnId command.startTimestamp
    command.commitTimestamp keys)
  publishStatus command.txnId statusTransition
  return .commit

def applyPublishAbortedTransactionStatus (command : PublishAbortedTransactionStatus) :
    TabletM TabletCommandApplyResult := do
  let self ← get
  self.validateStatusAuthority command.statusRecord
  let shouldReplace ← self.validateAbortStatusTransition command.statusRecord
  publishStatus command.statusRecord.txnId
    (if shouldReplace then some command.statusRecord else none)
  return .publishAbortedTransactionStatus

def applyHeartbeatTransactionStatus (command : HeartbeatTransactionStatus) :
    TabletM TabletCommandApplyResult := do
  command.validate.mapError TabletCommandApplyError.invalidCommand
  let self ← get
  let current ← okOr self.transactionStatuses[command.expectedStatus.txnId]?
    (TabletCommandApplyError.writeConflict
      "transaction status disappeared before heartbeat apply")
  rejectIf (current ≠ command.expectedStatus) (TabletCommandApplyError.writeConflict
    "transaction status changed before heartbeat apply")
  publishStatus command.expectedStatus.txnId (some command.nextStatus)
  return .heartbeatTransactionStatus

/-- The record that an expiry publishes. -/
def expiredStatus (expected : TxnStatusRecord) : TxnStatusRecord :=
  { expected with status := .aborted, commitTimestamp := none }

def applyExpirePendingTransactionStatus (command : ExpirePendingTransactionStatus) :
    TabletM TabletCommandApplyResult := do
  command.validate.mapError TabletCommandApplyError.invalidCommand
  let self ← get
  let current ← okOr self.transactionStatuses[command.expectedStatus.txnId]?
    (TabletCommandApplyError.writeConflict "transaction status disappeared before expiry apply")
  let aborted := expiredStatus command.expectedStatus
  rejectIf (current ≠ aborted ∧ current ≠ command.expectedStatus)
    (TabletCommandApplyError.writeConflict "transaction status changed before expiry apply")
  publishStatus command.expectedStatus.txnId (if current = aborted then none else some aborted)
  return .publishAbortedTransactionStatus

def applyRollback (command : RollbackCommand) : TabletM TabletCommandApplyResult := do
  let self ← get
  let keys ← self.validateOwnedKeys command.keys
  onStorage (InMemoryMvcc.rollbackIntentsBatch command.txnId command.startTimestamp keys)
  return .rollback

def applyResolveIntent (command : ResolveIntentCommand) : TabletM TabletCommandApplyResult := do
  let self ← get
  let keys ← self.validateOwnedKeys command.keys
  match command.resolvedStatus, command.commitTimestamp with
  | .committed, some commitTimestamp =>
    onStorage (InMemoryMvcc.commitIntentsBatch command.txnId command.startTimestamp
      commitTimestamp keys)
    return .resolveIntent
  | .aborted, none =>
    onStorage (InMemoryMvcc.rollbackIntentsBatch command.txnId command.startTimestamp keys)
    return .resolveIntent
  | .pending, _ => throw (.invalidCommand "pending transaction cannot be resolved")
  | .committed, none =>
    throw (.invalidCommand "committed intent resolution requires commit_timestamp")
  | .aborted, some _ =>
    throw (.invalidCommand "aborted intent resolution must not contain commit_timestamp")

def dispatchCommand : TabletCommand → TabletM TabletCommandApplyResult
  | .noop => return .noop
  | .singleShardCommit command => applySingleShardCommit command
  | .prewrite command => applyPrewrite command
  | .commit command => applyCommit command
  | .publishAbortedTransactionStatus command => applyPublishAbortedTransactionStatus command
  | .heartbeatTransactionStatus command => applyHeartbeatTransactionStatus command
  | .expirePendingTransactionStatus command => applyExpirePendingTransactionStatus command
  | .rollback command => applyRollback command
  | .resolveIntent command => applyResolveIntent command
  | .catalog _ => return .noop

/-! ## Deduplication -/

/-- The answer to a repeated command. -/
def replayOutcome : CachedTabletCommandOutcome → TabletM TabletCommandApplyOutcome
  | .applied result => return ⟨result, true⟩
  | .rejected rejection => throw (errorFromCachedRejection rejection)

/-- Run a command and retain its outcome, unless it failed for a reason that is not a
rejection of the command. -/
def executeAndRetain (retain : TabletStateMachine → CachedTabletCommandOutcome → TabletStateMachine)
    (command : TabletCommand) : TabletM TabletCommandApplyOutcome := fun self =>
  match (dispatchCommand command).run self with
  | .ok result self => .ok ⟨result, false⟩ (retain self (.applied result))
  | .error error self =>
    match cachedRejectionFromError error with
    | some rejection => .error error (retain self (.rejected rejection))
    | none => .error error self

def retainLogical (logicalCommandId : LogicalCommandId) (self : TabletStateMachine)
    (outcome : CachedTabletCommandOutcome) : TabletStateMachine :=
  { self with logicalCommandDeduplication :=
      self.logicalCommandDeduplication.insert logicalCommandId ⟨1, outcome⟩ }

def retainClient (key : ClientDeduplicationKey) (sequence : Nat) (self : TabletStateMachine)
    (outcome : CachedTabletCommandOutcome) : TabletStateMachine :=
  { self with clientDeduplication := self.clientDeduplication.insert key ⟨sequence, outcome⟩ }

/-- Raise a session's retry horizon and drop the outcomes it covers. -/
def advanceHorizon (session : SessionKey) (acknowledgedThrough : Nat)
    (self : TabletStateMachine) : TabletStateMachine :=
  { self with
    logicalClientRetryHorizons :=
      self.logicalClientRetryHorizons.insert session acknowledgedThrough
    logicalCommandDeduplication := self.logicalCommandDeduplication.filter fun id _ =>
      decide (id.sessionKey ≠ session ∨ id.clientRequestId.requestSequence > acknowledgedThrough) }

/-- Apply a caller acknowledgement. -/
def applyRetryHorizon (session : SessionKey) : Option Nat → TabletM Unit
  | none => return
  | some acknowledgedThrough => do
    let self ← get
    match self.logicalClientRetryHorizons[session]? with
    | none => modify (advanceHorizon session acknowledgedThrough)
    | some previous =>
      if acknowledgedThrough < previous then
        throw (.acknowledgementRegression session.clientId session.sessionEpoch previous
          acknowledgedThrough)
      else if previous = acknowledgedThrough then
        return
      else
        modify (advanceHorizon session acknowledgedThrough)

/-- A request at or below its session's horizon has expired. -/
def checkExpired (logicalCommandId : LogicalCommandId) (self : TabletStateMachine) :
    Except TabletCommandApplyError Unit :=
  let request := logicalCommandId.clientRequestId
  match self.logicalClientRetryHorizons[logicalCommandId.sessionKey]? with
  | none => .ok ()
  | some acknowledgedThrough =>
    rejectIf (request.requestSequence ≤ acknowledgedThrough) (.requestIdExpired
      request.clientId request.sessionEpoch request.requestSequence acknowledgedThrough)

/-- Apply a command with a logical identity. -/
def applyLogical (logicalCommandId : LogicalCommandId) (acknowledgedThrough : Option Nat)
    (command : TabletCommand) : TabletM TabletCommandApplyOutcome := do
  applyRetryHorizon logicalCommandId.sessionKey acknowledgedThrough
  let self ← get
  checkExpired logicalCommandId self
  match self.logicalCommandDeduplication[logicalCommandId]? with
  | some deduplication => replayOutcome deduplication.cachedOutcome
  | none => executeAndRetain (retainLogical logicalCommandId) command

/-- The sequence a client must send next. -/
def checkSequence (clientId : ClientId) (sequence : Nat) :
    Option ClientDeduplicationState → Except TabletCommandApplyError Unit
  | none => rejectIf (sequence ≠ 1) (.requestSequenceGap 0 1 sequence)
  | some deduplication => do
    rejectIf (sequence < deduplication.lastSequenceApplied)
      (.staleRequestSequence deduplication.lastSequenceApplied sequence)
    let expectedSequence ← okOr (checkedAdd deduplication.lastSequenceApplied 1)
      (.requestSequenceExhausted clientId)
    rejectIf (sequence ≠ expectedSequence)
      (.requestSequenceGap deduplication.lastSequenceApplied expectedSequence sequence)

/-- Apply a command of the legacy per-client sequence. -/
def applyLegacy (requestId : RequestId) (command : TabletCommand) :
    TabletM TabletCommandApplyOutcome := do
  let key := requestId.deduplicationKey
  let self ← get
  match self.clientDeduplication[key]?.filter (·.lastSequenceApplied = requestId.sequence) with
  | some deduplication => replayOutcome deduplication.cachedOutcome
  | none => do
    checkSequence requestId.clientId requestId.sequence self.clientDeduplication[key]?
    executeAndRetain (retainClient key requestId.sequence) command

/-- Apply one committed command after deterministic target validation. -/
def apply (envelope : TabletCommandEnvelope) : TabletM TabletCommandApplyOutcome := do
  let self ← get
  self.validateProposal envelope
  match envelope.logicalCommandId with
  | some logicalCommandId =>
    applyLogical logicalCommandId envelope.acknowledgedThrough envelope.command
  | none => applyLegacy envelope.requestId envelope.command

end TabletStateMachine

end RagnorDb
