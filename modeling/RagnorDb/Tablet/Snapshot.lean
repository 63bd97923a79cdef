import RagnorDb.Storage.MvccSnapshot
import RagnorDb.Tablet.StateMachine

/-!
# Snapshots of the tablet state machine

The command metadata that accompanies a tablet snapshot: its validation, its protobuf
message, and the capture and restore of a whole tablet.  A message stands for its bytes;
the decoding of an encoded message is the message.
-/

namespace RagnorDb

open Std Checked OrderedMap

inductive TabletStateMachineSnapshotError where
  | unsupportedVersion (version : Nat)
  | zeroTabletId
  | zeroTabletEpoch
  | zeroRaftGroupId
  | requestGroupMismatch (snapshot request : RaftGroupId)
  | zeroRequestSequence
  | missingField (field : String)
  | invalidRequestId (reason : String)
  | duplicateClient (clientId : ClientId)
  | duplicateLogicalCommand (id : LogicalCommandId)
  | invalidLogicalCommandId (reason : String)
  | invalidCachedResult (result : Nat)
  | invalidCachedRejection (kind : Nat)
  | multipleCachedOutcomes
  | zeroRetryHorizonClientId
  | zeroRetryHorizonSessionEpoch
  | invalidRetryHorizonClientId
  | duplicateRetryHorizon (clientId : ClientId) (sessionEpoch : Nat)
  | unspecifiedCachedResult
  | duplicateTxnStatus (txnId : TxnId)
  | txnStatusKeyMismatch (key status : TxnId)
  | txnStatusTabletMismatch (txnId : TxnId) (snapshotTabletId statusTabletId : TabletId)
  | invalidTxnStatus (reason : String)
  deriving DecidableEq

/-! ## Cached outcomes -/

/-- `CachedTabletCommandResult.to_proto`. -/
def TabletCommandApplyResult.toProto : TabletCommandApplyResult → Nat
  | .noop => 1
  | .singleShardCommit => 2
  | .prewrite => 3
  | .commit => 4
  | .rollback => 5
  | .resolveIntent => 6
  | .publishAbortedTransactionStatus => 7
  | .heartbeatTransactionStatus => 8

def TabletCommandApplyResult.fromProto :
    Nat → Except TabletStateMachineSnapshotError TabletCommandApplyResult
  | 0 => .error .unspecifiedCachedResult
  | 1 => .ok .noop
  | 2 => .ok .singleShardCommit
  | 3 => .ok .prewrite
  | 4 => .ok .commit
  | 5 => .ok .rollback
  | 6 => .ok .resolveIntent
  | 7 => .ok .publishAbortedTransactionStatus
  | 8 => .ok .heartbeatTransactionStatus
  | result => .error (.invalidCachedResult result)

def CachedTabletCommandRejectionKind.toProto : CachedTabletCommandRejectionKind → Nat
  | .invalidCommand => 1
  | .writeConflict => 2
  | .unsupportedCommand => 3

def CachedTabletCommandRejectionKind.fromProto :
    Nat → Except TabletStateMachineSnapshotError CachedTabletCommandRejectionKind
  | 1 => .ok .invalidCommand
  | 2 => .ok .writeConflict
  | 3 => .ok .unsupportedCommand
  | kind => .error (.invalidCachedRejection kind)

namespace CachedTabletCommandOutcome

structure RejectionProto where
  kind : Nat
  reason : String

/-- The two fields that hold an outcome in a message. -/
structure Proto where
  cachedResult : Nat
  cachedRejection : Option RejectionProto

def toProto : CachedTabletCommandOutcome → Proto
  | .applied result => ⟨result.toProto, none⟩
  | .rejected rejection => ⟨0, some ⟨rejection.kind.toProto, rejection.reason⟩⟩

def fromProto (proto : Proto) : Except TabletStateMachineSnapshotError CachedTabletCommandOutcome :=
  match proto.cachedRejection with
  | some rejection => do
    rejectIf (proto.cachedResult ≠ 0) .multipleCachedOutcomes
    let kind ← CachedTabletCommandRejectionKind.fromProto rejection.kind
    return .rejected ⟨kind, rejection.reason⟩
  | none => do
    let result ← TabletCommandApplyResult.fromProto proto.cachedResult
    return .applied result

theorem fromProto_toProto (outcome : CachedTabletCommandOutcome) :
    fromProto outcome.toProto = .ok outcome := by
  cases outcome with
  | applied result => cases result <;> rfl
  | rejected rejection =>
    obtain ⟨kind, reason⟩ := rejection
    cases kind <;> rfl

end CachedTabletCommandOutcome

/-! ## The state-machine snapshot -/

def tabletStateMachineSnapshotVersion : Nat := 2

/-- Versioned snapshot of replicated tablet command metadata. -/
structure TabletStateMachineSnapshot where
  formatVersion : Nat
  tabletId : TabletId
  tabletEpoch : Nat
  raftGroupId : RaftGroupId
  clients : ExtTreeMap ClientId ClientDeduplicationState compare
  logicalCommands : ExtTreeMap LogicalCommandId ClientDeduplicationState compare
  logicalClientRetryHorizons : ExtTreeMap SessionKey Nat compare
  transactionStatuses : ExtTreeMap TxnId TxnStatusRecord compare

namespace TabletStateMachineSnapshot

abbrev SnapshotM := Except TabletStateMachineSnapshotError

def validateHorizonKey (session : SessionKey) : SnapshotM Unit := do
  rejectIf (session.clientId = 0) .zeroRetryHorizonClientId
  rejectIf (session.sessionEpoch = 0) .zeroRetryHorizonSessionEpoch

def validateStatus (tabletId : TabletId) (txnId : TxnId) (status : TxnStatusRecord) :
    SnapshotM Unit := do
  status.validate.mapError .invalidTxnStatus
  rejectIf (txnId ≠ status.txnId) (.txnStatusKeyMismatch txnId status.txnId)
  let primaryTabletId ← status.primaryTabletId.mapError .invalidTxnStatus
  rejectIf (primaryTabletId ≠ tabletId)
    (.txnStatusTabletMismatch txnId tabletId primaryTabletId)

def validate (self : TabletStateMachineSnapshot) : SnapshotM Unit := do
  rejectIf (self.formatVersion ≠ tabletStateMachineSnapshotVersion)
    (.unsupportedVersion self.formatVersion)
  rejectIf (self.tabletId = 0) .zeroTabletId
  rejectIf (self.tabletEpoch = 0) .zeroTabletEpoch
  rejectIf (self.raftGroupId = 0) .zeroRaftGroupId
  rejectIf (self.clients.toList.any fun e => e.2.lastSequenceApplied = 0) .zeroRequestSequence
  self.logicalCommands.toList.forM fun e => e.1.validate.mapError .invalidLogicalCommandId
  self.logicalClientRetryHorizons.toList.forM fun e => validateHorizonKey e.1
  self.transactionStatuses.toList.forM fun e => validateStatus self.tabletId e.1 e.2

structure ClientProto where
  lastRequestId : Option RequestIdProto
  outcome : CachedTabletCommandOutcome.Proto

structure LogicalCommandProto where
  logicalCommandId : Option LogicalCommandId.Proto
  outcome : CachedTabletCommandOutcome.Proto

structure RetryHorizonProto where
  clientId : Bytes
  sessionEpoch : Nat
  acknowledgedThrough : Nat

structure Proto where
  formatVersion : Nat
  tabletId : Option TabletId
  tabletEpoch : Nat
  raftGroupId : Option RaftGroupId
  clients : List ClientProto
  logicalCommands : List LogicalCommandProto
  logicalClientRetryHorizons : List RetryHorizonProto
  transactionStatuses : List TxnStatusRecord.Proto

def clientToProto (raftGroupId : RaftGroupId) (e : ClientId × ClientDeduplicationState) :
    ClientProto where
  lastRequestId := some (RequestId.toProto ⟨e.1, e.2.lastSequenceApplied, raftGroupId⟩)
  outcome := e.2.cachedOutcome.toProto

def logicalCommandToProto (e : LogicalCommandId × ClientDeduplicationState) :
    LogicalCommandProto where
  logicalCommandId := some e.1.toProto
  outcome := e.2.cachedOutcome.toProto

def retryHorizonToProto (e : SessionKey × Nat) : RetryHorizonProto where
  clientId := e.1.clientId.toLeBytes
  sessionEpoch := e.1.sessionEpoch
  acknowledgedThrough := e.2

def statusToProto (e : TxnId × TxnStatusRecord) : SnapshotM TxnStatusRecord.Proto :=
  e.2.toProto.mapError .invalidTxnStatus

def toProto (self : TabletStateMachineSnapshot) : SnapshotM Proto := do
  let transactionStatuses ← self.transactionStatuses.toList.mapM statusToProto
  return { formatVersion := self.formatVersion, tabletId := some self.tabletId,
           tabletEpoch := self.tabletEpoch, raftGroupId := some self.raftGroupId,
           clients := self.clients.toList.map (clientToProto self.raftGroupId),
           logicalCommands := self.logicalCommands.toList.map logicalCommandToProto,
           logicalClientRetryHorizons :=
             self.logicalClientRetryHorizons.toList.map retryHorizonToProto,
           transactionStatuses }

def clientFromProto (raftGroupId : RaftGroupId) (proto : ClientProto) :
    SnapshotM (ClientId × ClientDeduplicationState) := do
  let request ← okOr proto.lastRequestId (.missingField "clients.last_request_id")
  let requestId ← (RequestId.fromProto request).mapError .invalidRequestId
  let cachedOutcome ← CachedTabletCommandOutcome.fromProto proto.outcome
  rejectIf (requestId.raftGroupId ≠ raftGroupId)
    (.requestGroupMismatch raftGroupId requestId.raftGroupId)
  return (requestId.clientId, ⟨requestId.sequence, cachedOutcome⟩)

def logicalCommandFromProto (proto : LogicalCommandProto) :
    SnapshotM (LogicalCommandId × ClientDeduplicationState) := do
  let id ← okOr proto.logicalCommandId (.missingField "logical_commands.logical_command_id")
  let logicalCommandId ← (LogicalCommandId.fromProto id).mapError .invalidLogicalCommandId
  let cachedOutcome ← CachedTabletCommandOutcome.fromProto proto.outcome
  return (logicalCommandId, ⟨1, cachedOutcome⟩)

def retryHorizonFromProto (proto : RetryHorizonProto) : SnapshotM (SessionKey × Nat) := do
  rejectIf (proto.clientId.length ≠ 16) .invalidRetryHorizonClientId
  let session : SessionKey := ⟨.fromLeBytes proto.clientId, proto.sessionEpoch⟩
  validateHorizonKey session
  return (session, proto.acknowledgedThrough)

def statusFromProto (proto : TxnStatusRecord.Proto) : SnapshotM (TxnId × TxnStatusRecord) := do
  let status ← (TxnStatusRecord.fromProto proto).mapError .invalidTxnStatus
  return (status.txnId, status)

def fromProto (proto : Proto) : SnapshotM TabletStateMachineSnapshot := do
  let tabletId ← okOr proto.tabletId (.missingField "tablet_id")
  let raftGroupId ← okOr proto.raftGroupId (.missingField "raft_group_id")
  let clients ← collect (clientFromProto raftGroupId)
    (fun (m : ExtTreeMap ClientId ClientDeduplicationState compare) e => m.contains e.1)
    (fun m e => m.insert e.1 e.2) (fun e => .duplicateClient e.1) proto.clients ∅
  let logicalCommands ← collect logicalCommandFromProto
    (fun (m : ExtTreeMap LogicalCommandId ClientDeduplicationState compare) e => m.contains e.1)
    (fun m e => m.insert e.1 e.2) (fun e => .duplicateLogicalCommand e.1) proto.logicalCommands ∅
  let logicalClientRetryHorizons ← collect retryHorizonFromProto
    (fun (m : ExtTreeMap SessionKey Nat compare) e => m.contains e.1)
    (fun m e => m.insert e.1 e.2)
    (fun e => .duplicateRetryHorizon e.1.clientId e.1.sessionEpoch)
    proto.logicalClientRetryHorizons ∅
  let transactionStatuses ← collect statusFromProto
    (fun (m : ExtTreeMap TxnId TxnStatusRecord compare) e => m.contains e.1)
    (fun m e => m.insert e.1 e.2) (fun e => .duplicateTxnStatus e.1) proto.transactionStatuses ∅
  let snapshot : TabletStateMachineSnapshot :=
    { formatVersion := proto.formatVersion, tabletId, tabletEpoch := proto.tabletEpoch,
      raftGroupId, clients, logicalCommands, logicalClientRetryHorizons, transactionStatuses }
  snapshot.validate
  return snapshot

/-- The checked constructor. -/
def new (tabletId : TabletId) (tabletEpoch : Nat) (raftGroupId : RaftGroupId)
    (clients : ExtTreeMap ClientId ClientDeduplicationState compare)
    (logicalCommands : ExtTreeMap LogicalCommandId ClientDeduplicationState compare)
    (logicalClientRetryHorizons : ExtTreeMap SessionKey Nat compare)
    (transactionStatuses : ExtTreeMap TxnId TxnStatusRecord compare) :
    SnapshotM TabletStateMachineSnapshot := do
  let snapshot : TabletStateMachineSnapshot :=
    { formatVersion := tabletStateMachineSnapshotVersion, tabletId, tabletEpoch, raftGroupId,
      clients, logicalCommands, logicalClientRetryHorizons, transactionStatuses }
  snapshot.validate
  return snapshot

def encode (self : TabletStateMachineSnapshot) : SnapshotM Proto := do
  self.validate
  self.toProto

/-! Each part of a valid snapshot decodes to what it was encoded from. -/

theorem clientFromProto_toProto (raftGroupId : RaftGroupId)
    (e : ClientId × ClientDeduplicationState) :
    clientFromProto raftGroupId (clientToProto raftGroupId e) = .ok e := by
  simp [clientFromProto, clientToProto, okOr, RequestId.fromProto_toProto, Except.mapError,
    CachedTabletCommandOutcome.fromProto_toProto, rejectIf]

theorem logicalCommandFromProto_toProto {e : LogicalCommandId × ClientDeduplicationState}
    (hid : e.1.validate = .ok ()) (hone : e.2.lastSequenceApplied = 1) :
    logicalCommandFromProto (logicalCommandToProto e) = .ok e := by
  simp [logicalCommandFromProto, logicalCommandToProto, okOr,
    LogicalCommandId.fromProto_toProto hid, Except.mapError,
    CachedTabletCommandOutcome.fromProto_toProto, ← hone]

theorem retryHorizonFromProto_toProto {e : SessionKey × Nat} (h : validateHorizonKey e.1 = .ok ()) :
    retryHorizonFromProto (retryHorizonToProto e) = .ok e := by
  simp [retryHorizonFromProto, retryHorizonToProto, rejectIf, h]

theorem exists_statusToProto {tabletId : TabletId} {e : TxnId × TxnStatusRecord}
    (h : validateStatus tabletId e.1 e.2 = .ok ()) :
    ∃ proto, statusToProto e = .ok proto ∧ statusFromProto proto = .ok e := by
  simp only [validateStatus, eq_ok'] at h
  obtain ⟨⟨⟩, hvalid, hkey, -⟩ := h
  obtain ⟨proto, hproto, hback⟩ := TxnStatusRecord.exists_toProto hvalid
  refine ⟨proto, by simp [statusToProto, hproto, Except.mapError], ?_⟩
  simp [statusFromProto, hback, Except.mapError, ← hkey]

/-- The image of a valid snapshot decodes to it. -/
theorem exists_encode {self : TabletStateMachineSnapshot} (h : self.validate = .ok ())
    (hone : ∀ e ∈ self.logicalCommands.toList, e.2.lastSequenceApplied = 1) :
    ∃ proto, self.encode = .ok proto ∧ fromProto proto = .ok self := by
  have hparts := h
  simp only [validate, eq_ok', forM_eq_ok] at hparts
  obtain ⟨-, -, -, -, -, hids, hhorizons, hstatuses⟩ := hparts
  obtain ⟨statuses, hstatuses, hstatuses'⟩ :=
    exists_mapM_of_inverse fun e he => exists_statusToProto (hstatuses e he)
  have hclients : List.Forall₂ (fun x e => clientFromProto self.raftGroupId x = .ok e)
      (self.clients.toList.map (clientToProto self.raftGroupId)) self.clients.toList := by
    rw [List.forall₂_map_left_iff, List.forall₂_same]
    exact fun e _ => clientFromProto_toProto _ e
  have hlogical : List.Forall₂ (fun x e => logicalCommandFromProto x = .ok e)
      (self.logicalCommands.toList.map logicalCommandToProto) self.logicalCommands.toList := by
    rw [List.forall₂_map_left_iff, List.forall₂_same]
    exact fun e he => logicalCommandFromProto_toProto (hids e he) (hone e he)
  have hhorizon : List.Forall₂ (fun x e => retryHorizonFromProto x = .ok e)
      (self.logicalClientRetryHorizons.toList.map retryHorizonToProto)
      self.logicalClientRetryHorizons.toList := by
    rw [List.forall₂_map_left_iff, List.forall₂_same]
    exact fun e he => retryHorizonFromProto_toProto (hhorizons e he)
  refine ⟨_, by rw [encode, h, ok_bind, toProto, hstatuses, ok_bind]; rfl, ?_⟩
  simp only [fromProto, okOr, ok_bind, collect_toList hclients, collect_toList hlogical,
    collect_toList hhorizon, collect_toList hstatuses']
  rw [h]
  rfl

end TabletStateMachineSnapshot

/-! ## Capture and restore -/

inductive TabletStateMachineRestoreError where
  | tabletIdMismatch (localTabletId snapshotTabletId : TabletId)
  | invalidSnapshot (error : TabletStateMachineSnapshotError)
  deriving DecidableEq

namespace TabletStateMachine

/-- Encode replicated command metadata that must accompany a tablet snapshot. -/
def encodeSnapshotState (self : TabletStateMachine) :
    Except TabletStateMachineSnapshotError TabletStateMachineSnapshot.Proto := do
  let snapshot ← TabletStateMachineSnapshot.new self.tablet.id self.epoch self.raftGroupId
    (rekey compare ClientDeduplicationKey.clientId self.clientDeduplication)
    self.logicalCommandDeduplication self.logicalClientRetryHorizons self.transactionStatuses
  snapshot.encode

def validateRestoredStatus (tableId : TableId) (status : TxnStatusRecord) :
    Except TabletStateMachineRestoreError Unit := do
  let primaryRowKey ← (decodeRowKey status.primaryKey).mapError fun _ =>
    .invalidSnapshot (.invalidTxnStatus "transaction primary key is not a valid encoded row key")
  rejectIf (primaryRowKey.tableId ≠ tableId)
    (.invalidSnapshot (.invalidTxnStatus "transaction primary key belongs to a different table"))

/-- Restore replicated command metadata before applying any later entry. -/
def restoreFromSnapshot (tablet : Tablet) (proto : TabletStateMachineSnapshot.Proto) :
    Except TabletStateMachineRestoreError TabletStateMachine := do
  let snapshot ← (TabletStateMachineSnapshot.fromProto proto).mapError .invalidSnapshot
  rejectIf (snapshot.tabletId ≠ tablet.id) (.tabletIdMismatch tablet.id snapshot.tabletId)
  snapshot.transactionStatuses.toList.forM fun e => validateRestoredStatus tablet.tableId e.2
  return { tablet, epoch := snapshot.tabletEpoch, raftGroupId := snapshot.raftGroupId,
           clientDeduplication := rekey compare
             (fun clientId => ⟨clientId, snapshot.raftGroupId⟩) snapshot.clients,
           logicalCommandDeduplication := snapshot.logicalCommands,
           logicalClientRetryHorizons := snapshot.logicalClientRetryHorizons,
           transactionStatuses := snapshot.transactionStatuses }

end TabletStateMachine

/-! ## The snapshot payload -/

def tabletSnapshotPayloadVersion : Nat := 1

structure TabletSnapshotPayload where
  formatVersion : Nat
  tableId : Option TableId
  tabletStateMachine : TabletStateMachineSnapshot.Proto
  mvcc : CapturedMvccState

/-- The source reports both as text, under the first name. -/
inductive TabletSnapshotGenerationError where
  | stateMachineSnapshot (error : TabletStateMachineSnapshotError)
  | mvccSnapshot (error : Error)

/-- The payload of `generate_local_snapshot`: the command metadata and the MVCC entries of
one state. -/
def TabletStateMachine.generateLocalSnapshot (self : TabletStateMachine) :
    Except TabletSnapshotGenerationError TabletSnapshotPayload := do
  let tabletStateMachine ← self.encodeSnapshotState.mapError .stateMachineSnapshot
  let mvcc ← self.tablet.storage.captureSnapshotState.mapError .mvccSnapshot
  return { formatVersion := tabletSnapshotPayloadVersion, tableId := some self.tablet.tableId,
           tabletStateMachine, mvcc }

/-- The replica that a snapshot is installed on. -/
structure TabletSnapshotInstallTarget where
  raftGroupId : RaftGroupId
  tabletId : TabletId
  tableId : TableId
  tabletEpoch : Nat

inductive TabletSnapshotInstallError where
  | unsupportedPayloadVersion (version : Nat)
  | missingPayloadTableId
  | tableMismatch (expected received : TableId)
  | stateMachineDecode (error : TabletStateMachineSnapshotError)
  | stateMachineIdentityMismatch
  | mvccRestore (error : Error)
  | tabletRestore (error : Error)
  | stateMachineRestore (error : TabletStateMachineRestoreError)

/-- Restore a tablet from the payload of a verified snapshot. -/
def restoreVerifiedSnapshot (payload : TabletSnapshotPayload)
    (target : TabletSnapshotInstallTarget) :
    Except TabletSnapshotInstallError TabletStateMachine := do
  rejectIf (payload.formatVersion ≠ tabletSnapshotPayloadVersion)
    (.unsupportedPayloadVersion payload.formatVersion)
  let payloadTableId ← okOr payload.tableId .missingPayloadTableId
  rejectIf (payloadTableId ≠ target.tableId) (.tableMismatch target.tableId payloadTableId)
  let snapshot ← (TabletStateMachineSnapshot.fromProto payload.tabletStateMachine).mapError
    .stateMachineDecode
  rejectIf (snapshot.tabletId ≠ target.tabletId ∨ snapshot.raftGroupId ≠ target.raftGroupId ∨
      snapshot.tabletEpoch ≠ target.tabletEpoch) .stateMachineIdentityMismatch
  let storage ← (InMemoryMvcc.restoreFromSnapshotEntries target.tableId payload.mvcc.defaultValues
    payload.mvcc.locks payload.mvcc.writes).mapError .mvccRestore
  let tablet ← (Tablet.withStorage target.tabletId target.tableId storage).mapError .tabletRestore
  (TabletStateMachine.restoreFromSnapshot tablet payload.tabletStateMachine).mapError
    .stateMachineRestore

end RagnorDb
