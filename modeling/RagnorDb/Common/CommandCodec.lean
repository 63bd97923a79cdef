import RagnorDb.Common.CommandValid
import RagnorDb.Lib.Codes

/-!
# Protobuf codec of tablet commands

The conversions of `command_codec.rs` between commands and their protobuf messages, and the two
envelopes that are written as bytes: one command alone, and a bounded batch.  The wire format is
`prost`'s; here it is any format whose decoder inverts its encoder.  A message with one `u64` field
is the number itself, and a field of an enum type holds its number.
-/

namespace RagnorDb

open Std Checked

/-- `prost::Message`. -/
class Message (M : Type) where
  encodeToVec : M → Bytes
  decode : Bytes → Except String M
  decode_encodeToVec : ∀ message, decode (encodeToVec message) = .ok message

/-! ## Rows -/

namespace Value

inductive Kind where
  | intValue (value : Int)
  | textValue (value : String)
  | boolValue (value : Bool)
  | nullValue (number : Nat)

structure Proto where
  kind : Option Kind

def toProto : Value → Proto
  | .int value => ⟨some (.intValue value)⟩
  | .text value => ⟨some (.textValue value)⟩
  | .bool value => ⟨some (.boolValue value)⟩
  | .null => ⟨some (.nullValue 0)⟩

def fromProto (proto : Proto) : Except String Value :=
  match proto.kind with
  | some (.intValue value) => .ok (.int value)
  | some (.textValue value) => .ok (.text value)
  | some (.boolValue value) => .ok (.bool value)
  | some (.nullValue _) => .ok .null
  | none => .error "missing value kind"

theorem fromProto_toProto (self : Value) : fromProto self.toProto = .ok self := by
  cases self <;> rfl

end Value

namespace Row

structure Proto where
  values : List Value.Proto

def toProto (self : Row) : Proto :=
  ⟨self.values.map Value.toProto⟩

def fromProto (proto : Proto) : Except String Row := do
  let values ← proto.values.mapM Value.fromProto
  return { values }

theorem fromProto_toProto (self : Row) : fromProto self.toProto = .ok self := by
  have hvalues : (self.values.map Value.toProto).mapM Value.fromProto = .ok self.values := by
    rw [mapM_eq_ok, List.forall₂_map_left_iff, List.forall₂_same]
    exact fun value _ => value.fromProto_toProto
  simp [fromProto, toProto, hvalues]

end Row

namespace WriteEntry

structure Proto where
  key : Bytes
  op : Nat
  row : Option Row.Proto

def toProto (self : WriteEntry) : Except String Proto := do
  validateCommandMutation self.op self.row
  return { key := self.key, op := self.op.toProto, row := self.row.map Row.toProto }

def fromProto (proto : Proto) : Except String WriteEntry := do
  rejectIf (3 < proto.op) "invalid op"
  let op ← WriteKind.fromProto proto.op
  let row ← proto.row.mapM Row.fromProto
  validateCommandMutation op row
  return { key := proto.key, row, op }

theorem exists_toProto {self : WriteEntry} (h : self.Complete) :
    ∃ proto, self.toProto = .ok proto ∧ fromProto proto = .ok self := by
  have hvalid : validateCommandMutation self.op self.row = .ok () :=
    validateCommandMutation_eq_ok.mpr h
  have hop : ¬3 < self.op.toProto := by
    cases self.op <;> decide
  have hrow : (self.row.map Row.toProto).mapM Row.fromProto = .ok self.row := by
    cases self.row with
    | none => rfl
    | some => simp [Row.fromProto_toProto]
  refine ⟨_, by rw [toProto, hvalid]; rfl, ?_⟩
  simp only [fromProto, rejectIf, hop, ↓reduceIte, ok_bind, WriteKind.fromProto_toProto, hrow,
    hvalid]
  rfl

theorem exists_mapM_toProto {writes : List WriteEntry} (h : ∀ write ∈ writes, write.Complete) :
    ∃ protos, writes.mapM toProto = .ok protos ∧ protos.mapM fromProto = .ok writes :=
  exists_listMapM fun write hwrite => exists_toProto (h write hwrite)

end WriteEntry

theorem TxnStatusRecord.exists_mapM_toProto {o : Option TxnStatusRecord}
    (h : ∀ status ∈ o, status.validate = .ok ()) :
    ∃ proto, o.mapM TxnStatusRecord.toProto = .ok proto ∧
      proto.mapM TxnStatusRecord.fromProto = .ok o :=
  exists_optionMapM fun status hstatus => TxnStatusRecord.exists_toProto (h status hstatus)

/-! ## Commands -/

namespace PrewriteCommand

structure Proto where
  txnId : Option TxnId
  startTimestamp : Option Timestamp
  primaryKey : Bytes
  ttlMs : Nat
  writes : List WriteEntry.Proto
  pendingStatus : Option TxnStatusRecord.Proto

def toProto (self : PrewriteCommand) : Except String Proto := do
  self.validate
  let writes ← self.writes.mapM WriteEntry.toProto
  let pendingStatus ← self.pendingStatus.mapM TxnStatusRecord.toProto
  return { txnId := some self.txnId, startTimestamp := some self.startTimestamp,
           primaryKey := self.primaryKey, ttlMs := self.ttlMs, writes, pendingStatus }

def fromProto (proto : Proto) : Except String PrewriteCommand := do
  let txnId ← okOr proto.txnId "missing txn_id"
  let startTimestamp ← okOr proto.startTimestamp "missing start_timestamp"
  let writes ← proto.writes.mapM WriteEntry.fromProto
  let pendingStatus ← proto.pendingStatus.mapM TxnStatusRecord.fromProto
  let command : PrewriteCommand :=
    { txnId, startTimestamp, writes, primaryKey := proto.primaryKey, ttlMs := proto.ttlMs,
      pendingStatus }
  command.validate
  return command

theorem codes (self : PrewriteCommand) : Codes self.validate self.toProto fromProto self := by
  refine Codes.of_check fun hvalid => ?_
  have hformed := TabletCommand.wellFormed_prewrite hvalid
  have hcomplete : ∀ write ∈ self.writes, write.Complete := hformed.complete
  obtain ⟨writes, hwrites, hback⟩ := WriteEntry.exists_mapM_toProto hcomplete
  obtain ⟨status, hstatus, hstatusBack⟩ := TxnStatusRecord.exists_mapM_toProto
    fun status hmem => hformed.statusValid status (Option.mem_toList.mpr hmem)
  refine ⟨_, by rw [hwrites, ok_bind, hstatus]; rfl, ?_⟩
  simp only [fromProto, okOr, ok_bind, hback, hstatusBack, hvalid]
  rfl

end PrewriteCommand

namespace CommitCommand

structure Proto where
  txnId : Option TxnId
  startTimestamp : Option Timestamp
  commitTimestamp : Option Timestamp
  keys : List Bytes
  committedStatus : Option TxnStatusRecord.Proto

def toProto (self : CommitCommand) : Except String Proto := do
  self.validate
  let committedStatus ← self.committedStatus.mapM TxnStatusRecord.toProto
  return { txnId := some self.txnId, startTimestamp := some self.startTimestamp,
           commitTimestamp := some self.commitTimestamp, keys := self.keys, committedStatus }

def fromProto (proto : Proto) : Except String CommitCommand := do
  let txnId ← okOr proto.txnId "missing txn_id"
  let startTimestamp ← okOr proto.startTimestamp "missing start_timestamp"
  let commitTimestamp ← okOr proto.commitTimestamp "missing commit_timestamp"
  let committedStatus ← proto.committedStatus.mapM TxnStatusRecord.fromProto
  let command : CommitCommand :=
    { txnId, startTimestamp, commitTimestamp, keys := proto.keys, committedStatus }
  command.validate
  return command

theorem codes (self : CommitCommand) : Codes self.validate self.toProto fromProto self := by
  refine Codes.of_check fun hvalid => ?_
  have hformed := TabletCommand.wellFormed_commit hvalid
  obtain ⟨status, hstatus, hstatusBack⟩ := TxnStatusRecord.exists_mapM_toProto
    fun status hmem => hformed.statusValid status (Option.mem_toList.mpr hmem)
  refine ⟨_, by rw [hstatus]; rfl, ?_⟩
  simp only [fromProto, okOr, ok_bind, hstatusBack, hvalid]
  rfl

end CommitCommand

namespace PublishAbortedTransactionStatus

structure Proto where
  statusRecord : Option TxnStatusRecord.Proto

def toProto (self : PublishAbortedTransactionStatus) : Except String Proto := do
  self.validate
  let statusRecord ← self.statusRecord.toProto
  return { statusRecord := some statusRecord }

def fromProto (proto : Proto) : Except String PublishAbortedTransactionStatus := do
  let statusRecord ← TxnStatusRecord.fromProto (← okOr proto.statusRecord "missing status_record")
  let command : PublishAbortedTransactionStatus := { statusRecord }
  command.validate
  return command

theorem codes (self : PublishAbortedTransactionStatus) :
    Codes self.validate self.toProto fromProto self := by
  refine Codes.of_check fun hvalid => ?_
  have hformed := TabletCommand.wellFormed_publishAborted hvalid
  obtain ⟨status, hstatus, hback⟩ :=
    TxnStatusRecord.exists_toProto (hformed.statusValid self.statusRecord (.head _))
  refine ⟨_, by rw [hstatus]; rfl, ?_⟩
  simp only [fromProto, okOr, ok_bind, hback, hvalid]
  rfl

end PublishAbortedTransactionStatus

namespace HeartbeatTransactionStatus

structure Proto where
  expectedStatus : Option TxnStatusRecord.Proto
  nextStatus : Option TxnStatusRecord.Proto
  nowMs : Nat

def toProto (self : HeartbeatTransactionStatus) : Except String Proto := do
  self.validate
  let expectedStatus ← self.expectedStatus.toProto
  let nextStatus ← self.nextStatus.toProto
  return { expectedStatus := some expectedStatus, nextStatus := some nextStatus,
           nowMs := self.nowMs }

def fromProto (proto : Proto) : Except String HeartbeatTransactionStatus := do
  let expectedStatus ←
    TxnStatusRecord.fromProto (← okOr proto.expectedStatus "missing expected_status")
  let nextStatus ← TxnStatusRecord.fromProto (← okOr proto.nextStatus "missing next_status")
  let heartbeat : HeartbeatTransactionStatus :=
    { expectedStatus, nextStatus, nowMs := proto.nowMs }
  heartbeat.validate
  return heartbeat

theorem codes (self : HeartbeatTransactionStatus) :
    Codes self.validate self.toProto fromProto self := by
  refine Codes.of_check fun hvalid => ?_
  have hformed := TabletCommand.wellFormed_heartbeat hvalid
  obtain ⟨expected, hexpected, hexpectedBack⟩ :=
    TxnStatusRecord.exists_toProto (hformed.statusValid self.expectedStatus (.head _))
  obtain ⟨next, hnext, hnextBack⟩ :=
    TxnStatusRecord.exists_toProto (hformed.statusValid self.nextStatus (.tail _ (.head _)))
  refine ⟨_, by rw [hexpected, ok_bind, hnext]; rfl, ?_⟩
  simp only [fromProto, okOr, ok_bind, hexpectedBack, hnextBack, hvalid]
  rfl

end HeartbeatTransactionStatus

namespace ExpirePendingTransactionStatus

structure Proto where
  expectedStatus : Option TxnStatusRecord.Proto
  nowMs : Nat

def toProto (self : ExpirePendingTransactionStatus) : Except String Proto := do
  self.validate
  let expectedStatus ← self.expectedStatus.toProto
  return { expectedStatus := some expectedStatus, nowMs := self.nowMs }

def fromProto (proto : Proto) : Except String ExpirePendingTransactionStatus := do
  let expectedStatus ←
    TxnStatusRecord.fromProto (← okOr proto.expectedStatus "missing expected_status")
  let expiry : ExpirePendingTransactionStatus := { expectedStatus, nowMs := proto.nowMs }
  expiry.validate
  return expiry

theorem codes (self : ExpirePendingTransactionStatus) :
    Codes self.validate self.toProto fromProto self := by
  refine Codes.of_check fun hvalid => ?_
  have hformed := TabletCommand.wellFormed_expirePending hvalid
  obtain ⟨status, hstatus, hback⟩ :=
    TxnStatusRecord.exists_toProto (hformed.statusValid self.expectedStatus (.head _))
  refine ⟨_, by rw [hstatus]; rfl, ?_⟩
  simp only [fromProto, okOr, ok_bind, hback, hvalid]
  rfl

end ExpirePendingTransactionStatus

namespace RollbackCommand

structure Proto where
  txnId : Option TxnId
  startTimestamp : Option Timestamp
  keys : List Bytes

def toProto (self : RollbackCommand) : Except String Proto := do
  self.validate
  return { txnId := some self.txnId, startTimestamp := some self.startTimestamp,
           keys := self.keys }

def fromProto (proto : Proto) : Except String RollbackCommand := do
  let txnId ← okOr proto.txnId "missing txn_id"
  let startTimestamp ← okOr proto.startTimestamp "missing start_timestamp"
  let command : RollbackCommand := { txnId, startTimestamp, keys := proto.keys }
  command.validate
  return command

theorem codes (self : RollbackCommand) : Codes self.validate self.toProto fromProto self := by
  refine Codes.of_check fun hvalid => ⟨_, rfl, ?_⟩
  simp only [fromProto, okOr, ok_bind, hvalid]
  rfl

end RollbackCommand

namespace SingleShardCommitCommand

structure Proto where
  txnId : Option TxnId
  startTimestamp : Option Timestamp
  commitTimestamp : Option Timestamp
  writes : List WriteEntry.Proto

def toProto (self : SingleShardCommitCommand) : Except String Proto := do
  self.validate
  let writes ← self.writes.mapM WriteEntry.toProto
  return { txnId := some self.txnId, startTimestamp := some self.startTimestamp,
           commitTimestamp := some self.commitTimestamp, writes }

/-- Only the writes are checked here. -/
def fromProto (proto : Proto) : Except String SingleShardCommitCommand := do
  let writes ← proto.writes.mapM WriteEntry.fromProto
  let txnId ← okOr proto.txnId "missing txn_id"
  let startTimestamp ← okOr proto.startTimestamp "missing start_timestamp"
  let commitTimestamp ← okOr proto.commitTimestamp "missing commit_timestamp"
  return { txnId, startTimestamp, commitTimestamp, writes }

theorem codes (self : SingleShardCommitCommand) :
    Codes self.validate self.toProto fromProto self := by
  refine Codes.of_check fun hvalid => ?_
  have hformed := TabletCommand.wellFormed_singleShardCommit hvalid
  have hcomplete : ∀ write ∈ self.writes, write.Complete := hformed.complete
  obtain ⟨writes, hwrites, hback⟩ := WriteEntry.exists_mapM_toProto hcomplete
  refine ⟨_, by rw [hwrites]; rfl, ?_⟩
  simp only [fromProto, okOr, ok_bind, hback]
  rfl

end SingleShardCommitCommand

namespace ResolveIntentCommand

structure Proto where
  txnId : Option TxnId
  startTimestamp : Option Timestamp
  keys : List Bytes
  resolvedStatus : Nat
  commitTimestamp : Option Timestamp

def toProto (self : ResolveIntentCommand) : Except String Proto := do
  self.validate
  return { txnId := some self.txnId, startTimestamp := some self.startTimestamp,
           keys := self.keys, resolvedStatus := self.resolvedStatus.toProto,
           commitTimestamp := self.commitTimestamp }

/-- Neither the transaction identity nor the keys are checked here. -/
def fromProto (proto : Proto) : Except String ResolveIntentCommand := do
  rejectIf (3 < proto.resolvedStatus) "invalid resolved status"
  let resolvedStatus ← TxnStatus.fromProto proto.resolvedStatus
  let startTimestamp ← okOr proto.startTimestamp "missing start_timestamp"
  validateResolvedStatus resolvedStatus startTimestamp proto.commitTimestamp
  let txnId ← okOr proto.txnId "missing txn_id"
  return { txnId, startTimestamp, keys := proto.keys, resolvedStatus,
           commitTimestamp := proto.commitTimestamp }

theorem codes (self : ResolveIntentCommand) : Codes self.validate self.toProto fromProto self := by
  refine Codes.of_check fun hvalid => ⟨_, rfl, ?_⟩
  obtain ⟨_, -, hrest⟩ := bind_eq_ok.mp hvalid
  obtain ⟨_, -, hresolved⟩ := bind_eq_ok.mp hrest
  have hstatus : ¬3 < self.resolvedStatus.toProto := by
    cases self.resolvedStatus <;> decide
  simp only [fromProto, rejectIf, hstatus, ↓reduceIte, ok_bind, TxnStatus.fromProto_toProto, okOr,
    hresolved]
  rfl

end ResolveIntentCommand

/-! ## Catalog commands -/

namespace DataType

def toProto : DataType → Nat
  | int => 1
  | text => 2
  | bool => 3

def fromProto : Nat → Except String DataType
  | 0 => .error "unspecified data type"
  | 1 => .ok int
  | 2 => .ok text
  | 3 => .ok bool
  | _ => .error "invalid enum"

theorem fromProto_toProto (self : DataType) : fromProto self.toProto = .ok self := by
  cases self <;> rfl

end DataType

namespace ColumnDefinition

structure Proto where
  columnId : ColumnId
  name : String
  type : Nat
  nullable : Bool

def toProto (self : ColumnDefinition) : Proto :=
  ⟨self.columnId, self.name, self.ty.toProto, self.nullable⟩

def fromProto (proto : Proto) : Except String ColumnDefinition := do
  let ty ← DataType.fromProto proto.type
  return { columnId := proto.columnId, name := proto.name, ty, nullable := proto.nullable }

theorem fromProto_toProto (self : ColumnDefinition) : fromProto self.toProto = .ok self := by
  simp [fromProto, toProto, DataType.fromProto_toProto]

end ColumnDefinition

namespace TableDefinition

structure Proto where
  tableId : Nat
  name : String
  columns : List ColumnDefinition.Proto
  primaryKeyColumnIds : List ColumnId
  schemaVersion : Nat
  tabletCount : Nat

def toProto (self : TableDefinition) : Proto where
  tableId := self.tableId
  name := self.name
  columns := self.columns.map ColumnDefinition.toProto
  primaryKeyColumnIds := self.primaryKeyColumnIds
  schemaVersion := self.schemaVersion
  tabletCount := self.tabletCount

def fromProto (proto : Proto) : Except String TableDefinition := do
  let columns ← proto.columns.mapM ColumnDefinition.fromProto
  return { tableId := proto.tableId, name := proto.name, columns,
           primaryKeyColumnIds := proto.primaryKeyColumnIds,
           schemaVersion := proto.schemaVersion, tabletCount := proto.tabletCount }

theorem fromProto_toProto (self : TableDefinition) : fromProto self.toProto = .ok self := by
  have hcolumns : (self.columns.map ColumnDefinition.toProto).mapM ColumnDefinition.fromProto =
      .ok self.columns := by
    rw [mapM_eq_ok, List.forall₂_map_left_iff, List.forall₂_same]
    exact fun column _ => column.fromProto_toProto
  simp [fromProto, toProto, hcolumns]

end TableDefinition

namespace CatalogCommand

structure CreateTableProto where
  tableDefinition : Option TableDefinition.Proto

inductive OperationProto where
  | createTable (operation : CreateTableProto)

structure Proto where
  operation : Option OperationProto

def toProto (self : CatalogCommand) : Proto :=
  match self.operation with
  | .createTable operation => ⟨some (.createTable ⟨some operation.tableDef.toProto⟩)⟩

def fromProto (proto : Proto) : Except String CatalogCommand :=
  match proto.operation with
  | some (.createTable operation) => do
    let tableDef ←
      TableDefinition.fromProto (← okOr operation.tableDefinition "missing table_definition")
    return { operation := .createTable { tableDef } }
  | none => .error "missing catalog operation"

theorem fromProto_toProto (self : CatalogCommand) : fromProto self.toProto = .ok self := by
  simp [fromProto, toProto, okOr, TableDefinition.fromProto_toProto]

end CatalogCommand

namespace TabletCommand

inductive Kind where
  | prewrite (command : PrewriteCommand.Proto)
  | commit (command : CommitCommand.Proto)
  | rollback (command : RollbackCommand.Proto)
  | singleShardCommit (command : SingleShardCommitCommand.Proto)
  | resolveIntent (command : ResolveIntentCommand.Proto)
  | catalogUpdate (command : CatalogCommand.Proto)
  | noop
  | publishAbortedTransactionStatus (command : PublishAbortedTransactionStatus.Proto)
  | heartbeatTransactionStatus (command : HeartbeatTransactionStatus.Proto)
  | expirePendingTransactionStatus (command : ExpirePendingTransactionStatus.Proto)

structure Proto where
  command : Option Kind

def toProto : TabletCommand → Except String Proto
  | .prewrite command => command.toProto.map fun proto => ⟨some (.prewrite proto)⟩
  | .commit command => command.toProto.map fun proto => ⟨some (.commit proto)⟩
  | .rollback command => command.toProto.map fun proto => ⟨some (.rollback proto)⟩
  | .singleShardCommit command => command.toProto.map fun proto => ⟨some (.singleShardCommit proto)⟩
  | .resolveIntent command => command.toProto.map fun proto => ⟨some (.resolveIntent proto)⟩
  | .catalog command => .ok ⟨some (.catalogUpdate command.toProto)⟩
  | .noop => .ok ⟨some .noop⟩
  | .publishAbortedTransactionStatus command =>
    command.toProto.map fun proto => ⟨some (.publishAbortedTransactionStatus proto)⟩
  | .heartbeatTransactionStatus command =>
    command.toProto.map fun proto => ⟨some (.heartbeatTransactionStatus proto)⟩
  | .expirePendingTransactionStatus command =>
    command.toProto.map fun proto => ⟨some (.expirePendingTransactionStatus proto)⟩

def fromProto (proto : Proto) : Except String TabletCommand :=
  match proto.command with
  | some (.prewrite proto) => (PrewriteCommand.fromProto proto).map .prewrite
  | some (.commit proto) => (CommitCommand.fromProto proto).map .commit
  | some (.rollback proto) => (RollbackCommand.fromProto proto).map .rollback
  | some (.singleShardCommit proto) =>
    (SingleShardCommitCommand.fromProto proto).map .singleShardCommit
  | some (.resolveIntent proto) => (ResolveIntentCommand.fromProto proto).map .resolveIntent
  | some (.catalogUpdate proto) => (CatalogCommand.fromProto proto).map .catalog
  | some .noop => .ok .noop
  | some (.publishAbortedTransactionStatus proto) =>
    (PublishAbortedTransactionStatus.fromProto proto).map .publishAbortedTransactionStatus
  | some (.heartbeatTransactionStatus proto) =>
    (HeartbeatTransactionStatus.fromProto proto).map .heartbeatTransactionStatus
  | some (.expirePendingTransactionStatus proto) =>
    (ExpirePendingTransactionStatus.fromProto proto).map .expirePendingTransactionStatus
  | none => .error "missing tablet command"

theorem codes (self : TabletCommand) : Codes self.validate self.toProto fromProto self := by
  cases self with
  | prewrite command | commit command | rollback command | singleShardCommit command
  | resolveIntent command => exact command.codes.map fun _ => rfl
  | catalog command =>
    refine ⟨_, rfl, ?_⟩
    simp only [fromProto, command.fromProto_toProto]
    rfl
  | noop => exact ⟨_, rfl, rfl⟩
  | publishAbortedTransactionStatus command | heartbeatTransactionStatus command
  | expirePendingTransactionStatus command => exact command.codes.map fun _ => rfl

end TabletCommand

/-! ## Envelopes -/

namespace TabletCommandEnvelope

variable {self : TabletCommandEnvelope}

structure Proto where
  formatVersion : Nat
  requestId : Option RequestIdProto
  tabletId : Option TabletId
  expectedEpoch : Nat
  command : Option TabletCommand.Proto
  logicalCommandId : Option LogicalCommandId.Proto
  acknowledgedThrough : Option Nat

def toProto (self : TabletCommandEnvelope) : Except TabletCommandEnvelopeError Proto := do
  self.validateMetadata
  let command ← self.command.toProto.mapError .invalidCommand
  return { formatVersion := self.formatVersion, requestId := some self.requestId.toProto,
           tabletId := some self.tabletId, expectedEpoch := self.expectedEpoch,
           logicalCommandId := self.logicalCommandId.map LogicalCommandId.toProto,
           acknowledgedThrough := self.acknowledgedThrough, command := some command }

def fromProto (proto : Proto) : Except TabletCommandEnvelopeError TabletCommandEnvelope := do
  let requestId ← okOr proto.requestId (.missingField "request_id")
  let requestId ← (RequestId.fromProto requestId).mapError .invalidRequestId
  let tabletId ← okOr proto.tabletId (.missingField "tablet_id")
  let logicalCommandId ← (proto.logicalCommandId.mapM LogicalCommandId.fromProto).mapError
    .invalidLogicalCommandId
  let command ← okOr proto.command (.missingField "command")
  let command ← (TabletCommand.fromProto command).mapError .invalidCommand
  let envelope : TabletCommandEnvelope :=
    { formatVersion := proto.formatVersion, requestId, tabletId,
      expectedEpoch := proto.expectedEpoch, logicalCommandId,
      acknowledgedThrough := proto.acknowledgedThrough, command }
  envelope.validate
  return envelope

theorem logicalCommandId_of_validateMetadata {u : Unit}
    {id : LogicalCommandId} (h : self.validateMetadata = .ok u)
    (hid : self.logicalCommandId = some id) : id.validate = .ok () := by
  simp only [validateMetadata, eq_ok', hid] at h
  exact h.2.2.2.2.2.2

theorem exists_toProto (h : self.validate = .ok ()) :
    ∃ proto, self.toProto = .ok proto ∧ fromProto proto = .ok self := by
  obtain ⟨_, hmetadata, hcommand⟩ := bind_eq_ok.mp h
  rw [mapError_eq_ok] at hcommand
  obtain ⟨command, hcode, hback⟩ := self.command.codes.exists_code hcommand
  have hlogical : (self.logicalCommandId.map LogicalCommandId.toProto).mapM
      LogicalCommandId.fromProto = .ok self.logicalCommandId := by
    cases hid : self.logicalCommandId with
    | none => rfl
    | some =>
      have hvalid := logicalCommandId_of_validateMetadata hmetadata hid
      simp [LogicalCommandId.fromProto_toProto hvalid]
  refine ⟨_, by rw [toProto, hmetadata, ok_bind, hcode]; rfl, ?_⟩
  simp only [fromProto, okOr, ok_bind, RequestId.fromProto_toProto, hlogical, hback,
    Except.mapError, h]
  rfl

variable [Message Proto]

/-- Encode the complete durable proposal payload. -/
def encode (self : TabletCommandEnvelope) : Except TabletCommandEnvelopeError Bytes :=
  self.toProto.map Message.encodeToVec

/-- Decode and validate bytes recovered from Raft storage. -/
def decode (bytes : Bytes) : Except TabletCommandEnvelopeError TabletCommandEnvelope := do
  let proto ← (Message.decode bytes).mapError TabletCommandEnvelopeError.decode
  fromProto proto

theorem decode_encodeToVec (proto : Proto) :
    decode (Message.encodeToVec proto) = fromProto proto := by
  rw [decode, Message.decode_encodeToVec]
  rfl

end TabletCommandEnvelope

end RagnorDb
