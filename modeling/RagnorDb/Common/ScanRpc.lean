import RagnorDb.Common.Ids

/-!
# Tablet routes and scan pages

The parts of `rpc_codec.rs` that a distributed scan uses: the route of a tablet, the request for
one page, and the batch that answers it, with their validation.
-/

namespace RagnorDb

open Std Checked OrderedMap

/-! ## Routes -/

structure ReplicaRoute where
  replicaId : ReplicaId
  nodeId : NodeId
  deriving DecidableEq

/-- The routing information that metadata returns for one tablet. -/
structure TabletRoute where
  raftGroupId : RaftGroupId
  tabletId : TabletId
  tabletEpoch : Nat
  leaderReplicaId : ReplicaId
  replicas : List ReplicaRoute
  deriving DecidableEq

/-- The variants that `TabletRoute::validate` returns. -/
inductive TabletRouteError where
  | zeroRaftGroupId
  | zeroTabletEpoch
  | zeroTabletId
  | zeroLeaderReplicaId
  | emptyReplicas
  | zeroReplicaIdentity
  | duplicateReplica (replicaId : ReplicaId)
  | duplicateNode (nodeId : NodeId)
  | leaderAbsent (replicaId : ReplicaId)
  deriving DecidableEq

def TabletRouteError.display : TabletRouteError → String
  | .zeroRaftGroupId => "tablet route Raft group ID must be non-zero"
  | .zeroTabletEpoch => "tablet route epoch must be non-zero"
  | .zeroTabletId => "tablet ID must be non-zero"
  | .zeroLeaderReplicaId => "leader replica ID must be non-zero"
  | .emptyReplicas => "tablet route must contain at least one replica"
  | .zeroReplicaIdentity => "tablet route contains a zero replica or node ID"
  | .duplicateReplica replicaId =>
    s!"tablet route contains duplicate replica ID ReplicaId({replicaId})"
  | .duplicateNode nodeId => s!"tablet route contains duplicate node ID NodeId({nodeId})"
  | .leaderAbsent replicaId =>
    s!"leader replica ReplicaId({replicaId}) is absent from the tablet route"

namespace TabletRoute

/-- One iteration of the loop over the replicas of a route. -/
def collectReplica
    (seen : ExtTreeSet ReplicaId compare × ExtTreeSet NodeId compare) (route : ReplicaRoute) :
    Except TabletRouteError (ExtTreeSet ReplicaId compare × ExtTreeSet NodeId compare) := do
  rejectIf (route.replicaId = 0 ∨ route.nodeId = 0) .zeroReplicaIdentity
  rejectIf (route.replicaId ∈ seen.1) (.duplicateReplica route.replicaId)
  rejectIf (route.nodeId ∈ seen.2) (.duplicateNode route.nodeId)
  return (seen.1.insert route.replicaId, seen.2.insert route.nodeId)

def validate (self : TabletRoute) : Except TabletRouteError Unit := do
  rejectIf (self.raftGroupId = 0) .zeroRaftGroupId
  rejectIf (self.tabletId = 0) .zeroTabletId
  rejectIf (self.tabletEpoch = 0) .zeroTabletEpoch
  rejectIf (self.leaderReplicaId = 0) .zeroLeaderReplicaId
  rejectIf (self.replicas = []) .emptyReplicas
  let (replicaIds, _) ← self.replicas.foldlM collectReplica (∅, ∅)
  rejectIf (self.leaderReplicaId ∉ replicaIds) (.leaderAbsent self.leaderReplicaId)

theorem ids_of_validate {self : TabletRoute} (h : self.validate = .ok ()) :
    self.raftGroupId ≠ 0 ∧ self.tabletId ≠ 0 ∧ self.tabletEpoch ≠ 0 := by
  simp only [validate, eq_ok'] at h
  exact ⟨h.1, h.2.1, h.2.2.1⟩

end TabletRoute

/-! ## Requests -/

def maxTabletScanRows : Nat := 65536
def maxTabletScanBytes : Nat := 8 * 1024 * 1024

/-- A bounded read over one logical half-open tablet span. -/
structure TabletScanRequest where
  requestId : RequestId
  tabletId : TabletId
  tabletEpoch : Nat
  startKey : Option Bytes
  endKey : Option Bytes
  resumeAfter : Option Bytes
  readTimestamp : Timestamp
  maxRows : Nat
  maxBytes : Nat
  rpcAttemptId : Option Nat
  deadlineRemainingMs : Option Nat
  intentOnly : Bool
  deriving DecidableEq

namespace TabletScanRequest

def validate (self : TabletScanRequest) : Except String Unit := do
  rejectIf (self.requestId.clientId.val = 0 ∨ self.requestId.sequence = 0 ∨
    self.requestId.raftGroupId = 0 ∨ self.tabletId = 0 ∨ self.tabletEpoch = 0)
    "tablet scan request contains a reserved zero identity"
  rejectIf (self.readTimestamp = 0) "tablet scan read timestamp must be non-zero"
  rejectIf (self.maxRows = 0 ∨ maxTabletScanRows < self.maxRows)
    "tablet scan max_rows is outside the allowed range"
  rejectIf (self.maxBytes = 0 ∨ maxTabletScanBytes < self.maxBytes)
    "tablet scan max_bytes is outside the allowed range"
  rejectIf (self.startKey.any fun startKey => self.endKey.any fun endKey =>
    compare startKey endKey != .lt) "tablet scan logical bounds must be ordered"
  rejectIf (self.resumeAfter.any fun resumeAfter => self.startKey.any fun startKey =>
    compare resumeAfter startKey == .lt) "scan resume_after must not precede start_key"
  rejectIf (self.resumeAfter.any fun resumeAfter => self.endKey.any fun endKey =>
    compare resumeAfter endKey != .lt) "scan resume_after must be strictly before end_key"
  rejectIf (self.rpcAttemptId = some 0) "tablet scan RPC attempt ID must be non-zero"
  rejectIf (self.deadlineRemainingMs = some 0) "tablet scan deadline must be non-zero"

end TabletScanRequest

/-! ## Batches -/

/-- One logically ordered row, with the canonical encoding of its values. -/
structure TabletScanRow where
  key : Bytes
  row : Bytes
  deriving DecidableEq

def TabletScanRow.byteLen (self : TabletScanRow) : Nat :=
  saturatingAdd self.key.length self.row.length

/-- One read-conflicting intent of a scanned range. -/
structure TabletScanIntent where
  key : Bytes
  lock : LockRecord
  deriving DecidableEq

/-- `lockLen` is the length of a lock on the wire, and 0 for a lock that cannot be encoded. -/
def TabletScanIntent.byteLen (lockLen : LockRecord → Nat) (self : TabletScanIntent) : Nat :=
  saturatingAdd self.key.length (lockLen self.lock)

/-- One bounded tablet response batch. -/
structure TabletScanBatch where
  rows : List TabletScanRow
  intents : List TabletScanIntent
  nextResumeAfter : Option Bytes
  exhausted : Bool
  deriving DecidableEq

/-- The bounds of a request, checked for one key of the batch. -/
def TabletScanRequest.checkKey (request : TabletScanRequest) (what : String) (key : Bytes) :
    Except String Unit := do
  rejectIf (request.startKey.any fun startKey => compare key startKey == .lt)
    s!"tablet scan {what} is before start_key"
  rejectIf (request.endKey.any fun endKey => compare key endKey != .lt)
    s!"tablet scan {what} is at or beyond end_key"
  rejectIf (request.resumeAfter.any fun resumeAfter => compare key resumeAfter != .gt)
    s!"tablet scan {what} is not after resume_after"

namespace TabletScanBatch

variable (lockLen : LockRecord → Nat) (self : TabletScanBatch)

/-- No key is at or before the one in front of it. -/
def Ordered (keys : List Bytes) : Prop :=
  keys.IsChain (compare · · = .lt)

instance (keys : List Bytes) : Decidable (Ordered keys) :=
  inferInstanceAs (Decidable (List.IsChain _ _))

def validateIntent (intent : TabletScanIntent) : Except String Unit := do
  rejectIf (intent.key = []) "tablet scan intent key must not be empty"
  intent.lock.validate

/-- The continuation of a batch with intents. -/
def validateIntentCursor : Except String Unit := do
  rejectIf (self.rows ≠ []) "intent scan response must not contain MVCC rows"
  rejectIf (¬ (self.nextResumeAfter = none ∨
      (self.nextResumeAfter = self.intents.getLast?.map (·.key) ∧ self.exhausted = false)))
    "intent scan continuation must match its last key"

/-- The continuation of a batch without intents. -/
def validateRowCursor : Except String Unit :=
  match self.rows.getLast?, self.nextResumeAfter with
  | some lastRow, some nextResumeAfter =>
    rejectIf (lastRow.key ≠ nextResumeAfter)
      "tablet scan resume cursor must equal the last row key"
  | none, some _ => .error "empty tablet scan batch cannot publish a resume cursor"
  | some _, none => rejectIf (self.exhausted = false)
      "non-exhausted tablet scan batch must publish a resume cursor"
  | none, none => rejectIf (self.exhausted = false)
      "empty non-exhausted tablet scan batch must contain intents"

def validate : Except String Unit := do
  rejectIf (¬ Ordered (self.rows.map (·.key)))
    "tablet scan rows must be strictly ordered by key"
  rejectIf (¬ Ordered (self.intents.map (·.key)))
    "tablet scan intents must be strictly ordered by key"
  self.intents.forM validateIntent
  if self.intents ≠ [] then self.validateIntentCursor else self.validateRowCursor

def byteLen : Nat :=
  ((self.rows.map TabletScanRow.byteLen) ++ self.intents.map (·.byteLen lockLen)).sum

/-- The continuation that the kind of the request calls for. -/
def validateMode (request : TabletScanRequest) : Except String Unit :=
  if request.intentOnly then do
    rejectIf (self.rows ≠ []) "intent-only scan must not return MVCC rows"
    if self.intents = [] then
      rejectIf (self.exhausted = false ∨ self.nextResumeAfter.isSome)
        "empty intent-only scan response must be exhausted"
    else if self.exhausted then
      rejectIf self.nextResumeAfter.isSome
        "exhausted intent scan must not publish a continuation"
    else
      rejectIf (self.nextResumeAfter ≠ self.intents.getLast?.map (·.key))
        "non-exhausted intent scan must resume after its last key"
  else
    rejectIf (self.intents ≠ [] ∧ (self.nextResumeAfter.isSome ∨ self.exhausted))
      "foreground intent response must retry the same cursor"

def validateFor (request : TabletScanRequest) : Except String Unit := do
  request.validate
  self.validate
  rejectIf (request.maxRows < max self.rows.length self.intents.length)
    "tablet scan batch exceeds max_rows"
  rejectIf (request.maxBytes < self.byteLen lockLen) "tablet scan batch exceeds max_bytes"
  self.validateMode request
  self.rows.forM fun row => request.checkKey "row" row.key
  self.intents.forM fun intent => request.checkKey "intent" intent.key
  rejectIf (self.nextResumeAfter.any fun nextResumeAfter => request.endKey.any fun endKey =>
    compare nextResumeAfter endKey != .lt) "tablet scan resume cursor must be before end_key"

end TabletScanBatch

end RagnorDb
