import RagnorDb.Catalog.Metadata

/-!
# Snapshots of the metadata state machine

The domain snapshot, its validation (`MetadataSnapshot::validate`), its capture from a state
and its restoration, which runs the same commands as log replay for nodes, tables and
tablets.
-/

namespace RagnorDb

open Std Checked OrderedMap MetadataCommandCodecError

structure MetadataRequestDeduplication where
  requestId : RequestId
  logicalCommandId : LogicalCommandId
  outcome : MetadataCachedOutcome
  deriving DecidableEq

/-- Canonical image of the metadata state. -/
structure MetadataSnapshot where
  clusterId : Option String
  nodes : List NodeDescriptor
  tables : List TableDefinition
  tablets : List TabletDescriptor
  desiredPlacements : List DesiredReplicaPlacement
  retiredReplicas : List RetiredReplicaLifetime
  allocator : MetadataAllocatorState
  timestampReservedUntil : Timestamp
  gcSafePoint : Timestamp
  gcProtections : List MetadataGcProtection
  requestDeduplication : List MetadataRequestDeduplication
  clientSessions : List MetadataClientSession
  deriving DecidableEq

/-! ## Validation -/

abbrev MetadataCheck := Except MetadataCommandCodecError Unit

def MetadataAllocatorState.validate (self : MetadataAllocatorState) : MetadataCheck := do
  rejectIf (self.maxTableId < initialMetadataTableHighWater) (allocatorBelowReservedFloor "table")
  rejectIf (self.maxTabletId < initialMetadataTabletHighWater)
    (allocatorBelowReservedFloor "tablet")
  rejectIf (self.maxRaftGroupId < initialMetadataRaftGroupHighWater)
    (allocatorBelowReservedFloor "raft_group")

def MetadataGcProtection.validate (self : MetadataGcProtection) (gcSafePoint : Timestamp) :
    MetadataCheck := do
  validateGcProtectionIdentity self.ownerId self.protectionId
  rejectIf (self.protectedTimestamp = 0) zeroTimestamp
  rejectIf (self.leaseDeadlineMs = 0) zeroGcProtectionLease
  rejectIf (self.protectedTimestamp < gcSafePoint)
    (gcProtectionBelowSafePoint self.protectedTimestamp gcSafePoint)

def MetadataClientSession.validate (self : MetadataClientSession) : MetadataCheck := do
  validateClientId self.clientId
  rejectIf (self.sessionEpoch = 0) zeroClientSessionEpoch
  rejectIf (self.firstRetainedSequence = 0) zeroRetryHorizon
  rejectIf (self.firstRetainedSequence ≤ self.acknowledgedThrough) invalidRetryHorizon

def MetadataCachedOutcome.validate : MetadataCachedOutcome → MetadataCheck
  | .applied | .alreadyApplied | .clientRenewed => .ok ()
  | .clientRegistered clientId sessionEpoch => do
    validateClientId clientId
    rejectIf (sessionEpoch = 0) zeroClientSessionEpoch
  | .tableCreated created => do
    rejectIf (created.tableId ≤ initialMetadataTableHighWater)
      (invalidCachedOutcome "cached CREATE TABLE result uses a reserved table ID")
    rejectIf (created.tabletId ≤ initialMetadataTabletHighWater)
      (invalidCachedOutcome "cached CREATE TABLE result uses a reserved tablet ID")
    rejectIf (created.raftGroupId = 0) zeroRaftGroupId
    rejectIf (created.raftGroupId = reservedLegacyRaftGroupId ∨
        created.raftGroupId = reservedMetadataRaftGroupId)
      (metadataRaftGroupAssignedToTablet created.raftGroupId)
  | .timestampsReserved reservedFrom reservedUntil =>
    rejectIf (reservedFrom = 0 ∨ reservedUntil < reservedFrom) zeroTimestamp
  | .timestampReservationRegressed current received =>
    rejectIf (current = 0 ∨ received = 0) zeroTimestamp
  | .rejected reason =>
    rejectIf (isBlank reason) (invalidCachedOutcome "rejection reason cannot be empty")

def MetadataRequestDeduplication.validate (self : MetadataRequestDeduplication) :
    MetadataCheck := do
  rejectIf (self.requestId.clientId = 0) (invalidRequestId "client ID must be non-zero")
  rejectIf (self.requestId.sequence = 0) (invalidRequestId "request sequence must be non-zero")
  rejectIf (self.requestId.raftGroupId ≠ reservedMetadataRaftGroupId)
    (requestGroupMismatch reservedMetadataRaftGroupId self.requestId.raftGroupId)
  self.outcome.validate

namespace MetadataSnapshot

/-- The high-water mark of a kind dominates the visible identities. -/
def checkHighWater (kind : String) (highWater : Nat) (visible : List Nat) (initial : Nat) :
    MetadataCheck :=
  let visibleMax := visible.max?.getD initial
  rejectIf (highWater < visibleMax) (allocatorBelowVisibleState kind highWater visibleMax)

variable (self : MetadataSnapshot)

/-- An uninitialised metadata group has no state. -/
def checkCluster : MetadataCheck :=
  match self.clusterId with
  | some clusterId => validateClusterId clusterId
  | none =>
    rejectIf (self.nodes ≠ [] ∨ self.tables ≠ [] ∨ self.tablets ≠ [] ∨
        self.desiredPlacements ≠ [] ∨ self.retiredReplicas ≠ [] ∨ self.clientSessions ≠ [] ∨
        self.requestDeduplication ≠ [] ∨ self.timestampReservedUntil ≠ 0 ∨
        self.gcSafePoint ≠ 0 ∨ self.gcProtections ≠ [])
      uninitializedSnapshotHasState

def checkValues : MetadataCheck := do
  self.nodes.forM (·.validate)
  self.tables.forM validateTable
  self.tablets.forM (·.validate)
  self.desiredPlacements.forM (·.validate)
  self.retiredReplicas.forM (·.validate)
  self.requestDeduplication.forM (·.validate)
  self.clientSessions.forM (·.validate)
  self.gcProtections.forM (·.validate self.gcSafePoint)

/-- The replica identities of the desired placements, then those of the retired replicas. -/
def visibleReplicaIds : List ReplicaId :=
  self.desiredPlacements.flatMap (fun placement => placement.replicas.map (·.replicaId)) ++
    self.retiredReplicas.map (·.replicaId)

def checkAllocator : MetadataCheck := do
  self.allocator.validate
  checkHighWater "table" self.allocator.maxTableId (self.tables.map (·.tableId))
    initialMetadataTableHighWater
  checkHighWater "tablet" self.allocator.maxTabletId (self.tablets.map (·.tabletId))
    initialMetadataTabletHighWater
  checkHighWater "raft_group" self.allocator.maxRaftGroupId
    (self.tablets.map (·.raftGroupId) ++ self.retiredReplicas.map (·.raftGroupId))
    initialMetadataRaftGroupHighWater
  checkHighWater "replica" self.allocator.maxReplicaId self.visibleReplicaIds 0

def checkOrder : MetadataCheck := do
  rejectIf (¬ strictlyAscending compare (·.nodeId) self.nodes) (nonCanonicalSnapshot "nodes")
  rejectIf (¬ strictlyAscending compare (·.tableId) self.tables) (nonCanonicalSnapshot "tables")
  rejectIf (¬ strictlyAscending compare (·.tabletId) self.tablets)
    (nonCanonicalSnapshot "tablets")
  rejectIf (¬ strictlyAscending compare (·.tabletId) self.desiredPlacements)
    (nonCanonicalSnapshot "desired_placements")
  rejectIf (¬ strictlyAscending comparePair (fun retired => (retired.raftGroupId,
      retired.replicaId)) self.retiredReplicas)
    (nonCanonicalSnapshot "retired_replicas")
  rejectIf (¬ strictlyAscending compare (·.logicalCommandId) self.requestDeduplication)
    (nonCanonicalSnapshot "request_deduplication")
  rejectIf (¬ strictlyAscending compare (·.clientId) self.clientSessions)
    (nonCanonicalSnapshot "client_sessions")
  rejectIf (¬ strictlyAscending comparePair (fun protection => (protection.ownerId,
      protection.protectionId)) self.gcProtections)
    (nonCanonicalSnapshot "gc_protections")

def validate : MetadataCheck := do
  self.checkCluster
  self.checkValues
  self.checkAllocator
  self.checkOrder

end MetadataSnapshot

/-! ## Capture -/

def requestIdForLogicalId (logicalCommandId : LogicalCommandId) : RequestId where
  clientId := logicalCommandId.clientRequestId.clientId
  sequence := logicalCommandId.clientRequestId.requestSequence
  raftGroupId := reservedMetadataRaftGroupId

namespace MetadataState

/-- Build the canonical snapshot. -/
def toSnapshot (self : MetadataState) : MetadataSnapshot where
  clusterId := self.clusterId
  nodes := values self.nodes
  tables := (values self.tables).map (·.toDefinition)
  tablets := values self.tablets
  desiredPlacements := values self.desiredPlacements
  retiredReplicas := values self.retiredReplicas
  allocator := self.allocator
  timestampReservedUntil := self.timestampReservedUntil
  gcSafePoint := self.gcSafePoint
  gcProtections := values self.gcProtections
  requestDeduplication := self.requestDeduplication.toList.map fun entry =>
    ⟨requestIdForLogicalId entry.1, entry.1, entry.2⟩
  clientSessions := values self.clientSessions

/-! ## Restoration -/

variable (self : MetadataState)

/-- Apply a command that a snapshot stands for: a rejection is corruption. -/
def applySnapshotCommand (command : MetadataCommand) : Except Error MetadataState :=
  match self.apply command with
  | (.rejected rejection, _) => .error (.corruptData
      s!"metadata snapshot violates state-machine invariant: {rejection.display}")
  | (_, state) => .ok state

/-- Register a node as active and advance it to its lifecycle. -/
def applySnapshotNode (node : NodeDescriptor) : Except Error MetadataState := do
  let state ← self.applySnapshotCommand (.registerNode { node with lifecycle := .active })
  let passed := [NodeLifecycle.draining, .decommissioning, .decommissioned, .tombstoned].filter
    fun lifecycle => lifecycle.rank ≤ node.lifecycle.rank
  passed.foldlM (fun (state : MetadataState) lifecycle =>
    state.applySnapshotCommand (.setNodeLifecycle node.nodeId lifecycle)) state

/-- The checks of one replica of a restored placement. -/
def checkSnapshotReplica (tablet : TabletDescriptor) (replica : DesiredReplica) :
    Except Error Unit := do
  rejectIf (replica.nodeId ∉ self.nodes)
    (.corruptData s!"metadata snapshot references unknown node {replica.nodeId}")
  rejectIf ((tablet.raftGroupId, replica.replicaId) ∈ self.retiredReplicas)
    (.corruptData (s!"metadata snapshot reuses retired replica {replica.replicaId} of group " ++
      s!"{tablet.raftGroupId}"))

/-- The latest placement may be at any epoch: the order of epochs is checked by the log. -/
def applySnapshotPlacement (placement : DesiredReplicaPlacement) : Except Error MetadataState := do
  let tablet ← okOr self.tablets[placement.tabletId]?
    (.corruptData s!"metadata snapshot references unknown tablet {placement.tabletId}")
  placement.replicas.forM (self.checkSnapshotReplica tablet)
  let highest := (placement.replicas.map (·.replicaId)).max?.getD 0
  return { self with
    allocator := { self.allocator with maxReplicaId := max self.allocator.maxReplicaId highest }
    desiredPlacements := self.desiredPlacements.insert placement.tabletId placement }

def applySnapshotRetirement (retired : RetiredReplicaLifetime) : Except Error MetadataState := do
  let tabletId ← okOr self.tabletIdsByRaftGroup[retired.raftGroupId]?
    (.corruptData (s!"metadata snapshot retires replica {retired.replicaId} for unknown Raft " ++
      s!"group {retired.raftGroupId}"))
  rejectIf (desires self.desiredPlacements[tabletId]? retired.replicaId)
    (.corruptData (s!"metadata snapshot marks active replica {retired.replicaId} of group " ++
      s!"{retired.raftGroupId} as retired"))
  return { self with
    retiredReplicas :=
      self.retiredReplicas.insert (retired.raftGroupId, retired.replicaId) retired
    allocator :=
      { self.allocator with maxReplicaId := max self.allocator.maxReplicaId retired.replicaId } }

/-- A retained CREATE TABLE result names the table and tablet it created. -/
def checkCachedOutcome : MetadataCachedOutcome → Except Error Unit
  | .tableCreated created => do
    let table ← okOr self.tables[created.tableId]? (.corruptData
      s!"metadata snapshot request cache references unknown table {created.tableId}")
    let tablet ← okOr self.tablets[created.tabletId]? (.corruptData
      s!"metadata snapshot request cache references unknown tablet {created.tabletId}")
    rejectIf (tablet.tableId ≠ created.tableId ∨ tablet.raftGroupId ≠ created.raftGroupId)
      (.corruptData ("metadata snapshot request cache has inconsistent CREATE TABLE " ++
        s!"identities for table {table.id}"))
  | _ => .ok ()

def applySnapshotRequest (request : MetadataRequestDeduplication) : Except Error MetadataState := do
  self.checkCachedOutcome request.outcome
  return { self with
    requestDeduplication :=
      self.requestDeduplication.insert request.logicalCommandId request.outcome }

def applySnapshotSession (session : MetadataClientSession) : Except Error MetadataState := do
  rejectIf (session.clientId ∈ self.clientSessions)
    (.corruptData "metadata snapshot contains duplicate client sessions")
  return { self with clientSessions := self.clientSessions.insert session.clientId session }

/-- Install the marks of a snapshot, which dominate the visible identities. -/
def installMarks (snapshot : MetadataSnapshot) : MetadataState :=
  { self with
    allocator := snapshot.allocator
    timestampReservedUntil := snapshot.timestampReservedUntil
    gcSafePoint := snapshot.gcSafePoint
    gcProtections := snapshot.gcProtections.foldl (fun protections protection =>
      protections.insert (protection.ownerId, protection.protectionId) protection) ∅ }

/-- Restore a snapshot under the invariants of log replay. -/
def fromSnapshot (snapshot : MetadataSnapshot) : Except Error MetadataState := do
  snapshot.validate.mapError fun error =>
    Error.corruptData s!"invalid metadata snapshot: {error.display}"
  match snapshot.clusterId with
  | none => return new.installMarks snapshot
  | some clusterId => do
    let state ← new.applySnapshotCommand (.clusterInitialized clusterId)
    let state ← snapshot.nodes.foldlM applySnapshotNode state
    let state ← snapshot.tables.foldlM (fun state table =>
      state.applySnapshotCommand (.createTable table)) state
    let state ← snapshot.tablets.foldlM (fun state tablet =>
      state.applySnapshotCommand (.createTablet tablet)) state
    let state ← snapshot.desiredPlacements.foldlM applySnapshotPlacement state
    let state ← snapshot.retiredReplicas.foldlM applySnapshotRetirement state
    let state := state.installMarks snapshot
    let state ← snapshot.requestDeduplication.foldlM applySnapshotRequest state
    snapshot.clientSessions.foldlM applySnapshotSession state

end MetadataState

end RagnorDb
