import RagnorDb.Catalog.Schema
import RagnorDb.Common.Ids

/-!
# Metadata commands

The domain types of the metadata Raft group and the checks of one value on its own
(`metadata_codec.rs`).  Cross references between values are checked by the state machine.
-/

namespace RagnorDb

open Checked

/-- Highest identities that are reserved: the first ones allocated lie above them. -/
def initialMetadataTableHighWater : Nat := 1
def initialMetadataTabletHighWater : Nat := 1
def reservedLegacyRaftGroupId : RaftGroupId := 1
def reservedMetadataRaftGroupId : RaftGroupId := 2
def initialMetadataRaftGroupHighWater : Nat := reservedMetadataRaftGroupId

/-- The errors of the checks, without those of the wire format. -/
inductive MetadataCommandCodecError where
  | invalidRequestId (reason : String)
  | requestGroupMismatch (expected received : RaftGroupId)
  | emptyClusterId
  | zeroNodeId
  | zeroConfStateVersion
  | zeroRemovalIndex
  | zeroRemovalTerm
  | emptyNodeEndpoint (field : String)
  | invalidSocketAddress (field value : String)
  | duplicateNodeEndpoint (endpoint : String)
  | emptyNodeStorageClass
  | invalidLeaderPreference
  | zeroClientId
  | zeroClientSessionEpoch
  | zeroRetryHorizon
  | invalidRetryHorizon
  | zeroTableId
  | emptyTableName
  | emptyTableColumns
  | zeroSchemaVersion
  | zeroExpectedSchemaVersion
  | zeroTimestamp
  | zeroGcOwnerId
  | zeroGcProtectionId
  | zeroGcProtectionLease
  | expiredGcProtectionLease (deadlineMs nowMs : Nat)
  | gcProtectionBelowSafePoint (protectedAt safePoint : Timestamp)
  | zeroTabletCount
  | invalidTable (reason : String)
  | zeroTabletId
  | zeroRaftGroupId
  | metadataRaftGroupAssignedToTablet (raftGroupId : RaftGroupId)
  | zeroTabletEpoch
  | zeroPartitionCount
  | invalidHashBucket (bucket bucketCount : Nat)
  | invalidKeyRange
  | zeroConfigurationEpoch
  | emptyReplicaPlacement
  | placementHasNoVoter
  | zeroReplicationFactor
  | placementDomainCountExceedsReplication (domain : String) (count replicationFactor : Nat)
  | emptyRequiredStorageClass
  | replicationFactorMismatch (expected received : Nat)
  | zeroReplicaId
  | replicaPlacementNotCanonical
  | duplicatePlacementNode (nodeId : NodeId)
  | allocatorBelowReservedFloor (kind : String)
  | allocatorBelowVisibleState (kind : String) (highWater visible : Nat)
  | uninitializedSnapshotHasState
  | nonCanonicalSnapshot (field : String)
  | invalidCachedOutcome (reason : String)
  deriving DecidableEq

/-- The error's `Display` text. -/
def MetadataCommandCodecError.display : MetadataCommandCodecError → String
  | invalidRequestId reason => s!"invalid metadata request ID: {reason}"
  | requestGroupMismatch expected received =>
    s!"metadata request belongs to Raft group {received}, expected metadata group {expected}"
  | emptyClusterId => "metadata cluster ID cannot be empty"
  | zeroNodeId => "metadata node ID must be non-zero"
  | zeroConfStateVersion => "metadata retirement ConfState version must be non-zero"
  | zeroRemovalIndex => "metadata retirement removal index must be non-zero"
  | zeroRemovalTerm => "metadata retirement removal term must be non-zero"
  | emptyNodeEndpoint field => s!"metadata endpoint {field} cannot be empty"
  | invalidSocketAddress field value =>
    s!"metadata endpoint {field} is not a valid socket address: {value}"
  | duplicateNodeEndpoint endpoint =>
    s!"a physical node cannot bind multiple services to metadata endpoint {endpoint}"
  | emptyNodeStorageClass => "metadata node storage class cannot be empty"
  | invalidLeaderPreference =>
    "placement policy contains a duplicate or zero preferred leader node"
  | zeroClientId => "metadata client ID must be non-zero"
  | zeroClientSessionEpoch => "metadata client session epoch must be non-zero"
  | zeroRetryHorizon => "metadata retry horizon must retain at least one sequence"
  | invalidRetryHorizon => "metadata retry horizon is inconsistent"
  | zeroTableId => "metadata table ID must be non-zero"
  | emptyTableName => "metadata table name cannot be empty"
  | emptyTableColumns => "metadata CREATE TABLE requires at least one column"
  | zeroSchemaVersion => "metadata schema version must be non-zero"
  | zeroExpectedSchemaVersion => "metadata expected schema version must be non-zero"
  | zeroTimestamp => "metadata timestamp reservation endpoint must be non-zero"
  | zeroGcOwnerId => "metadata GC protection owner ID must be non-zero"
  | zeroGcProtectionId => "metadata GC protection ID must be non-zero"
  | zeroGcProtectionLease => "metadata GC protection lease deadline must be non-zero"
  | expiredGcProtectionLease deadlineMs nowMs =>
    s!"metadata GC protection lease expired at {deadlineMs} ms (command time {nowMs} ms)"
  | gcProtectionBelowSafePoint protectedAt safePoint =>
    s!"metadata GC protection timestamp Timestamp({protectedAt}) is below safe point " ++
      s!"Timestamp({safePoint})"
  | zeroTabletCount => "metadata table must have at least one tablet"
  | invalidTable reason => s!"metadata table is invalid: {reason}"
  | zeroTabletId => "metadata tablet ID must be non-zero"
  | zeroRaftGroupId => "metadata Raft group ID must be non-zero"
  | metadataRaftGroupAssignedToTablet raftGroupId =>
    s!"Raft group {raftGroupId} is reserved for cluster metadata and cannot be assigned to " ++
      "a tablet"
  | zeroTabletEpoch => "metadata tablet epoch must be non-zero"
  | zeroPartitionCount => "hash partition bucket count must be non-zero"
  | invalidHashBucket bucket bucketCount =>
    s!"hash partition bucket {bucket} is outside bucket count {bucketCount}"
  | invalidKeyRange => "metadata tablet key range must have start < end"
  | zeroConfigurationEpoch => "metadata configuration epoch must be non-zero"
  | emptyReplicaPlacement => "metadata replica placement cannot be empty"
  | placementHasNoVoter => "metadata desired placement must contain at least one voter"
  | zeroReplicationFactor => "metadata placement replication factor must be non-zero"
  | placementDomainCountExceedsReplication domain count replicationFactor =>
    s!"metadata placement requires {count} distinct {domain}, but replication factor is " ++
      s!"{replicationFactor}"
  | emptyRequiredStorageClass => "metadata placement required storage class cannot be empty"
  | replicationFactorMismatch expected received =>
    s!"metadata placement contains {received} voters, but policy requires {expected}"
  | zeroReplicaId => "metadata replica ID must be non-zero"
  | replicaPlacementNotCanonical =>
    "metadata replica placement must be strictly ordered by replica ID"
  | duplicatePlacementNode nodeId =>
    s!"metadata replica placement assigns node {nodeId} more than once"
  | allocatorBelowReservedFloor kind =>
    s!"metadata {kind} allocator is below its reserved identity floor"
  | allocatorBelowVisibleState kind highWater visible =>
    s!"metadata {kind} allocator high-water {highWater} is below visible ID {visible}"
  | uninitializedSnapshotHasState => "uninitialized metadata snapshot contains replicated state"
  | nonCanonicalSnapshot field =>
    s!"metadata snapshot field {field} is not in canonical ascending order"
  | invalidCachedOutcome reason => s!"metadata cached outcome is invalid: {reason}"

open MetadataCommandCodecError

/-! ## Shared checks -/

def validateClusterId (clusterId : String) : Except MetadataCommandCodecError Unit :=
  rejectIf (isBlank clusterId) emptyClusterId

def validateClientId (clientId : ClientId) : Except MetadataCommandCodecError Unit :=
  rejectIf (clientId = 0) zeroClientId

def validateGcProtectionIdentity (ownerId protectionId : Nat) :
    Except MetadataCommandCodecError Unit := do
  rejectIf (ownerId = 0) zeroGcOwnerId
  rejectIf (protectionId = 0) zeroGcProtectionId

def validateLiveGcLease (leaseDeadlineMs nowMs : Nat) : Except MetadataCommandCodecError Unit := do
  rejectIf (leaseDeadlineMs = 0) zeroGcProtectionLease
  rejectIf (leaseDeadlineMs ≤ nowMs) (expiredGcProtectionLease leaseDeadlineMs nowMs)

def validateSocketAddr (field value : String) : Except MetadataCommandCodecError Unit := do
  rejectIf (isBlank value) (emptyNodeEndpoint field)
  rejectIf (¬ SocketAddr.isValid value) (invalidSocketAddress field value)

def validateTable (table : TableDefinition) : Except MetadataCommandCodecError Unit := do
  rejectIf (table.tableId = 0) zeroTableId
  rejectIf (isBlank table.name) emptyTableName
  rejectIf (table.schemaVersion = 0) zeroSchemaVersion
  rejectIf (table.tabletCount = 0) zeroTabletCount

def validateReplicaRetirementFields (desiredConfigurationEpoch removedConfStateVersion
    removalIndex removalTerm : Nat) : Except MetadataCommandCodecError Unit := do
  rejectIf (desiredConfigurationEpoch = 0) zeroConfigurationEpoch
  rejectIf (removedConfStateVersion = 0) zeroConfStateVersion
  rejectIf (removalIndex = 0) zeroRemovalIndex
  rejectIf (removalTerm = 0) zeroRemovalTerm

/-! ## Nodes -/

/-- Durable node lifecycle owned by metadata. -/
inductive NodeLifecycle where
  | active
  | draining
  | decommissioning
  | decommissioned
  | tombstoned
  deriving DecidableEq

/-- Durable physical-node directory entry. -/
structure NodeDescriptor where
  nodeId : NodeId
  raftAddr : String
  snapshotAddr : String
  sqlAddr : String
  adminAddr : String
  region : Option String
  zone : Option String
  rack : Option String
  storageClass : String
  lifecycle : NodeLifecycle
  deriving DecidableEq

/-- The endpoints after those in `unique`. -/
def validateEndpoints (unique : List String) :
    List (String × String) → Except MetadataCommandCodecError Unit
  | [] => .ok ()
  | (field, endpoint) :: endpoints => do
    validateSocketAddr field endpoint
    rejectIf (endpoint ∈ unique) (duplicateNodeEndpoint endpoint)
    validateEndpoints (endpoint :: unique) endpoints

def NodeDescriptor.validate (self : NodeDescriptor) : Except MetadataCommandCodecError Unit := do
  rejectIf (self.nodeId = 0) zeroNodeId
  validateEndpoints [] [("raft_addr", self.raftAddr), ("snapshot_addr", self.snapshotAddr),
    ("sql_addr", self.sqlAddr), ("admin_addr", self.adminAddr)]
  rejectIf (isBlank self.storageClass) emptyNodeStorageClass

/-! ## Tablets -/

inductive PartitionSpec where
  | hash (bucket bucketCount : Nat)
  /-- Ordered half-open range.  An empty start or end is an unbounded side. -/
  | range (startKey endKey : Bytes)
  deriving DecidableEq

def PartitionSpec.validate : PartitionSpec → Except MetadataCommandCodecError Unit
  | hash bucket bucketCount => do
    rejectIf (bucketCount = 0) zeroPartitionCount
    rejectIf (bucketCount ≤ bucket) (invalidHashBucket bucket bucketCount)
  | range startKey endKey =>
    rejectIf (endKey ≠ [] ∧ ¬ startKey < endKey) invalidKeyRange

/-- Stable tablet-to-Raft-group assignment. -/
structure TabletDescriptor where
  tabletId : TabletId
  tableId : TableId
  raftGroupId : RaftGroupId
  tabletEpoch : Nat
  partition : PartitionSpec
  deriving DecidableEq

def TabletDescriptor.validate (self : TabletDescriptor) :
    Except MetadataCommandCodecError Unit := do
  rejectIf (self.tabletId = 0) zeroTabletId
  rejectIf (self.tableId = 0) zeroTableId
  rejectIf (self.raftGroupId = 0) zeroRaftGroupId
  rejectIf (self.raftGroupId = reservedMetadataRaftGroupId)
    (metadataRaftGroupAssignedToTablet self.raftGroupId)
  rejectIf (self.tabletEpoch = 0) zeroTabletEpoch
  self.partition.validate

/-! ## Placements -/

inductive DesiredReplicaRole where
  | voter
  | learner
  deriving DecidableEq

structure DesiredReplica where
  replicaId : ReplicaId
  nodeId : NodeId
  role : DesiredReplicaRole
  deriving DecidableEq

/-- Durable placement constraints of one tablet. -/
structure PlacementPolicy where
  replicationFactor : Nat
  minDistinctRegions : Nat
  minDistinctZones : Nat
  minDistinctRacks : Nat
  requiredStorageClass : Option String
  preferredLeaderNodes : List NodeId
  deriving DecidableEq

/-- The preferred leaders after those in `seen`. -/
def validatePreferredLeaders (seen : List NodeId) :
    List NodeId → Except MetadataCommandCodecError Unit
  | [] => .ok ()
  | nodeId :: nodeIds => do
    rejectIf (nodeId = 0 ∨ nodeId ∈ seen) invalidLeaderPreference
    validatePreferredLeaders (nodeId :: seen) nodeIds

def PlacementPolicy.validate (self : PlacementPolicy) : Except MetadataCommandCodecError Unit := do
  rejectIf (self.replicationFactor = 0) zeroReplicationFactor
  [(self.minDistinctRegions, "regions"), (self.minDistinctZones, "zones"),
      (self.minDistinctRacks, "racks")].forM fun (minimum, label) =>
    rejectIf (self.replicationFactor < minimum)
      (placementDomainCountExceedsReplication label minimum self.replicationFactor)
  rejectIf (self.requiredStorageClass.any isBlank) emptyRequiredStorageClass
  validatePreferredLeaders [] self.preferredLeaderNodes

/-- Desired membership of one tablet at one metadata epoch. -/
structure DesiredReplicaPlacement where
  tabletId : TabletId
  configurationEpoch : Nat
  replicas : List DesiredReplica
  placementPolicy : PlacementPolicy
  deriving DecidableEq

/-- The replicas after `previous`, on other nodes than `nodes`; the number of voters. -/
def validateReplicas (nodes : List NodeId) (previous : Option ReplicaId) (voterCount : Nat) :
    List DesiredReplica → Except MetadataCommandCodecError Nat
  | [] => .ok voterCount
  | replica :: replicas => do
    rejectIf (replica.replicaId = 0) zeroReplicaId
    rejectIf (replica.nodeId = 0) zeroNodeId
    rejectIf (previous.any (replica.replicaId ≤ ·)) replicaPlacementNotCanonical
    rejectIf (replica.nodeId ∈ nodes) (duplicatePlacementNode replica.nodeId)
    validateReplicas (replica.nodeId :: nodes) (some replica.replicaId)
      (if replica.role = .voter then voterCount + 1 else voterCount) replicas

def DesiredReplicaPlacement.validate (self : DesiredReplicaPlacement) :
    Except MetadataCommandCodecError Unit := do
  self.placementPolicy.validate
  rejectIf (self.tabletId = 0) zeroTabletId
  rejectIf (self.configurationEpoch = 0) zeroConfigurationEpoch
  rejectIf (self.replicas = []) emptyReplicaPlacement
  let voterCount ← validateReplicas [] none 0 self.replicas
  rejectIf (voterCount = 0) placementHasNoVoter
  rejectIf (voterCount ≠ self.placementPolicy.replicationFactor)
    (replicationFactorMismatch self.placementPolicy.replicationFactor voterCount)

/-- Permanent record that one group-local replica lifetime ended. -/
structure RetiredReplicaLifetime where
  raftGroupId : RaftGroupId
  replicaId : ReplicaId
  desiredConfigurationEpoch : Nat
  removedConfStateVersion : Nat
  removalIndex : Nat
  removalTerm : Nat
  deriving DecidableEq

/-- The check of the command and of the snapshot entry. -/
def RetiredReplicaLifetime.validate (self : RetiredReplicaLifetime) :
    Except MetadataCommandCodecError Unit := do
  rejectIf (self.raftGroupId = 0) zeroRaftGroupId
  rejectIf (self.replicaId = 0) zeroReplicaId
  validateReplicaRetirementFields self.desiredConfigurationEpoch self.removedConfStateVersion
    self.removalIndex self.removalTerm

/-! ## Commands -/

/-- Unallocated schema semantics of CREATE TABLE. -/
structure CreateTableRequest where
  tableName : String
  columns : List ColumnDefinition
  primaryKeyColumnIds : List ColumnId
  deriving DecidableEq

/-- The requested columns after those in `seen`. -/
def validateRequestColumns (seen : List ColumnDefinition) :
    List ColumnDefinition → Except MetadataCommandCodecError Unit
  | [] => .ok ()
  | column :: columns => do
    rejectIf (column.columnId = 0) (invalidTable "column ID must be non-zero")
    rejectIf (isBlank column.name) (invalidTable "column name cannot be empty")
    rejectIf (column.columnId ∈ seen.map (·.columnId))
      (invalidTable "column IDs must be unique")
    rejectIf (column.name ∈ seen.map (·.name)) (invalidTable "column names must be unique")
    validateRequestColumns (column :: seen) columns

/-- The requested primary-key columns after those in `seen`. -/
def validateRequestPrimaryKey (columns : List ColumnDefinition) (seen : List ColumnId) :
    List ColumnId → Except MetadataCommandCodecError Unit
  | [] => .ok ()
  | columnId :: columnIds => do
    rejectIf (columnId = 0) (invalidTable "primary-key column ID must be non-zero")
    rejectIf (columnId ∈ seen) (invalidTable "primary-key column IDs must be unique")
    let column ← okOr (columns.find? (·.columnId = columnId))
      (invalidTable "primary-key column ID must reference a declared column")
    rejectIf column.nullable (invalidTable "primary-key columns cannot be nullable")
    validateRequestPrimaryKey columns (columnId :: seen) columnIds

def CreateTableRequest.validate (self : CreateTableRequest) :
    Except MetadataCommandCodecError Unit := do
  rejectIf (isBlank self.tableName) emptyTableName
  rejectIf (self.columns = []) emptyTableColumns
  validateRequestColumns [] self.columns
  rejectIf (self.primaryKeyColumnIds = [])
    (invalidTable "primary key must contain at least one column")
  validateRequestPrimaryKey self.columns [] self.primaryKeyColumnIds

/-- One durable lease protecting a timestamp from MVCC history collection. -/
structure MetadataGcProtection where
  ownerId : Nat
  protectionId : Nat
  protectedTimestamp : Timestamp
  leaseDeadlineMs : Nat
  deriving DecidableEq

/-- Deterministic transition proposed to the metadata Raft group. -/
inductive MetadataCommand where
  | clusterInitialized (clusterId : String)
  | registerClient (clientId : ClientId) (requestedSessionEpoch : Nat)
  | renewClient (clientId : ClientId) (sessionEpoch acknowledgedThrough : Nat)
  | reserveTimestamps (reservedUntil : Timestamp)
  | registerGcProtection (protection : MetadataGcProtection) (nowMs : Nat)
  | updateGcProtection (protection : MetadataGcProtection) (nowMs : Nat)
  | renewGcProtection (ownerId protectionId leaseDeadlineMs nowMs : Nat)
  | releaseGcProtection (ownerId protectionId : Nat)
  | advanceGcSafePoint (candidate : Timestamp) (nowMs : Nat)
  | registerNode (node : NodeDescriptor)
  | setNodeLifecycle (nodeId : NodeId) (lifecycle : NodeLifecycle)
  | createTable (table : TableDefinition)
  | createTablet (tablet : TabletDescriptor)
  | createTableTopology (request : CreateTableRequest)
  | setDesiredReplicaPlacement (placement : DesiredReplicaPlacement)
  | recordReplicaRetirement (retirement : RetiredReplicaLifetime)
  | updateTableSchema (expectedSchemaVersion : Nat) (table : TableDefinition)
  deriving DecidableEq

/-- The checks that registering and updating a protection share. -/
def MetadataGcProtection.validateRequest (self : MetadataGcProtection) (nowMs : Nat) :
    Except MetadataCommandCodecError Unit := do
  validateGcProtectionIdentity self.ownerId self.protectionId
  rejectIf (self.protectedTimestamp = 0) zeroTimestamp
  validateLiveGcLease self.leaseDeadlineMs nowMs

def MetadataCommand.validate : MetadataCommand → Except MetadataCommandCodecError Unit
  | clusterInitialized clusterId => validateClusterId clusterId
  | registerClient clientId _ => validateClientId clientId
  | renewClient clientId sessionEpoch _ => do
    validateClientId clientId
    rejectIf (sessionEpoch = 0) zeroClientSessionEpoch
  | reserveTimestamps reservedUntil => rejectIf (reservedUntil = 0) zeroTimestamp
  | registerGcProtection protection nowMs
  | updateGcProtection protection nowMs => protection.validateRequest nowMs
  | renewGcProtection ownerId protectionId leaseDeadlineMs nowMs => do
    validateGcProtectionIdentity ownerId protectionId
    validateLiveGcLease leaseDeadlineMs nowMs
  | releaseGcProtection ownerId protectionId =>
    validateGcProtectionIdentity ownerId protectionId
  | advanceGcSafePoint candidate _ => rejectIf (candidate = 0) zeroTimestamp
  | registerNode node => node.validate
  | setNodeLifecycle nodeId _ => rejectIf (nodeId = 0) zeroNodeId
  | createTable table => validateTable table
  | createTablet tablet => tablet.validate
  | createTableTopology request => request.validate
  | setDesiredReplicaPlacement placement => placement.validate
  | recordReplicaRetirement retirement => retirement.validate
  | updateTableSchema expectedSchemaVersion table => do
    rejectIf (expectedSchemaVersion = 0) zeroExpectedSchemaVersion
    validateTable table

end RagnorDb
