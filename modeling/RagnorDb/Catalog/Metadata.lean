import RagnorDb.Catalog.MetadataCommand
import RagnorDb.Lib.IndexedMap

/-!
# The metadata state machine

The deterministic state of the metadata Raft group (`ragnordb-catalog/src/metadata.rs`): the
node directory, tables, tablets and their desired placements, retired replicas, client
sessions, timestamp reservations and GC protections.  A committed command may be rejected,
which leaves the state as it is.
-/

namespace RagnorDb

open Std Checked OrderedMap

/-- Initial desired replication factor. -/
def initialReplicationFactor : Nat := 3

/-- Initial tablet count of a table. -/
def initialTabletCount : Nat := 1

structure MetadataTableCreated where
  tableId : TableId
  tabletId : TabletId
  raftGroupId : RaftGroupId
  deriving DecidableEq

/-- Deterministic logical rejection of a committed metadata command. -/
inductive MetadataRejection where
  | invalidCommand (reason : String)
  | notInitialized
  | clusterConflict (existing received : String)
  | unknownClient (clientId : ClientId)
  | clientSessionEpochConflict (clientId : ClientId) (existing received : Nat)
  | clientSessionEpochExhausted (clientId : ClientId)
  | acknowledgementRegression (clientId : ClientId) (existing received : Nat)
  | retryHorizonExhausted (clientId : ClientId)
  | nodeIdConflict (nodeId : NodeId)
  | invalidNodeLifecycleTransition (nodeId : NodeId) (source target : String)
  | nodeStillExpected (nodeId : NodeId) (raftGroupId : RaftGroupId) (replicaId : ReplicaId)
  | nodeEndpointConflict (endpoint : String) (existingNode attemptedNode : Nat)
  | invalidTable (reason : String)
  | tableIdConflict (tableId : TableId)
  | tableNameConflict (name : String)
  | noRegisteredNodes
  | identitySpaceExhausted (kind : String)
  | timestampReservationRegressed (current received : Timestamp)
  | unknownGcProtection (ownerId protectionId : Nat)
  | gcProtectionIdentityConflict (ownerId protectionId : Nat) (existing received : Timestamp)
  | gcProtectionRegistrationConflict (ownerId protectionId : Nat)
  | expiredGcProtection (ownerId protectionId deadlineMs nowMs : Nat)
  | gcProtectionDeadlineRegressed (ownerId protectionId currentMs receivedMs : Nat)
  | gcProtectionBelowSafePoint (protectedAt safePoint : Timestamp)
  | gcSafePointRegressed (current received : Timestamp)
  | unknownTable (tableId : TableId)
  | tabletIdConflict (tabletId : TabletId)
  | raftGroupConflict (raftGroupId : RaftGroupId)
  | partitionCountMismatch (tableId : TableId) (expected received : Nat)
  | partitionConflict (tableId : TableId) (bucket : Nat)
  | tabletCountExceeded (tableId : TableId) (limit : Nat)
  | unknownTablet (tabletId : TabletId)
  | unknownNode (nodeId : NodeId)
  | nodeNotEligible (nodeId : NodeId) (lifecycle : String)
  | placementDomainUnsatisfied (domain : String) (required observed : Nat)
  | placementStorageClassMismatch (nodeId : NodeId) (required received : String)
  | initialPlacementEpoch (tabletId : TabletId) (received : Nat)
  | placementEpochMismatch (tabletId : TabletId) (expected received : Nat)
  | placementEpochExhausted (tabletId : TabletId)
  | retiredReplicaReuse (raftGroupId : RaftGroupId) (replicaId : ReplicaId)
  | unknownRaftGroup (raftGroupId : RaftGroupId)
  | retirementStillDesired (raftGroupId : RaftGroupId) (replicaId : ReplicaId)
  | retirementProofConflict (raftGroupId : RaftGroupId) (replicaId : ReplicaId)
  | replicaHostChanged (replicaId : ReplicaId) (previousNode newNode : NodeId)
  | unsupportedVoterDemotion (replicaId : ReplicaId)
  | schemaPreconditionMismatch (tableId : TableId) (expected current : Nat)
  | schemaVersionExhausted (tableId : TableId)
  | schemaVersionNotNext (tableId : TableId) (expected received : Nat)
  | tableRenameNotSupported (tableId : TableId)
  | tabletCountChangeNotSupported (tableId : TableId)
  | primaryKeyChangeNotSupported (tableId : TableId)
  | existingColumnChanged (columnId : ColumnId)
  | addedColumnMustBeNullable (columnId : ColumnId)
  | columnIdReuse (columnId : ColumnId)
  deriving DecidableEq

/-- The rejection's `Display` text, which is retained for the retries of a request. -/
def MetadataRejection.display : MetadataRejection → String
  | invalidCommand reason => s!"metadata command is invalid: {reason}"
  | notInitialized => "metadata has not committed ClusterInitialized"
  | clusterConflict existing received =>
    s!"metadata is already initialized for cluster {existing}, not {received}"
  | unknownClient clientId => s!"metadata has no registered retry session for client {clientId}"
  | clientSessionEpochConflict clientId existing received =>
    s!"client {clientId} session epoch conflicts with durable epoch {existing}; " ++
      s!"received {received}"
  | clientSessionEpochExhausted clientId =>
    s!"client {clientId} session epoch space is exhausted"
  | acknowledgementRegression clientId existing received =>
    s!"client {clientId} acknowledgement regressed from {existing} to {received}"
  | retryHorizonExhausted clientId =>
    s!"client {clientId} retry horizon sequence space is exhausted"
  | nodeIdConflict nodeId =>
    s!"node {nodeId} is already registered with a different directory record"
  | invalidNodeLifecycleTransition nodeId source target =>
    s!"node {nodeId} cannot transition from lifecycle {source} to {target}"
  | nodeStillExpected nodeId raftGroupId replicaId =>
    s!"node {nodeId} cannot enter terminal lifecycle while replica {replicaId} of Raft " ++
      s!"group {raftGroupId} is still desired"
  | nodeEndpointConflict endpoint existingNode attemptedNode =>
    s!"endpoint {endpoint} is already owned by node {existingNode}; node {attemptedNode} " ++
      "cannot reuse it"
  | invalidTable reason => s!"table definition is invalid: {reason}"
  | tableIdConflict tableId => s!"table ID {tableId} is already assigned to another table"
  | tableNameConflict name => s!"table name {name} is already assigned"
  | noRegisteredNodes => "CREATE TABLE requires at least one registered physical node"
  | identitySpaceExhausted kind => s!"metadata {kind} identity space is exhausted"
  | timestampReservationRegressed current received =>
    s!"timestamp reservation regressed from Timestamp({current}) to Timestamp({received})"
  | unknownGcProtection ownerId protectionId =>
    s!"GC protection ({ownerId}, {protectionId}) is not registered"
  | gcProtectionIdentityConflict ownerId protectionId existing received =>
    s!"GC protection ({ownerId}, {protectionId}) changed its protected timestamp from " ++
      s!"Timestamp({existing}) to Timestamp({received})"
  | gcProtectionRegistrationConflict ownerId protectionId =>
    s!"GC protection ({ownerId}, {protectionId}) is already registered; renew its lease " ++
      "instead of registering it again"
  | expiredGcProtection ownerId protectionId deadlineMs nowMs =>
    s!"GC protection ({ownerId}, {protectionId}) expired at {deadlineMs} ms and cannot be " ++
      s!"renewed at {nowMs} ms"
  | gcProtectionDeadlineRegressed ownerId protectionId currentMs receivedMs =>
    s!"GC protection ({ownerId}, {protectionId}) deadline regressed from {currentMs} to " ++
      s!"{receivedMs} ms"
  | gcProtectionBelowSafePoint protectedAt safePoint =>
    s!"GC protection timestamp Timestamp({protectedAt}) is below safe point " ++
      s!"Timestamp({safePoint})"
  | gcSafePointRegressed current received =>
    s!"GC safe point regressed from Timestamp({current}) to Timestamp({received})"
  | unknownTable tableId => s!"metadata references unknown table {tableId}"
  | tabletIdConflict tabletId => s!"tablet ID {tabletId} is already assigned differently"
  | raftGroupConflict raftGroupId =>
    s!"Raft group {raftGroupId} is already assigned to another tablet"
  | partitionCountMismatch tableId expected received =>
    s!"table {tableId} expects {expected} hash buckets but tablet metadata declares {received}"
  | partitionConflict tableId bucket => s!"table {tableId} already owns hash bucket {bucket}"
  | tabletCountExceeded tableId limit =>
    s!"table {tableId} already has all {limit} configured tablets"
  | unknownTablet tabletId => s!"metadata references unknown tablet {tabletId}"
  | unknownNode nodeId => s!"desired placement references unknown node {nodeId}"
  | nodeNotEligible nodeId lifecycle =>
    s!"desired placement references node {nodeId} in lifecycle state {lifecycle}"
  | placementDomainUnsatisfied domain required observed =>
    s!"desired placement requires {required} distinct {domain}, but only {observed} " ++
      "eligible values are present"
  | placementStorageClassMismatch nodeId required received =>
    s!"desired placement requires storage class {required}, but node NodeId({nodeId}) has " ++
      s!"{received}"
  | initialPlacementEpoch tabletId received =>
    s!"first desired placement for tablet {tabletId} must use configuration epoch 1, " ++
      s!"received {received}"
  | placementEpochMismatch tabletId expected received =>
    s!"tablet {tabletId} placement must advance to epoch {expected}, received {received}"
  | placementEpochExhausted tabletId =>
    s!"configuration epoch space is exhausted for tablet {tabletId}"
  | retiredReplicaReuse raftGroupId replicaId =>
    s!"replica {replicaId} of Raft group {raftGroupId} was retired and may never be reused"
  | unknownRaftGroup raftGroupId =>
    s!"metadata references unknown Raft group RaftGroupId({raftGroupId})"
  | retirementStillDesired raftGroupId replicaId =>
    s!"replica {replicaId} of Raft group {raftGroupId} is still present in desired placement"
  | retirementProofConflict raftGroupId replicaId =>
    s!"retirement proof for replica {replicaId} of Raft group {raftGroupId} conflicts with " ++
      "the existing proof"
  | replicaHostChanged replicaId previousNode newNode =>
    s!"replica {replicaId} cannot move from node {previousNode} to node {newNode}; " ++
      "allocate a new ReplicaId"
  | unsupportedVoterDemotion replicaId =>
    s!"replica {replicaId} cannot transition from voter back to learner; replace the " ++
      "replica lifetime instead"
  | schemaPreconditionMismatch tableId expected current =>
    s!"schema update for table {tableId} expected version {expected} but current version " ++
      s!"is {current}"
  | schemaVersionExhausted tableId =>
    s!"schema version space is exhausted for table {tableId}"
  | schemaVersionNotNext tableId expected received =>
    s!"schema update for table {tableId} must advance to version {expected}, received " ++
      s!"{received}"
  | tableRenameNotSupported tableId => s!"schema update cannot rename table {tableId}"
  | tabletCountChangeNotSupported tableId =>
    s!"schema update cannot change tablet count for table {tableId}"
  | primaryKeyChangeNotSupported tableId =>
    s!"schema update cannot change the primary key for table {tableId}"
  | existingColumnChanged columnId => s!"schema update changed existing column {columnId}"
  | addedColumnMustBeNullable columnId =>
    s!"new column {columnId} must be nullable until a default/backfill protocol exists"
  | columnIdReuse columnId =>
    s!"new column ID {columnId} must be greater than all previously allocated column IDs"

/-- Result of applying one committed metadata command. -/
inductive MetadataApplyOutcome where
  | applied
  | alreadyApplied
  | clientRegistered (clientId : ClientId) (sessionEpoch : Nat)
  | clientRenewed
  | timestampsReserved (reservedFrom reservedUntil : Timestamp)
  | tableCreated (created : MetadataTableCreated)
  | rejected (rejection : MetadataRejection)
  deriving DecidableEq

/-- Result retained for one request identity. -/
inductive MetadataCachedOutcome where
  | applied
  | alreadyApplied
  | clientRegistered (clientId : ClientId) (sessionEpoch : Nat)
  | clientRenewed
  | tableCreated (created : MetadataTableCreated)
  | timestampsReserved (reservedFrom reservedUntil : Timestamp)
  | timestampReservationRegressed (current received : Timestamp)
  | rejected (reason : String)
  deriving DecidableEq

def metadataOutcomeToCached : MetadataApplyOutcome → MetadataCachedOutcome
  | .applied => .applied
  | .alreadyApplied => .alreadyApplied
  | .clientRegistered clientId sessionEpoch => .clientRegistered clientId sessionEpoch
  | .clientRenewed => .clientRenewed
  | .timestampsReserved reservedFrom reservedUntil =>
    .timestampsReserved reservedFrom reservedUntil
  | .tableCreated created => .tableCreated created
  | .rejected (.timestampReservationRegressed current received) =>
    .timestampReservationRegressed current received
  | .rejected rejection => .rejected rejection.display

def metadataOutcomeFromCached : MetadataCachedOutcome → MetadataApplyOutcome
  | .applied => .applied
  | .alreadyApplied => .alreadyApplied
  | .clientRegistered clientId sessionEpoch => .clientRegistered clientId sessionEpoch
  | .clientRenewed => .clientRenewed
  | .timestampsReserved reservedFrom reservedUntil =>
    .timestampsReserved reservedFrom reservedUntil
  | .tableCreated created => .tableCreated created
  | .timestampReservationRegressed current received =>
    .rejected (.timestampReservationRegressed current received)
  | .rejected reason => .rejected (.invalidCommand reason)

/-- Durable retry-session state. -/
structure MetadataClientSession where
  clientId : ClientId
  sessionEpoch : Nat
  acknowledgedThrough : Nat
  firstRetainedSequence : Nat
  deriving DecidableEq

/-- Monotonic identity high-water marks. -/
structure MetadataAllocatorState where
  maxTableId : Nat
  maxTabletId : Nat
  maxRaftGroupId : Nat
  /-- Highest replica identity ever published in metadata. -/
  maxReplicaId : Nat
  deriving DecidableEq

def MetadataAllocatorState.initial : MetadataAllocatorState where
  maxTableId := initialMetadataTableHighWater
  maxTabletId := initialMetadataTabletHighWater
  maxRaftGroupId := initialMetadataRaftGroupHighWater
  maxReplicaId := 0

abbrev NodeMap := ExtTreeMap NodeId NodeDescriptor compare
abbrev TableMap := ExtTreeMap TableId TableSchema compare
abbrev TabletMap := ExtTreeMap TabletId TabletDescriptor compare
abbrev GroupMap := ExtTreeMap RaftGroupId TabletId compare
abbrev BucketMap := ExtTreeMap (TableId × Nat) TabletId comparePair
abbrev PlacementMap := ExtTreeMap TabletId DesiredReplicaPlacement compare
abbrev RetiredMap := ExtTreeMap (RaftGroupId × ReplicaId) RetiredReplicaLifetime comparePair

/-- Complete deterministic projection of committed metadata. -/
structure MetadataState where
  clusterId : Option String
  allocator : MetadataAllocatorState
  timestampReservedUntil : Timestamp
  gcSafePoint : Timestamp
  gcProtections : ExtTreeMap (Nat × Nat) MetadataGcProtection comparePair
  nodes : NodeMap
  tables : TableMap
  tableIdsByName : ExtTreeMap String TableId compare
  tablets : TabletMap
  tabletIdsByRaftGroup : GroupMap
  tabletIdsByPartition : BucketMap
  desiredPlacements : PlacementMap
  retiredReplicas : RetiredMap
  requestDeduplication : ExtTreeMap LogicalCommandId MetadataCachedOutcome compare
  clientSessions : ExtTreeMap ClientId MetadataClientSession compare

/-! ## Nodes -/

def NodeDescriptor.endpoints (node : NodeDescriptor) : List String :=
  [node.raftAddr, node.snapshotAddr, node.sqlAddr, node.adminAddr]

def sameNodeDirectory (left right : NodeDescriptor) : Bool :=
  left.nodeId = right.nodeId && left.raftAddr = right.raftAddr &&
    left.snapshotAddr = right.snapshotAddr && left.sqlAddr = right.sqlAddr &&
    left.adminAddr = right.adminAddr && left.region = right.region && left.zone = right.zone &&
    left.rack = right.rack && left.storageClass = right.storageClass

namespace NodeLifecycle

def canAdvance : NodeLifecycle → NodeLifecycle → Bool
  | active, draining | draining, decommissioning | decommissioning, decommissioned
  | decommissioned, tombstoned => true
  | _, _ => false

def rank : NodeLifecycle → Nat
  | active => 0
  | draining => 1
  | decommissioning => 2
  | decommissioned => 3
  | tombstoned => 4

def name : NodeLifecycle → String
  | active => "active"
  | draining => "draining"
  | decommissioning => "decommissioning"
  | decommissioned => "decommissioned"
  | tombstoned => "tombstoned"

end NodeLifecycle

/-! ## Initial placement -/

/-- The distinct labels of a kind. -/
def distinct (label : NodeDescriptor → Option String) (nodes : List NodeDescriptor) : List String :=
  (nodes.filterMap label).eraseDups

/-- How many labels of a candidate no selected node has. -/
def localityGain (candidate : NodeDescriptor) (selected : List NodeDescriptor) : Nat :=
  let gain (label : NodeDescriptor → Option String) : Nat :=
    if (label candidate).any (· ∉ distinct label selected) then 1 else 0
  gain (·.region) + gain (·.zone) + gain (·.rack)

/-- The candidate with the greatest gain, and the smallest identity among those. -/
def bestCandidate (selected : List NodeDescriptor) : List NodeDescriptor → Option NodeDescriptor
  | [] => none
  | node :: nodes =>
    match bestCandidate selected nodes with
    | none => some node
    | some best =>
      let gain := localityGain node selected
      let bestGain := localityGain best selected
      if bestGain < gain ∨ bestGain = gain ∧ node.nodeId < best.nodeId then some node
      else some best

/-- Select nodes one after another.  The choice does not depend on the order of the
candidates, which `swap_remove` changes. -/
def selectNodes (nodes : NodeMap) :
    Nat → List NodeDescriptor → List NodeId → Option (List NodeId)
  | 0, _, selected => some selected
  | count + 1, candidates, selected => do
    let best ← bestCandidate (selected.filterMap (nodes[·]?)) candidates
    selectNodes nodes count (candidates.erase best) (selected ++ [best.nodeId])

/-- The nodes that may get replicas. -/
def activeNodes (nodes : NodeMap) : List NodeDescriptor :=
  (values nodes).filter (·.lifecycle = .active)

/-- The initial voters and the policy they satisfy. -/
def selectInitialPlacement (nodes : NodeMap) :
    Option (List NodeId × PlacementPolicy) := do
  let candidates := activeNodes nodes
  if candidates = [] then none else
  let targetCount := min candidates.length initialReplicationFactor
  let selected ← selectNodes nodes targetCount candidates []
  let selectedNodes := selected.filterMap (nodes[·]?)
  return (selected,
    { replicationFactor := targetCount
      minDistinctRegions := (distinct (·.region) selectedNodes).length
      minDistinctZones := (distinct (·.zone) selectedNodes).length
      minDistinctRacks := (distinct (·.rack) selectedNodes).length
      requiredStorageClass := none
      preferredLeaderNodes := [] })

/-- Whether two half-open ranges overlap. -/
def rangesOverlap (leftStart leftEnd rightStart rightEnd : Bytes) : Bool :=
  let leftBeforeRight := leftEnd ≠ [] ∧ rightStart ≠ [] ∧ leftEnd ≤ rightStart
  let rightBeforeLeft := rightEnd ≠ [] ∧ leftStart ≠ [] ∧ rightEnd ≤ leftStart
  ¬ (leftBeforeRight ∨ rightBeforeLeft)

/-- Whether a partition is a range that overlaps the given one. -/
def PartitionSpec.overlapsRange (startKey endKey : Bytes) : PartitionSpec → Bool
  | .range existingStart existingEnd => rangesOverlap startKey endKey existingStart existingEnd
  | .hash _ _ => false

/-! ## Commands -/

namespace MetadataState

open MetadataRejection

def new : MetadataState where
  clusterId := none
  allocator := .initial
  timestampReservedUntil := 0
  gcSafePoint := 0
  gcProtections := ∅
  nodes := ∅
  tables := ∅
  tableIdsByName := ∅
  tablets := ∅
  tabletIdsByRaftGroup := ∅
  tabletIdsByPartition := ∅
  desiredPlacements := ∅
  retiredReplicas := ∅
  requestDeduplication := ∅
  clientSessions := ∅

variable (self : MetadataState)

/-- The outcome of an accepted command and the state after it. -/
abbrev Accepted := MetadataApplyOutcome × MetadataState

/-- The next replica identity that was never published. -/
def nextReplicaId : Option ReplicaId :=
  (checkedAdd self.allocator.maxReplicaId 1).filter (· ≠ 0)

def requireInitialized : Except MetadataRejection Unit :=
  rejectIf (self.clusterId = none) notInitialized

def applyClusterInitialized (clusterId : String) : Except MetadataRejection Accepted :=
  match self.clusterId with
  | none => .ok (.applied, { self with clusterId := some clusterId })
  | some existing =>
    if existing = clusterId then .ok (.alreadyApplied, self)
    else .error (clusterConflict existing clusterId)

def applyReserveTimestamps (reservedUntil : Timestamp) : Except MetadataRejection Accepted := do
  self.requireInitialized
  rejectIf (reservedUntil ≤ self.timestampReservedUntil)
    (timestampReservationRegressed self.timestampReservedUntil reservedUntil)
  return (.timestampsReserved (self.timestampReservedUntil + 1) reservedUntil,
    { self with timestampReservedUntil := reservedUntil })

def putGcProtection (protection : MetadataGcProtection) : MetadataState :=
  { self with
    gcProtections :=
      self.gcProtections.insert (protection.ownerId, protection.protectionId) protection }

def applyRegisterGcProtection (protection : MetadataGcProtection) :
    Except MetadataRejection Accepted := do
  self.requireInitialized
  rejectIf (protection.protectedTimestamp < self.gcSafePoint)
    (gcProtectionBelowSafePoint protection.protectedTimestamp self.gcSafePoint)
  match self.gcProtections[(protection.ownerId, protection.protectionId)]? with
  | some existing => do
    rejectIf (existing.protectedTimestamp ≠ protection.protectedTimestamp)
      (gcProtectionIdentityConflict protection.ownerId protection.protectionId
        existing.protectedTimestamp protection.protectedTimestamp)
    .error (gcProtectionRegistrationConflict protection.ownerId protection.protectionId)
  | none => return (.applied, self.putGcProtection protection)

def applyUpdateGcProtection (protection : MetadataGcProtection) (nowMs : Nat) :
    Except MetadataRejection Accepted := do
  self.requireInitialized
  rejectIf (protection.protectedTimestamp < self.gcSafePoint)
    (gcProtectionBelowSafePoint protection.protectedTimestamp self.gcSafePoint)
  let existing ← okOr self.gcProtections[(protection.ownerId, protection.protectionId)]?
    (unknownGcProtection protection.ownerId protection.protectionId)
  rejectIf (existing.leaseDeadlineMs ≤ nowMs) (expiredGcProtection protection.ownerId
    protection.protectionId existing.leaseDeadlineMs nowMs)
  rejectIf (protection.leaseDeadlineMs < existing.leaseDeadlineMs)
    (gcProtectionDeadlineRegressed protection.ownerId protection.protectionId
      existing.leaseDeadlineMs protection.leaseDeadlineMs)
  if protection.protectedTimestamp = existing.protectedTimestamp ∧
      protection.leaseDeadlineMs = existing.leaseDeadlineMs then
    return (.alreadyApplied, self)
  else
    return (.applied, self.putGcProtection protection)

def applyRenewGcProtection (ownerId protectionId leaseDeadlineMs nowMs : Nat) :
    Except MetadataRejection Accepted := do
  self.requireInitialized
  let existing ← okOr self.gcProtections[(ownerId, protectionId)]?
    (unknownGcProtection ownerId protectionId)
  rejectIf (existing.leaseDeadlineMs ≤ nowMs)
    (expiredGcProtection ownerId protectionId existing.leaseDeadlineMs nowMs)
  if leaseDeadlineMs = existing.leaseDeadlineMs then
    return (.alreadyApplied, self)
  else do
    rejectIf (leaseDeadlineMs < existing.leaseDeadlineMs) (gcProtectionDeadlineRegressed ownerId
      protectionId existing.leaseDeadlineMs leaseDeadlineMs)
    return (.applied,
      { self with
        gcProtections := self.gcProtections.insert (ownerId, protectionId)
          { existing with leaseDeadlineMs } })

def applyReleaseGcProtection (ownerId protectionId : Nat) : Except MetadataRejection Accepted := do
  self.requireInitialized
  return (if (ownerId, protectionId) ∈ self.gcProtections then .applied else .alreadyApplied,
    { self with gcProtections := self.gcProtections.erase (ownerId, protectionId) })

/-- Expiration is evaluated from the committed command's clock. -/
def applyAdvanceGcSafePoint (candidate : Timestamp) (nowMs : Nat) :
    Except MetadataRejection Accepted := do
  self.requireInitialized
  rejectIf (candidate < self.gcSafePoint) (gcSafePointRegressed self.gcSafePoint candidate)
  let retained := self.gcProtections.filter fun _ protection => nowMs < protection.leaseDeadlineMs
  let protectedFloor := ((values retained).map (·.protectedTimestamp)).min?
  let gcSafePoint := protectedFloor.elim candidate (min candidate)
  let unchanged := self.gcSafePoint = gcSafePoint ∧ self.gcProtections.size = retained.size
  return (if unchanged then .alreadyApplied else .applied,
    { self with gcProtections := retained, gcSafePoint })

/-- A fresh session of the client. -/
def registerSession (clientId : ClientId) (sessionEpoch : Nat) : Accepted :=
  (.clientRegistered clientId sessionEpoch,
    { self with
      clientSessions := self.clientSessions.insert clientId
        { clientId, sessionEpoch, acknowledgedThrough := 0, firstRetainedSequence := 1 } })

def applyRegisterClient (clientId : ClientId) (requestedSessionEpoch : Nat) :
    Except MetadataRejection Accepted := do
  self.requireInitialized
  match self.clientSessions[clientId]? with
  | none => return self.registerSession clientId (max requestedSessionEpoch 1)
  | some existing =>
    if requestedSessionEpoch = existing.sessionEpoch then
      return (.alreadyApplied, self)
    else do
      rejectIf (requestedSessionEpoch ≠ 0 ∧ requestedSessionEpoch < existing.sessionEpoch)
        (clientSessionEpochConflict clientId existing.sessionEpoch requestedSessionEpoch)
      let epoch ← okOr (checkedAdd existing.sessionEpoch 1)
        (clientSessionEpochExhausted clientId)
      rejectIf (requestedSessionEpoch ≠ 0 ∧ requestedSessionEpoch ≠ epoch)
        (clientSessionEpochConflict clientId (epoch - 1) requestedSessionEpoch)
      return self.registerSession clientId epoch

def applyRenewClient (clientId : ClientId) (sessionEpoch acknowledgedThrough : Nat) :
    Except MetadataRejection Accepted := do
  self.requireInitialized
  let session ← okOr self.clientSessions[clientId]? (unknownClient clientId)
  rejectIf (session.sessionEpoch ≠ sessionEpoch)
    (clientSessionEpochConflict clientId session.sessionEpoch sessionEpoch)
  rejectIf (acknowledgedThrough < session.acknowledgedThrough)
    (acknowledgementRegression clientId session.acknowledgedThrough acknowledgedThrough)
  if acknowledgedThrough = session.acknowledgedThrough then
    return (.alreadyApplied, self)
  else do
    let firstRetainedSequence ← okOr (checkedAdd acknowledgedThrough 1)
      (retryHorizonExhausted clientId)
    return (.clientRenewed,
      { self with
        clientSessions := self.clientSessions.insert clientId
          { session with acknowledgedThrough, firstRetainedSequence } })

/-- The first desired replica on the node, in tablet order. -/
def expectedReplica (nodeId : NodeId) : Option (RaftGroupId × ReplicaId) :=
  let desired := (values self.tablets).flatMap fun tablet =>
    match self.desiredPlacements[tablet.tabletId]? with
    | none => []
    | some placement => placement.replicas.map fun replica => (tablet.raftGroupId, replica)
  (desired.find? (·.2.nodeId = nodeId)).map fun found => (found.1, found.2.replicaId)

def putNode (node : NodeDescriptor) : MetadataState :=
  { self with nodes := self.nodes.insert node.nodeId node }

def applySetNodeLifecycle (nodeId : NodeId) (lifecycle : NodeLifecycle) :
    Except MetadataRejection Accepted := do
  self.requireInitialized
  let existing ← okOr self.nodes[nodeId]? (unknownNode nodeId)
  if existing.lifecycle = lifecycle then
    return (.alreadyApplied, self)
  else do
    rejectIf (¬ existing.lifecycle.canAdvance lifecycle)
      (invalidNodeLifecycleTransition nodeId existing.lifecycle.name lifecycle.name)
    match (if lifecycle = .decommissioned ∨ lifecycle = .tombstoned then
        self.expectedReplica nodeId else none) with
    | some (raftGroupId, replicaId) => .error (nodeStillExpected nodeId raftGroupId replicaId)
    | none =>
      return (.applied,
        { self with nodes := self.nodes.insert nodeId { existing with lifecycle } })

/-- The first endpoint that a registered node already owns. -/
def endpointConflict (node : NodeDescriptor) : Option MetadataRejection :=
  (values self.nodes).findSome? fun existing =>
    (node.endpoints.find? (· ∈ existing.endpoints)).map fun endpoint =>
      nodeEndpointConflict endpoint existing.nodeId node.nodeId

def applyRegisterNode (node : NodeDescriptor) : Except MetadataRejection Accepted := do
  self.requireInitialized
  match self.nodes[node.nodeId]? with
  | some existing =>
    if existing = node then return (.alreadyApplied, self)
    -- Resubmitting a whole record takes the path of the lifecycle command.
    else if sameNodeDirectory existing node then
      self.applySetNodeLifecycle node.nodeId node.lifecycle
    else .error (nodeIdConflict node.nodeId)
  | none =>
    match self.endpointConflict node with
    | some conflict => .error conflict
    | none => do
      rejectIf (node.lifecycle ≠ .active)
        (invalidNodeLifecycleTransition node.nodeId "unregistered" node.lifecycle.name)
      return (.applied, self.putNode node)

/-- Publish a table with its name. -/
def putTable (schema : TableSchema) : MetadataState :=
  { self with
    tables := self.tables.insert schema.id schema
    tableIdsByName := self.tableIdsByName.insert schema.name schema.id
    allocator := { self.allocator with maxTableId := max self.allocator.maxTableId schema.id } }

def applyCreateTable (table : TableDefinition) : Except MetadataRejection Accepted := do
  self.requireInitialized
  let schema ← (TableSchema.fromDefinition table).mapError (invalidTable ·.display)
  match self.tables[schema.id]? with
  | some existing =>
    if existing = schema then return (.alreadyApplied, self)
    else .error (tableIdConflict schema.id)
  | none => do
    rejectIf (schema.name ∈ self.tableIdsByName) (tableNameConflict schema.name)
    return (.applied, self.putTable schema)

/-- Whether a tablet's partition fits the tablets its table already has. -/
def checkPartition (tablet : TabletDescriptor) (table : TableSchema) :
    Except MetadataRejection Unit :=
  let siblings := (values self.tablets).filter (·.tableId = tablet.tableId)
  match tablet.partition with
  | .hash bucket bucketCount => do
    rejectIf (bucketCount ≠ table.tabletCount)
      (partitionCountMismatch tablet.tableId table.tabletCount bucketCount)
    rejectIf ((tablet.tableId, bucket) ∈ self.tabletIdsByPartition)
      (partitionConflict tablet.tableId bucket)
    rejectIf (table.tabletCount ≤ siblings.length)
      (tabletCountExceeded tablet.tableId table.tabletCount)
  | .range startKey endKey =>
    rejectIf (siblings.any (·.partition.overlapsRange startKey endKey))
      (invalidCommand "tablet key range overlaps an existing range")

/-- Publish a tablet with its indexes. -/
def putTablet (tablet : TabletDescriptor) : MetadataState :=
  { self with
    tabletIdsByRaftGroup := self.tabletIdsByRaftGroup.insert tablet.raftGroupId tablet.tabletId
    tabletIdsByPartition := match tablet.partition with
      | .hash bucket _ =>
        self.tabletIdsByPartition.insert (tablet.tableId, bucket) tablet.tabletId
      | .range _ _ => self.tabletIdsByPartition
    tablets := self.tablets.insert tablet.tabletId tablet
    allocator :=
      { self.allocator with
        maxTabletId := max self.allocator.maxTabletId tablet.tabletId
        maxRaftGroupId := max self.allocator.maxRaftGroupId tablet.raftGroupId } }

def applyCreateTablet (tablet : TabletDescriptor) : Except MetadataRejection Accepted := do
  self.requireInitialized
  match self.tablets[tablet.tabletId]? with
  | some existing =>
    if existing = tablet then return (.alreadyApplied, self)
    else .error (tabletIdConflict tablet.tabletId)
  | none => do
    rejectIf (tablet.raftGroupId ∈ self.tabletIdsByRaftGroup)
      (raftGroupConflict tablet.raftGroupId)
    let table ← okOr self.tables[tablet.tableId]? (unknownTable tablet.tableId)
    self.checkPartition tablet table
    return (.applied, self.putTablet tablet)

/-- The replicas of an initial placement are numbered from 1. -/
def initialReplicas (nodeIds : List NodeId) : List DesiredReplica :=
  nodeIds.mapIdx fun index nodeId => ⟨index + 1, nodeId, .voter⟩

/-- Atomically allocate and publish one table with its initial topology. -/
def applyCreateTableTopology (request : CreateTableRequest) :
    Except MetadataRejection Accepted := do
  self.requireInitialized
  rejectIf (request.tableName ∈ self.tableIdsByName) (tableNameConflict request.tableName)
  let (selectedNodes, placementPolicy) ← okOr (selectInitialPlacement self.nodes) noRegisteredNodes
  rejectIf (selectedNodes = []) noRegisteredNodes
  let tableId ← okOr (checkedAdd self.allocator.maxTableId 1) (identitySpaceExhausted "table")
  let tabletId ← okOr (checkedAdd self.allocator.maxTabletId 1) (identitySpaceExhausted "tablet")
  let raftGroupId ← okOr (checkedAdd self.allocator.maxRaftGroupId 1)
    (identitySpaceExhausted "Raft group")
  let schema ← (TableSchema.fromDefinition
    { tableId, name := request.tableName, columns := request.columns,
      primaryKeyColumnIds := request.primaryKeyColumnIds, schemaVersion := 1,
      tabletCount := initialTabletCount }).mapError (invalidTable ·.display)
  let tablet : TabletDescriptor :=
    { tabletId, tableId, raftGroupId, tabletEpoch := 1, partition := .range [] [] }
  tablet.validate.mapError (invalidCommand ·.display)
  let placement : DesiredReplicaPlacement :=
    { tabletId, configurationEpoch := 1, replicas := initialReplicas selectedNodes,
      placementPolicy }
  placement.validate.mapError (invalidCommand ·.display)
  rejectIf (tableId ∈ self.tables ∨ tabletId ∈ self.tablets ∨
      raftGroupId ∈ self.tabletIdsByRaftGroup)
    (invalidCommand "metadata allocator produced an occupied identity")
  return (.tableCreated ⟨tableId, tabletId, raftGroupId⟩,
    { self with
      tables := self.tables.insert tableId schema
      tableIdsByName := self.tableIdsByName.insert schema.name tableId
      tabletIdsByRaftGroup := self.tabletIdsByRaftGroup.insert raftGroupId tabletId
      tablets := self.tablets.insert tabletId tablet
      desiredPlacements := self.desiredPlacements.insert tabletId placement
      allocator :=
        { maxTableId := tableId
          maxTabletId := tabletId
          maxRaftGroupId := raftGroupId
          maxReplicaId := (placement.replicas.map (·.replicaId)).max?.getD
            self.allocator.maxReplicaId } })

/-- Whether a placement desires the replica. -/
def desires (placement : Option DesiredReplicaPlacement) (replicaId : ReplicaId) : Bool :=
  placement.any fun placement => placement.replicas.any (·.replicaId = replicaId)

def applyReplicaRetirement (retirement : RetiredReplicaLifetime) :
    Except MetadataRejection Accepted := do
  self.requireInitialized
  let tabletId ← okOr self.tabletIdsByRaftGroup[retirement.raftGroupId]?
    (unknownRaftGroup retirement.raftGroupId)
  rejectIf (desires self.desiredPlacements[tabletId]? retirement.replicaId)
    (retirementStillDesired retirement.raftGroupId retirement.replicaId)
  match self.retiredReplicas[(retirement.raftGroupId, retirement.replicaId)]? with
  | some existing =>
    if existing = retirement then return (.alreadyApplied, self)
    else .error (retirementProofConflict retirement.raftGroupId retirement.replicaId)
  | none => do
    let placement ← okOr self.desiredPlacements[tabletId]? (unknownTablet tabletId)
    rejectIf (placement.configurationEpoch ≠ retirement.desiredConfigurationEpoch)
      (placementEpochMismatch tabletId placement.configurationEpoch
        retirement.desiredConfigurationEpoch)
    return (.applied,
      { self with
        retiredReplicas := self.retiredReplicas.insert
          (retirement.raftGroupId, retirement.replicaId) retirement })

/-- Whether a placement already has the replica on this node. -/
def retains (existing : Option DesiredReplicaPlacement) (replica : DesiredReplica) : Bool :=
  existing.any fun previous => previous.replicas.any fun old =>
    old.replicaId = replica.replicaId && old.nodeId = replica.nodeId

def checkStorageClass (policy : PlacementPolicy) (nodeId : NodeId) (node : NodeDescriptor) :
    Except MetadataRejection Unit :=
  match policy.requiredStorageClass with
  | some required =>
    rejectIf (node.storageClass ≠ required)
      (placementStorageClassMismatch nodeId required node.storageClass)
  | none => .ok ()

/-- The checks of one replica of a new placement. -/
def checkReplica (tablet : TabletDescriptor) (existing : Option DesiredReplicaPlacement)
    (policy : PlacementPolicy) (replica : DesiredReplica) : Except MetadataRejection Unit := do
  let node ← okOr self.nodes[replica.nodeId]? (unknownNode replica.nodeId)
  rejectIf (node.lifecycle ≠ .active ∧ ¬ (retains existing replica ∧
      (node.lifecycle = .draining ∨ node.lifecycle = .decommissioning)))
    (nodeNotEligible replica.nodeId node.lifecycle.name)
  checkStorageClass policy replica.nodeId node
  rejectIf ((tablet.raftGroupId, replica.replicaId) ∈ self.retiredReplicas)
    (retiredReplicaReuse tablet.raftGroupId replica.replicaId)

def checkPreferredLeader (nodeId : NodeId) : Except MetadataRejection Unit := do
  let node ← okOr self.nodes[nodeId]? (unknownNode nodeId)
  rejectIf (node.lifecycle ≠ .active) (nodeNotEligible nodeId node.lifecycle.name)

/-- The number of distinct labels among the nodes of a placement. -/
def checkDomain (placement : DesiredReplicaPlacement) (domain : String) (required : Nat)
    (label : NodeDescriptor → Option String) : Except MetadataRejection Unit :=
  let nodes := placement.replicas.filterMap fun replica => self.nodes[replica.nodeId]?
  let observed := (distinct label nodes).length
  rejectIf (0 < required ∧ observed < required)
    (placementDomainUnsatisfied domain required observed)

/-- A replica that stays keeps its node, and a voter stays a voter. -/
def checkSuccessor (existing : DesiredReplicaPlacement) (replica : DesiredReplica) :
    Except MetadataRejection Unit :=
  -- The source collects the old replicas into a map, where the last of an identity stays.
  match existing.replicas.reverse.find? (·.replicaId = replica.replicaId) with
  | none => .ok ()
  | some old => do
    rejectIf (old.nodeId ≠ replica.nodeId)
      (replicaHostChanged replica.replicaId old.nodeId replica.nodeId)
    rejectIf (old.role = .voter ∧ replica.role = .learner)
      (unsupportedVoterDemotion replica.replicaId)

def checkEpoch (existing : Option DesiredReplicaPlacement) (placement : DesiredReplicaPlacement) :
    Except MetadataRejection Unit :=
  match existing with
  | none =>
    rejectIf (placement.configurationEpoch ≠ 1)
      (initialPlacementEpoch placement.tabletId placement.configurationEpoch)
  | some existing => do
    let expected ← okOr (checkedAdd existing.configurationEpoch 1)
      (placementEpochExhausted placement.tabletId)
    rejectIf (placement.configurationEpoch ≠ expected)
      (placementEpochMismatch placement.tabletId expected placement.configurationEpoch)
    placement.replicas.forM (checkSuccessor existing)

def applyDesiredPlacement (placement : DesiredReplicaPlacement) :
    Except MetadataRejection Accepted := do
  self.requireInitialized
  let tablet ← okOr self.tablets[placement.tabletId]? (unknownTablet placement.tabletId)
  let existing := self.desiredPlacements[placement.tabletId]?
  if existing = some placement then
    return (.alreadyApplied, self)
  else do
    let policy := placement.placementPolicy
    placement.replicas.forM (self.checkReplica tablet existing policy)
    policy.preferredLeaderNodes.forM self.checkPreferredLeader
    self.checkDomain placement "regions" policy.minDistinctRegions (·.region)
    self.checkDomain placement "zones" policy.minDistinctZones (·.zone)
    self.checkDomain placement "racks" policy.minDistinctRacks (·.rack)
    checkEpoch existing placement
    let highest := (placement.replicas.map (·.replicaId)).max?.getD 0
    return (.applied,
      { self with
        allocator :=
          { self.allocator with maxReplicaId := max self.allocator.maxReplicaId highest }
        desiredPlacements := self.desiredPlacements.insert placement.tabletId placement })

/-- No column is dropped. -/
def checkColumnCount (existing updated : List ColumnSchema) : Except MetadataRejection Unit :=
  match existing[updated.length]? with
  | some dropped => .error (existingColumnChanged dropped.id)
  | none => .ok ()

/-- The existing columns stay as they are, in their places. -/
def checkExistingColumns (existing updated : List ColumnSchema) : Except MetadataRejection Unit :=
  (existing.zip updated).forM fun (existingColumn, updatedColumn) =>
    rejectIf (existingColumn ≠ updatedColumn) (existingColumnChanged existingColumn.id)

def checkAddedColumn (maxExistingColumnId : Nat) (column : ColumnSchema) :
    Except MetadataRejection Unit := do
  rejectIf (column.id ≤ maxExistingColumnId) (columnIdReuse column.id)
  rejectIf (¬ column.nullable) (addedColumnMustBeNullable column.id)

/-- What a schema update must keep. -/
def checkSchemaUpdate (expectedSchemaVersion : Nat) (existing updated : TableSchema) :
    Except MetadataRejection Unit := do
  rejectIf (expectedSchemaVersion ≠ existing.schemaVersion)
    (schemaPreconditionMismatch updated.id expectedSchemaVersion existing.schemaVersion)
  let nextSchemaVersion ← okOr (checkedAdd existing.schemaVersion 1)
    (schemaVersionExhausted updated.id)
  rejectIf (updated.schemaVersion ≠ nextSchemaVersion)
    (schemaVersionNotNext updated.id nextSchemaVersion updated.schemaVersion)
  rejectIf (updated.name ≠ existing.name) (tableRenameNotSupported updated.id)
  rejectIf (updated.tabletCount ≠ existing.tabletCount)
    (tabletCountChangeNotSupported updated.id)
  rejectIf (updated.primaryKeyColumnIds ≠ existing.primaryKeyColumnIds)
    (primaryKeyChangeNotSupported updated.id)
  checkColumnCount existing.columns updated.columns
  checkExistingColumns existing.columns updated.columns
  let maxExistingColumnId := (existing.columns.map (·.id)).max?.getD 0
  (updated.columns.drop existing.columns.length).forM (checkAddedColumn maxExistingColumnId)

def applySchemaUpdate (expectedSchemaVersion : Nat) (table : TableDefinition) :
    Except MetadataRejection Accepted := do
  self.requireInitialized
  let updated ← (TableSchema.fromDefinition table).mapError (invalidTable ·.display)
  let existing ← okOr self.tables[updated.id]? (unknownTable updated.id)
  -- An exact replay succeeds even if its expected version is now stale.
  if existing = updated then
    return (.alreadyApplied, self)
  else do
    checkSchemaUpdate expectedSchemaVersion existing updated
    return (.applied,
      { self with
        tables := self.tables.insert updated.id updated
        tableIdsByName := self.tableIdsByName.insert updated.name updated.id })

/-- The handler of a command that is valid on its own. -/
def handle : MetadataCommand → Except MetadataRejection Accepted
  | .clusterInitialized clusterId => self.applyClusterInitialized clusterId
  | .registerClient clientId epoch => self.applyRegisterClient clientId epoch
  | .renewClient clientId epoch acknowledged => self.applyRenewClient clientId epoch acknowledged
  | .reserveTimestamps reservedUntil => self.applyReserveTimestamps reservedUntil
  | .registerGcProtection protection _ => self.applyRegisterGcProtection protection
  | .updateGcProtection protection nowMs => self.applyUpdateGcProtection protection nowMs
  | .renewGcProtection ownerId protectionId leaseDeadlineMs nowMs =>
    self.applyRenewGcProtection ownerId protectionId leaseDeadlineMs nowMs
  | .releaseGcProtection ownerId protectionId =>
    self.applyReleaseGcProtection ownerId protectionId
  | .advanceGcSafePoint candidate nowMs => self.applyAdvanceGcSafePoint candidate nowMs
  | .registerNode node => self.applyRegisterNode node
  | .setNodeLifecycle nodeId lifecycle => self.applySetNodeLifecycle nodeId lifecycle
  | .createTable table => self.applyCreateTable table
  | .createTablet tablet => self.applyCreateTablet tablet
  | .createTableTopology request => self.applyCreateTableTopology request
  | .setDesiredReplicaPlacement placement => self.applyDesiredPlacement placement
  | .recordReplicaRetirement retirement => self.applyReplicaRetirement retirement
  | .updateTableSchema expectedSchemaVersion table =>
    self.applySchemaUpdate expectedSchemaVersion table

/-- Validate and handle. -/
def tryApply (command : MetadataCommand) : Except MetadataRejection Accepted := do
  command.validate.mapError (invalidCommand ·.display)
  self.handle command

/-- Apply one committed command. -/
def apply (command : MetadataCommand) : Accepted :=
  match self.tryApply command with
  | .ok accepted => accepted
  | .error rejection => (.rejected rejection, self)

/-- Apply a command under its durable identity: a replay gets the retained outcome. -/
def applyWithLogicalCommandId (logicalCommandId : LogicalCommandId) (command : MetadataCommand) :
    Accepted :=
  match self.requestDeduplication[logicalCommandId]? with
  | some outcome => (metadataOutcomeFromCached outcome, self)
  | none =>
    let (outcome, state) := self.apply command
    (outcome,
      { state with
        requestDeduplication := state.requestDeduplication.insert logicalCommandId
          (metadataOutcomeToCached outcome) })

end MetadataState

end RagnorDb
