import Mathlib.Data.List.Sort
import RagnorDb.Common.Command
import RagnorDb.Storage.Mvcc

/-!
# Planning a distributed transaction

The coordinator of `ragnordb-txn/src/coordinator.rs` with its route hints, and the three
planners over it: `prewrite.rs`, `commit.rs` and `rollback.rs`.  A planner checks the
transaction, groups its keys by the tablet that owns them, and builds one validated
command for each tablet; it sends nothing.  The planned batches carry the logical
identities of their commands as transaction, phase and key, which is what the hash in
`participant_logical_command_id` is taken of.
-/

namespace RagnorDb

open Std Checked

/-- The identity of a mutation: its canonical row key. -/
abbrev LogicalMutationId := Bytes

/-- Construct an identity only from a canonical encoded row key. -/
def LogicalMutationId.fromKey (key : Bytes) : Except Error LogicalMutationId := do
  let _ ← (decodeRowKey key).mapError fun error => Error.invalidArgument
    s!"logical transaction key is not a canonical row key: {error.display}"
  return key

/-- Current physical route hint of one participant. -/
structure ParticipantRoute where
  tabletId : TabletId
  tabletEpoch : Nat
  raftGroupId : RaftGroupId
  leaderReplicaId : ReplicaId
  deriving DecidableEq

inductive ParticipantCommandPhase where
  | prewrite
  | commit
  | rollback
  | resolveIntent
  deriving DecidableEq

/-- Stable identity of one participant command, independent of routing. -/
structure ParticipantCommandId where
  txnId : TxnId
  phase : ParticipantCommandPhase
  logicalMutationId : LogicalMutationId
  deriving DecidableEq

/-- One dispatch-ready participant command. -/
structure ParticipantCommandPlan where
  commandId : ParticipantCommandId
  route : ParticipantRoute
  deriving DecidableEq

/-- The transaction and its current route hints.  A hint is only ever installed for a key
of the write set. -/
structure DistributedTransactionCoordinator where
  transactionId : TxnId
  startTimestamp : Timestamp
  writeSet : Mutations
  primaryKey : LogicalMutationId
  participantRoutes : ExtTreeMap LogicalMutationId ParticipantRoute compare
  statusRoute : Option ParticipantRoute
  routes_written : ∀ {key : Bytes} {route : ParticipantRoute},
    participantRoutes[key]? = some route → key ∈ writeSet

namespace DistributedTransactionCoordinator

/-- Coordinator state around one timestamped transaction. -/
def new (transactionId : TxnId) (startTimestamp : Timestamp) (writeSet : Mutations)
    (primaryKey : Bytes) : Except Error DistributedTransactionCoordinator := do
  let primaryKey ← LogicalMutationId.fromKey primaryKey
  rejectIf (transactionId = 0)
    (.invalidArgument "transaction status key cannot use transaction ID 0")
  return { transactionId, startTimestamp, writeSet, primaryKey, participantRoutes := ∅,
           statusRoute := none, routes_written := fun h => by simp at h }

variable (self : DistributedTransactionCoordinator)

/-- Replace the route hint of a key that the transaction writes. -/
def withRoute (key : LogicalMutationId) (route : ParticipantRoute) (h : key ∈ self.writeSet) :
    DistributedTransactionCoordinator :=
  { self with
    participantRoutes := self.participantRoutes.insert key route
    routes_written := by
      intro key' route' hroute
      rw [OrderedMap.getElem?_insert] at hroute
      split at hroute
      · next heq =>
          rw [← heq]
          exact h
      · exact self.routes_written hroute }

/-- Replace the current route hint of one write participant. -/
def setParticipantRoute (key : Bytes) (route : ParticipantRoute) :
    Except Error DistributedTransactionCoordinator := do
  let logicalMutationId ← LogicalMutationId.fromKey key
  if h : logicalMutationId ∈ self.writeSet then
    return self.withRoute logicalMutationId route h
  else
    throw (.invalidArgument "participant route requires a key in the transaction write set")

def setStatusRoute (route : ParticipantRoute) : DistributedTransactionCoordinator :=
  { self with statusRoute := some route }

def participantRoute (key : Bytes) : Option ParticipantRoute := do
  let logicalMutationId ← (LogicalMutationId.fromKey key).toOption
  self.participantRoutes[logicalMutationId]?

def participantCommandPlan (phase : ParticipantCommandPhase) (key : Bytes) :
    Except Error ParticipantCommandPlan := do
  let logicalMutationId ← LogicalMutationId.fromKey key
  let route ← okOr self.participantRoutes[logicalMutationId]?
    (.invalidArgument "participant command requires a current route hint")
  rejectIf (self.transactionId = 0)
    (.invalidArgument "participant command transaction ID must be non-zero")
  rejectIf (logicalMutationId = [])
    (.invalidArgument "participant command logical mutation ID must be non-empty")
  return { commandId := ⟨self.transactionId, phase, logicalMutationId⟩, route }

/-- The participant tablets with the status tablet first. -/
def orderedParticipantTabletIds (participants : List TabletId) : Except Error (List TabletId) := do
  let route ← okOr self.statusRoute
    (.invalidArgument "status placement requires a current primary tablet route")
  let primaryTablet := route.tabletId
  rejectIf (participants = [])
    (.invalidArgument "status placement requires at least one participant tablet")
  rejectIf (participants.any (· = 0))
    (.invalidArgument "status placement cannot contain tablet ID 0")
  rejectIf (¬ participants.contains primaryTablet)
    (.invalidArgument "status placement participants must include the primary tablet")
  return primaryTablet :: participants.filter (· ≠ primaryTablet)

end DistributedTransactionCoordinator

/-! ## Grouping by tablet -/

/-- The commands of one tablet under construction. -/
structure BatchBuilder (α : Type) where
  route : ParticipantRoute
  items : List α
  participantPlans : List ParticipantCommandPlan

abbrev Groups (α : Type) := ExtTreeMap TabletId (BatchBuilder α) compare

/-- Add an item to the batch of its tablet, which must have the same route. -/
def Groups.add {α : Type} (name : String) (groups : Groups α) (route : ParticipantRoute)
    (item : α) (plan : ParticipantCommandPlan) : Except Error (Groups α) :=
  match groups[route.tabletId]? with
  | none => return groups.insert route.tabletId ⟨route, [item], [plan]⟩
  | some batch => do
    rejectIf (batch.route ≠ route) (.invalidArgument
      s!"{name} participant tablet {route.tabletId} has conflicting route hints")
    return groups.insert route.tabletId
      ⟨batch.route, batch.items ++ [item], batch.participantPlans ++ [plan]⟩

/-- One validated command for one participant tablet. -/
structure BatchPlan (Command : Type) where
  route : ParticipantRoute
  command : Command
  participantPlans : List ParticipantCommandPlan
  deriving DecidableEq

namespace DistributedTransactionCoordinator

variable (self : DistributedTransactionCoordinator)

/-- Group the write set by tablet, in key order. -/
def groupBatches {α : Type} (name : String) (phase : ParticipantCommandPhase)
    (item : Bytes → Mutation → Except Error α) : Except Error (Groups α) :=
  self.writeSet.toList.foldlM (fun groups entry => do
    let route ← okOr (self.participantRoute entry.1) (.invalidArgument
      s!"{name} participant key has no current route hint: {entry.1}")
    let plan ← self.participantCommandPlan phase entry.1
    let item ← item entry.1 entry.2
    groups.add name route item plan) ∅

/-- The status record of a decision, or of the pending transaction. -/
def statusRecord (status : TxnStatus) (commitTimestamp : Option Timestamp)
    (participantTabletIds : List TabletId) : TxnStatusRecord where
  txnId := self.transactionId
  startTimestamp := self.startTimestamp
  commitTimestamp
  status
  primaryKey := self.primaryKey
  participantTabletIds
  lastHeartbeatTimestamp := none
  leaseDeadlineMs := none

/-! ## Prewrite -/

def writeEntry (key : Bytes) : Mutation → Except Error WriteEntry
  | .put encodedRow => do
    let row ← (decodeRow encodedRow).mapError fun error => Error.invalidArgument
      s!"prewrite Put mutation contains a noncanonical row: {error.display}"
    return { key, row := some row, op := .put }
  | .delete => return { key, row := none, op := .delete }

/-- The prewrite of one tablet.  The primary's batch also publishes the pending status. -/
def prewriteBatch (ttlMs : Nat) (pendingStatus : TxnStatusRecord)
    (batch : BatchBuilder WriteEntry) : Except Error (BatchPlan PrewriteCommand) := do
  let includesPrimary := batch.items.any fun write => write.key = self.primaryKey
  let command : PrewriteCommand :=
    { txnId := self.transactionId, startTimestamp := self.startTimestamp, writes := batch.items,
      primaryKey := self.primaryKey, ttlMs,
      pendingStatus := if includesPrimary then some pendingStatus else none }
  command.validate.mapError Error.invalidArgument
  return { route := batch.route, command, participantPlans := batch.participantPlans }

/-- Deterministic prewrite batches of the complete write set. -/
def planPrewrite (ttlMs : Nat) : Except Error (List (BatchPlan PrewriteCommand)) := do
  rejectIf (ttlMs = 0) (Error.invalidArgument "prewrite lock TTL must be non-zero")
  rejectIf (self.writeSet.isEmpty)
    (Error.invalidArgument "prewrite requires at least one write")
  rejectIf (¬ self.writeSet.contains self.primaryKey) (Error.invalidArgument
    "prewrite primary key must be present in the transaction write set")
  let groups ← self.groupBatches "prewrite" .prewrite writeEntry
  let participantTabletIds ← self.orderedParticipantTabletIds groups.keys
  let pendingStatus := self.statusRecord .pending none participantTabletIds
  pendingStatus.validate.mapError Error.invalidArgument
  groups.toList.mapM fun entry => self.prewriteBatch ttlMs pendingStatus entry.2

/-! ## Commit and rollback -/

/-- What a decision needs to know of the participants. -/
structure PreparedPlan where
  statusRoute : ParticipantRoute
  primaryRoute : ParticipantRoute
  participantTabletIds : List TabletId
  batches : Groups Bytes

/-- Validate the current participant view of a decision. -/
def preparePlan (name : String) (phase : ParticipantCommandPhase) (empty : String) :
    Except Error PreparedPlan := do
  rejectIf (self.writeSet.isEmpty) (Error.invalidArgument empty)
  let statusRoute ← okOr self.statusRoute (Error.invalidArgument
    s!"{name} planning requires a current transaction status route")
  let primaryRoute ← okOr (self.participantRoute self.primaryKey) (Error.invalidArgument
    s!"{name} planning requires a current primary participant route")
  rejectIf (statusRoute ≠ primaryRoute) (Error.invalidArgument
    "transaction status route must match the primary participant route")
  let batches ← self.groupBatches name phase fun key _ => .ok key
  let participantTabletIds ← self.orderedParticipantTabletIds batches.keys
  return { statusRoute, primaryRoute, participantTabletIds, batches }

/-- `Vec::swap_remove`: the last element takes the place of the removed one. -/
def swapRemove {α : Type} (l : List α) (i : Fin l.length) : α × List α :=
  (l.get i, (l.set i (l.getLast (List.ne_nil_of_length_pos i.pos))).dropLast)

/-- The primary's batch, and the other batches by tablet. -/
def splitPrimary {Command : Type} (name : String) (primaryRoute : ParticipantRoute)
    (batches : List (BatchPlan Command)) :
    Except Error (BatchPlan Command × List (BatchPlan Command)) := do
  let primaryIndex ← okOr (batches.findFinIdx? (·.route.tabletId = primaryRoute.tabletId))
    (.corruptData s!"{name} plan omitted the primary participant batch")
  let (primary, others) := swapRemove batches primaryIndex
  return (primary, others.insertionSort (·.route.tabletId ≤ ·.route.tabletId))

/-- The complete commit decision. -/
structure CommitPhasePlan where
  commitTimestamp : Timestamp
  statusRoute : ParticipantRoute
  statusRecord : TxnStatusRecord
  primary : BatchPlan CommitCommand
  secondary : List (BatchPlan CommitCommand)

def prepareCommitPlan : Except Error PreparedPlan :=
  self.preparePlan "commit" .commit "commit requires at least one prewritten key"

/-- The commit of one tablet.  The primary's batch also publishes the decision. -/
def commitBatch (commitTimestamp : Timestamp) (statusRecord : TxnStatusRecord)
    (batch : BatchBuilder Bytes) : Except Error (BatchPlan CommitCommand) := do
  let isPrimary := batch.items.any (· = self.primaryKey)
  let command : CommitCommand :=
    { txnId := self.transactionId, startTimestamp := self.startTimestamp, commitTimestamp,
      keys := batch.items, committedStatus := if isPrimary then some statusRecord else none }
  command.validate.mapError Error.invalidArgument
  return { route := batch.route, command, participantPlans := batch.participantPlans }

def buildCommitPlan (prepared : PreparedPlan) (commitTimestamp : Timestamp) :
    Except Error CommitPhasePlan := do
  rejectIf (commitTimestamp = 0 ∨ commitTimestamp ≤ self.startTimestamp) (Error.invalidArgument
    "commit timestamp must be greater than the transaction start timestamp")
  let statusRecord :=
    self.statusRecord .committed (some commitTimestamp) prepared.participantTabletIds
  statusRecord.validate.mapError Error.invalidArgument
  let batches ← prepared.batches.toList.mapM fun entry =>
    self.commitBatch commitTimestamp statusRecord entry.2
  let (primary, secondary) ← splitPrimary "commit" prepared.primaryRoute batches
  return { commitTimestamp, statusRoute := prepared.statusRoute, statusRecord, primary,
           secondary }

/-- The commit plan for an allocated timestamp, the first time and after a route refresh. -/
def planCommitAtTimestamp (commitTimestamp : Timestamp) : Except Error CommitPhasePlan := do
  let prepared ← self.prepareCommitPlan
  self.buildCommitPlan prepared commitTimestamp

/-- The complete rollback decision. -/
structure RollbackPhasePlan where
  statusRoute : ParticipantRoute
  statusRecord : TxnStatusRecord
  primary : BatchPlan RollbackCommand
  secondary : List (BatchPlan RollbackCommand)

def rollbackBatch (batch : BatchBuilder Bytes) : Except Error (BatchPlan RollbackCommand) := do
  let command : RollbackCommand :=
    { txnId := self.transactionId, startTimestamp := self.startTimestamp, keys := batch.items }
  command.validate.mapError Error.invalidArgument
  return { route := batch.route, command, participantPlans := batch.participantPlans }

/-- Rollback batches of the complete write set, also of keys whose prewrite may be lost. -/
def planRollback : Except Error RollbackPhasePlan := do
  let prepared ← self.preparePlan "rollback" .rollback
    "rollback requires at least one transaction key"
  let statusRecord := self.statusRecord .aborted none prepared.participantTabletIds
  statusRecord.validate.mapError Error.invalidArgument
  let batches ← prepared.batches.toList.mapM fun entry => self.rollbackBatch entry.2
  let (primary, secondary) ← splitPrimary "rollback" prepared.primaryRoute batches
  return { statusRoute := prepared.statusRoute, statusRecord, primary, secondary }

end DistributedTransactionCoordinator

end RagnorDb
