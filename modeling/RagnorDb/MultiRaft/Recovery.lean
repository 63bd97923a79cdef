import RagnorDb.MultiRaft.LogView

/-!
# Recovery of every Raft replica from the shared WAL

`storage/recovery.rs`: one forward scan of the shared WAL routes each Raft record to the
state of the replica lifetime it names, and the end of the scan normalises each replica's
term and derives its membership.
-/

namespace RagnorDb

open Std Checked

/-- A Raft-owned record of the shared WAL. -/
inductive RaftWalRecord where
  | logEntry (record : RaftLogEntryRecord)
  | hardState (record : RaftHardStateRecord)
  | snapshotPointer (record : RaftSnapshotPointerRecord)
  deriving DecidableEq

def RaftWalRecord.identity : RaftWalRecord → RaftReplicaIdentity
  | .logEntry record | .hardState record | .snapshotPointer record => record.identity

/-- A physical record; one of another subsystem has no Raft contents. -/
structure WalRecord where
  lsn : Lsn
  raft : Option RaftWalRecord
  deriving DecidableEq

inductive RaftStorageRecoveryError where
  | invalidLogEntry (error : RaftLogEntryCodecError)
  | invalidStableState (error : RaftStableStateCodecError)
  | nonIncreasingWalLsn (previous received : Lsn)
  | invalidLogTransition (lsn : Lsn) (source : RaftLogViewError)
  | hardStateCommitBeyondRecoveredLog (identity : RaftReplicaIdentity)
      (commitIndex lastLogIndex : Nat) (lsn : Lsn)
  | entryAtOrBelowTruncation (identity : RaftReplicaIdentity)
      (entryIndex truncatedThroughIndex : Nat) (lsn : Lsn)
  | missingInitialConfiguration (identity : RaftReplicaIdentity) (index : Nat)
  | invalidCommittedConfiguration (identity : RaftReplicaIdentity) (index : Nat) (reason : String)
  | conflictingSnapshotPointer (identity : RaftReplicaIdentity) (index : Nat) (lsn : Lsn)
  deriving DecidableEq

/-- Logical frontiers acknowledged for one replica lifetime. -/
structure RaftProgress where
  truncatedThroughIndex : Nat
  truncatedThroughTerm : Nat
  appliedIndex : Nat
  deriving DecidableEq

/-- The hard state that a snapshot base implies: its term and index are at least the
snapshot's, and a raised term has no vote. -/
def hardStateOnSnapshot (snapshot : RaftSnapshotPointerRecord) : Option HardState → HardState
  | some state =>
    if state.currentTerm ≥ snapshot.lastIncludedTerm then
      { state with commit := max state.commit snapshot.lastIncludedIndex }
    else ⟨snapshot.lastIncludedTerm, none, snapshot.lastIncludedIndex⟩
  | none => ⟨snapshot.lastIncludedTerm, none, snapshot.lastIncludedIndex⟩

/-- Recovered durable state of exactly one replica lifetime. -/
structure RecoveredRaftReplica where
  logView : RaftReplicaLogView
  confState : Option ConfState
  hardState : Option HardState
  hardStateLsn : Option Lsn
  progress : RaftProgress
  snapshot : Option RaftSnapshotPointerRecord
  snapshotPointerLsn : Option Lsn

namespace RecoveredRaftReplica

def new (identity : RaftReplicaIdentity) : RecoveredRaftReplica :=
  ⟨.new identity, none, none, none, ⟨0, 0, 0⟩, none, none⟩

variable (self : RecoveredRaftReplica)

def observeLogEntry (lsn : Lsn) (entry : RaftLogEntryRecord) :
    Except RaftStorageRecoveryError RecoveredRaftReplica := do
  rejectIf (entry.index ≤ self.progress.truncatedThroughIndex)
    (.entryAtOrBelowTruncation entry.identity entry.index self.progress.truncatedThroughIndex lsn)
  let logView ← (self.logView.replay entry lsn).mapError (.invalidLogTransition lsn)
  return { self with logView }

def observeHardState (lsn : Lsn) (record : RaftHardStateRecord) :
    Except RaftStorageRecoveryError RecoveredRaftReplica := do
  let hardState := record.hardState
  (validateHardStateSuccessor self.hardState hardState).mapError .invalidStableState
  let lastLogIndex := self.logView.lastIndex.getD 0
  rejectIf (hardState.commit > lastLogIndex)
    (.hardStateCommitBeyondRecoveredLog record.identity hardState.commit lastLogIndex lsn)
  let logView ← (self.logView.advanceCommit hardState.commit).mapError (.invalidLogTransition lsn)
  return { self with logView, hardState := some hardState, hardStateLsn := some lsn }

/-- The recovery error for a snapshot pointer that does not succeed the last one. -/
def snapshotTransitionError (identity : RaftReplicaIdentity) (lsn : Lsn) :
    SnapshotTransitionError → RaftStorageRecoveryError
  | .conflictingPointer index => .conflictingSnapshotPointer identity index lsn
  | .indexRegression previous received =>
    .invalidLogTransition lsn (.snapshotRegression previous received)

def observeSnapshotPointer (lsn : Lsn) (snapshot : RaftSnapshotPointerRecord) :
    Except RaftStorageRecoveryError RecoveredRaftReplica := do
  (validateSnapshotSuccessor self.snapshot snapshot).mapError
    (snapshotTransitionError snapshot.identity lsn)
  let logView ← (self.logView.installSnapshot snapshot.lastIncludedIndex snapshot.lastIncludedTerm
    lsn).mapError (.invalidLogTransition lsn)
  return { self with
    logView
    progress := ⟨snapshot.lastIncludedIndex, snapshot.lastIncludedTerm, snapshot.appliedIndex⟩
    hardState := some (hardStateOnSnapshot snapshot self.hardState)
    confState := some snapshot.confState
    snapshot := some snapshot
    snapshotPointerLsn := some lsn }

/-- One decoded record enters the state of its replica. -/
def observe (core : RaftCore) (self : RecoveredRaftReplica) (lsn : Lsn) :
    RaftWalRecord → Except RaftStorageRecoveryError RecoveredRaftReplica
  | .logEntry entry => do
    entry.validate.mapError .invalidLogEntry
    self.observeLogEntry lsn entry
  | .hardState record => do
    record.validate.mapError .invalidStableState
    self.observeHardState lsn record
  | .snapshotPointer snapshot => do
    (snapshot.validate core).mapError .invalidStableState
    self.observeSnapshotPointer lsn snapshot

/-- The largest term that the recovered log or its base shows. -/
def maximumObservedTerm : Nat :=
  max ((self.logView.snapshotBoundary.map Prod.snd).getD 0) self.logView.maximumLogTerm

/-- Normalise the term after the complete recoverable prefix: a crash can preserve an entry
of a higher term and lose the trailing hard state that carried the term. -/
def normalizeHardStateTerm : RecoveredRaftReplica :=
  let maximumObservedTerm := self.maximumObservedTerm
  if maximumObservedTerm = 0 then self
  else match self.hardState with
    | some state =>
      if state.currentTerm < maximumObservedTerm then
        { self with hardState := some ⟨maximumObservedTerm, none, state.commit⟩ }
      else self
    | none =>
      { self with hardState := some ⟨maximumObservedTerm, none, self.logView.committedIndex⟩ }

/-- The membership after one more committed entry. -/
def applyCommitted (core : RaftCore) (identity : RaftReplicaIdentity) (confState : Option ConfState)
    (record : RaftLogEntryRecord) : Except RaftStorageRecoveryError (Option ConfState) :=
  match record.payload with
  | .normal _ => .ok confState
  | .configuration change => do
    let current ← okOr confState (.missingInitialConfiguration identity record.index)
    let next ← (core.applyConfChange current change).mapError
      (.invalidCommittedConfiguration identity record.index)
    return some next

/-- Finalise one replica: its term, and its membership from a snapshot or the bootstrap
configuration and the committed change entries. -/
def finishConfiguration (core : RaftCore) (initial : Option ConfState)
    (self : RecoveredRaftReplica) : Except RaftStorageRecoveryError RecoveredRaftReplica := do
  let self := self.normalizeHardStateTerm
  let commit := (self.hardState.map HardState.commit).getD 0
  let committed := (self.logView.entries.toList.map fun entry => entry.2.record).takeWhile
    fun record => record.index ≤ commit
  let confState ← committed.foldlM (applyCommitted core self.logView.identity)
    (self.confState.or initial)
  return { self with confState }

end RecoveredRaftReplica

/-- Every replica lifetime reconstructed by one shared WAL scan. -/
structure RecoveredRaftStorage where
  replicas : ExtTreeMap RaftReplicaIdentity RecoveredRaftReplica
  scannedRecords : Nat
  lastScannedLsn : Option Lsn

namespace RecoveredRaftStorage

def empty : RecoveredRaftStorage := ⟨∅, 0, none⟩

/-- The state of a replica, as new if no record named it yet. -/
def replica (self : RecoveredRaftStorage) (identity : RaftReplicaIdentity) : RecoveredRaftReplica :=
  self.replicas[identity]?.getD (.new identity)

def checkLsn (self : RecoveredRaftStorage) (lsn : Lsn) : Except RaftStorageRecoveryError Unit :=
  match self.lastScannedLsn with
  | some previous => rejectIf (lsn ≤ previous) (.nonIncreasingWalLsn previous lsn)
  | none => .ok ()

variable (core : RaftCore)

/-- Route one physical record to the replica that it names. -/
def route (self : RecoveredRaftStorage) (lsn : Lsn) :
    Option RaftWalRecord → Except RaftStorageRecoveryError RecoveredRaftStorage
  | none => .ok self
  | some record => do
    let replica ← (self.replica record.identity).observe core lsn record
    return { self with replicas := self.replicas.insert record.identity replica }

def observeRecord (self : RecoveredRaftStorage) (record : WalRecord) :
    Except RaftStorageRecoveryError RecoveredRaftStorage := do
  self.checkLsn record.lsn
  let self := { self with
    scannedRecords := self.scannedRecords + 1
    lastScannedLsn := some record.lsn }
  self.route core record.lsn record.raft

/-- The forward scan. -/
def scan (records : List WalRecord) : Except RaftStorageRecoveryError RecoveredRaftStorage :=
  records.foldlM (observeRecord core) empty

/-- Finalise membership after the scan reached its validated end. -/
def finishConfigurations (initialConfigurations : ExtTreeMap RaftReplicaIdentity ConfState)
    (self : RecoveredRaftStorage) : Except RaftStorageRecoveryError RecoveredRaftStorage := do
  let replicas ← OrderedMap.mapValuesM
    (fun identity replica => replica.finishConfiguration core initialConfigurations[identity]?)
    self.replicas
  return { self with replicas }

end RecoveredRaftStorage

/-- Recover all replicas in one pass. -/
def recoverRaftStorageWithConfigurations (core : RaftCore)
    (initialConfigurations : ExtTreeMap RaftReplicaIdentity ConfState) (records : List WalRecord) :
    Except RaftStorageRecoveryError RecoveredRaftStorage := do
  let recovered ← RecoveredRaftStorage.scan core records
  recovered.finishConfigurations core initialConfigurations

end RagnorDb
