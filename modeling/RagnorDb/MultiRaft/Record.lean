import RagnorDb.Tablet.SnapshotStore

/-!
# Durable Raft records

The log-entry, hard-state and snapshot-pointer records of
`ragnordb-multiraft/src/storage/codec.rs`, with their validation and the rules for a
successor of a hard state or of a snapshot pointer.  Every record names the Raft group and
the replica lifetime it belongs to.  A protobuf message is its typed contents, so that
`decode` after `encode` is the validation of the record.

`ConfState::validate` and `ConfState::apply` belong to the Raft core, outside the repository:
they are parameters.
-/

namespace RagnorDb

open Std Checked

/-- One Raft replica lifetime inside a logical Raft group. -/
structure RaftReplicaIdentity where
  raftGroupId : RaftGroupId
  replicaId : ReplicaId
  deriving DecidableEq

namespace RaftReplicaIdentity

def key (self : RaftReplicaIdentity) : List Nat :=
  [self.raftGroupId, self.replicaId]

theorem key_injective : Function.Injective key := by
  intro ⟨g, r⟩ ⟨g', r'⟩ h
  obtain ⟨rfl, rfl⟩ := h
  rfl

instance : Ord RaftReplicaIdentity := ⟨compareOn key⟩

instance : TransOrd RaftReplicaIdentity := inferInstanceAs (TransCmp (compareOn key))

instance : LawfulEqOrd RaftReplicaIdentity := OrderedMap.lawfulEqCmp_compareOn key_injective

end RaftReplicaIdentity

/-- Membership of a Raft group. -/
structure ConfState where
  version : Nat
  voters : List ReplicaId
  learners : List ReplicaId
  outgoingVoters : List ReplicaId
  deriving DecidableEq

def ConfState.contains (self : ConfState) (replicaId : ReplicaId) : Bool :=
  self.voters.contains replicaId || self.learners.contains replicaId ||
    self.outgoingVoters.contains replicaId

inductive ConfChangeKind where
  | addLearner (replicaId : ReplicaId)
  | promoteLearner (replicaId : ReplicaId)
  | removeReplica (replicaId : ReplicaId)
  deriving DecidableEq

structure ConfChange where
  expectedVersion : Nat
  kind : ConfChangeKind
  deriving DecidableEq

/-- What the storage takes from the Raft core. -/
structure RaftCore where
  /-- `ConfState::validate`, with the error's `Debug` text. -/
  validateConfState : ConfState → Except String Unit
  /-- `ConfState::apply`, with the error's `Debug` text. -/
  applyConfChange : ConfState → ConfChange → Except String ConfState

/-! ## Log entries -/

inductive RaftLogEntryCodecError where
  | unsupportedVersion (version : Nat)
  | zeroRaftGroupId
  | zeroReplicaId
  | zeroLogIndex
  | zeroTerm
  | zeroConfigurationVersion
  deriving DecidableEq

def RaftReplicaIdentity.validate (self : RaftReplicaIdentity) :
    Except RaftLogEntryCodecError Unit := do
  rejectIf (self.raftGroupId = 0) .zeroRaftGroupId
  rejectIf (self.replicaId = 0) .zeroReplicaId

/-- Durable payload carried by one Raft log entry. -/
inductive DurableRaftEntryPayload where
  | normal (command : Bytes)
  | configuration (change : ConfChange)
  deriving DecidableEq

/-- A log entry of the Raft core. -/
structure LogEntry where
  index : Nat
  term : Nat
  payload : DurableRaftEntryPayload
  deriving DecidableEq

/-- Durable, identity-bound representation of one Raft log entry. -/
structure RaftLogEntryRecord where
  formatVersion : Nat
  identity : RaftReplicaIdentity
  index : Nat
  term : Nat
  payload : DurableRaftEntryPayload
  deriving DecidableEq

def validateConfigurationChange : DurableRaftEntryPayload → Except RaftLogEntryCodecError Unit
  | .configuration change => rejectIf (change.expectedVersion = 0) .zeroConfigurationVersion
  | .normal _ => .ok ()

def RaftLogEntryRecord.validate (self : RaftLogEntryRecord) :
    Except RaftLogEntryCodecError Unit := do
  rejectIf (self.formatVersion ≠ 1) (.unsupportedVersion self.formatVersion)
  self.identity.validate
  rejectIf (self.index = 0) .zeroLogIndex
  rejectIf (self.term = 0) .zeroTerm
  validateConfigurationChange self.payload

def RaftLogEntryRecord.fromCore (identity : RaftReplicaIdentity) (entry : LogEntry) :
    Except RaftLogEntryCodecError RaftLogEntryRecord := do
  let record : RaftLogEntryRecord := ⟨1, identity, entry.index, entry.term, entry.payload⟩
  record.validate
  return record

theorem RaftLogEntryRecord.fromCore_eq_ok {identity : RaftReplicaIdentity} {entry : LogEntry}
    {record : RaftLogEntryRecord} (h : fromCore identity entry = .ok record) :
    record = ⟨1, identity, entry.index, entry.term, entry.payload⟩ ∧ record.validate = .ok () := by
  simp only [fromCore, eq_ok] at h
  obtain ⟨_, hvalid, rfl⟩ := h
  exact ⟨rfl, hvalid⟩

/-! ## Stable state -/

inductive RaftStableStateCodecError where
  | unsupportedVersion (version : Nat)
  | invalidIdentity (error : RaftLogEntryCodecError)
  | zeroCurrentTerm
  | termRegression (previous received : Nat)
  | commitRegression (previous received : Nat)
  | voteChangedInTerm (term previous received : Nat)
  | voteClearedInTerm (term previous : Nat)
  | zeroSnapshotId
  | invalidSnapshotBoundary
  | snapshotAppliedIndexMismatch (lastIncludedIndex appliedIndex : Nat)
  | invalidSnapshotFileMetadata
  | invalidConfState (reason : String)
  | invalidRemovalProof
  deriving DecidableEq

/-- Election and commit state of a replica. -/
structure HardState where
  currentTerm : Nat
  votedFor : Option ReplicaId
  commit : Nat
  deriving DecidableEq

structure RaftHardStateRecord where
  formatVersion : Nat
  identity : RaftReplicaIdentity
  hardState : HardState
  deriving DecidableEq

def RaftHardStateRecord.validate (self : RaftHardStateRecord) :
    Except RaftStableStateCodecError Unit := do
  rejectIf (self.formatVersion ≠ 1) (.unsupportedVersion self.formatVersion)
  self.identity.validate.mapError .invalidIdentity
  rejectIf (self.hardState.currentTerm = 0) .zeroCurrentTerm

def RaftHardStateRecord.fromCore (identity : RaftReplicaIdentity) (hardState : HardState) :
    Except RaftStableStateCodecError RaftHardStateRecord := do
  let record : RaftHardStateRecord := ⟨1, identity, hardState⟩
  record.validate
  return record

/-- The votes of two hard states of one term. -/
def validateVoteSuccessor (term : Nat) : Option ReplicaId → Option ReplicaId →
    Except RaftStableStateCodecError Unit
  | some previous, some received =>
    rejectIf (previous ≠ received) (.voteChangedInTerm term previous received)
  | some previous, none => .error (.voteClearedInTerm term previous)
  | none, _ => .ok ()

/-- A durable hard state never goes back in term or commit, nor changes a vote in a term. -/
def validateHardStateSuccessor (previous : Option HardState) (received : HardState) :
    Except RaftStableStateCodecError Unit := do
  rejectIf (received.currentTerm = 0) .zeroCurrentTerm
  match previous with
  | none => .ok ()
  | some previous => do
    rejectIf (received.currentTerm < previous.currentTerm)
      (.termRegression previous.currentTerm received.currentTerm)
    rejectIf (received.commit < previous.commit)
      (.commitRegression previous.commit received.commit)
    if received.currentTerm = previous.currentTerm then
      validateVoteSuccessor received.currentTerm previous.votedFor received.votedFor
    else .ok ()

/-! ## Snapshot pointers -/

/-- `Path::components` of the name is one normal component. -/
def isSingleSafeComponent (fileName : String) : Bool :=
  match fileName.toList.splitOn '/' with
  | first :: rest =>
    first ≠ [] && first ≠ ['.'] && first ≠ ['.', '.'] && rest.all fun part =>
      part = [] || part = ['.']
  | [] => false

/-- Durable reference to a snapshot file synchronized before its WAL pointer.  An index is a
`u64`. -/
structure RaftSnapshotPointerRecord where
  formatVersion : Nat
  identity : RaftReplicaIdentity
  snapshotId : Nat
  lastIncludedIndex : Nat
  lastIncludedTerm : Nat
  appliedIndex : Nat
  confState : ConfState
  lastRemovedReplica : Option RemovalProof
  sizeBytes : Nat
  checksum : Bytes
  fileName : String
  lastIncludedIndex_le : lastIncludedIndex ≤ u64Max
  deriving DecidableEq

namespace RaftSnapshotPointerRecord

def validateRemoval (self : RaftSnapshotPointerRecord) :
    Option RemovalProof → Except RaftStableStateCodecError Unit
  | none => .ok ()
  | some proof => do
    rejectIf (proof.index = 0 ∨ proof.index > self.lastIncludedIndex ∨ proof.term = 0 ∨
      proof.version = 0 ∨ proof.version > self.confState.version) .invalidRemovalProof
    rejectIf (self.confState.contains proof.replicaId) .invalidRemovalProof

def validate (core : RaftCore) (self : RaftSnapshotPointerRecord) :
    Except RaftStableStateCodecError Unit := do
  rejectIf (self.formatVersion ≠ 1) (.unsupportedVersion self.formatVersion)
  self.identity.validate.mapError .invalidIdentity
  rejectIf (self.snapshotId = 0) .zeroSnapshotId
  rejectIf (self.lastIncludedIndex = 0 ∨ self.lastIncludedTerm = 0) .invalidSnapshotBoundary
  rejectIf (self.appliedIndex ≠ self.lastIncludedIndex)
    (.snapshotAppliedIndexMismatch self.lastIncludedIndex self.appliedIndex)
  rejectIf (self.sizeBytes = 0 ∨ ¬ isSingleSafeComponent self.fileName) .invalidSnapshotFileMetadata
  (core.validateConfState self.confState).mapError .invalidConfState
  self.validateRemoval self.lastRemovedReplica

end RaftSnapshotPointerRecord

inductive SnapshotTransitionError where
  | indexRegression (previous received : Nat)
  | conflictingPointer (index : Nat)
  deriving DecidableEq

/-- The rule that live persistence and recovery share for snapshot pointers. -/
def validateSnapshotSuccessor (previous : Option RaftSnapshotPointerRecord)
    (next : RaftSnapshotPointerRecord) : Except SnapshotTransitionError Unit :=
  match previous with
  | none => .ok ()
  | some previous => do
    rejectIf (next.lastIncludedIndex < previous.lastIncludedIndex)
      (.indexRegression previous.lastIncludedIndex next.lastIncludedIndex)
    rejectIf (next.lastIncludedIndex = previous.lastIncludedIndex ∧ next ≠ previous)
      (.conflictingPointer next.lastIncludedIndex)

end RagnorDb
