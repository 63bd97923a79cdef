import RagnorDb.Storage.MvccStep
import RagnorDb.Tablet.LocalTablet

/-!
# The single-node commit coordinator

`SingleNodeCommitCoordinator` of `coordinator.rs` commits a local transaction in one order: validate
the transaction against the participant, allocate its commit timestamp, append its record to the
durable log, and only then apply it to the MVCC state.  An append whose outcome is unknown and a
durable record that cannot be applied stop the write path until recovery.  A commit that Raft has
already made durable is applied without an append.
-/

namespace RagnorDb

open Std Checked

/-! ## Commit records -/

/-- Durable row mutation stored inside a single-node commit. -/
inductive WalMutation where
  | put (row : Bytes)
  | delete
  deriving DecidableEq

def WalMutation.ofMutation : Mutation → WalMutation
  | .put row => .put row
  | .delete => .delete

def WalMutation.toMutation : WalMutation → Mutation
  | .put row => .put row
  | .delete => .delete

theorem WalMutation.toMutation_ofMutation (mutation : Mutation) :
    (WalMutation.ofMutation mutation).toMutation = mutation := by
  cases mutation <;> rfl

/-- The durable record of one local transaction. -/
structure SingleNodeTxnCommit where
  tableId : TableId
  txnId : TxnId
  startTimestamp : Timestamp
  commitTimestamp : Timestamp
  schemaVersion : Nat
  writes : ExtTreeMap Bytes WalMutation compare

namespace SingleNodeTxnCommit

/-- The mutations that recovery rebuilds from a record. -/
def mutations (self : SingleNodeTxnCommit) : Mutations :=
  self.writes.map fun _ mutation => mutation.toMutation

/-- Apply one durable record to an MVCC store. -/
def replay (self : SingleNodeTxnCommit) : MvccM Nat :=
  InMemoryMvcc.commitBatch self.txnId self.startTimestamp self.commitTimestamp self.mutations

/-- Apply durable records in their order. -/
def replayAll : List SingleNodeTxnCommit → InMemoryMvcc → Except Error InMemoryMvcc
  | [], storage => .ok storage
  | record :: records, storage =>
    match record.replay.run storage with
    | .ok _ storage => replayAll records storage
    | .error e _ => .error e

theorem replayAll_append {records : List SingleNodeTxnCommit} {record : SingleNodeTxnCommit}
    {storage storage' storage'' : InMemoryMvcc} {n : Nat}
    (h : replayAll records storage = .ok storage')
    (hlast : record.replay.run storage' = .ok n storage'') :
    replayAll (records ++ [record]) storage = .ok storage'' := by
  induction records generalizing storage with
  | nil =>
    cases h
    simp [replayAll, hlast]
  | cons first records ih =>
    simp only [List.cons_append, replayAll] at h ⊢
    cases hfirst : first.replay.run storage with
    | ok =>
      rw [hfirst] at h
      exact ih h
    | error =>
      rw [hfirst] at h
      cases h

end SingleNodeTxnCommit

structure DurableWalExtent where
  startLsn : Nat
  endLsn : Nat
  deriving DecidableEq

/-- Semantic durable log boundary used by the transaction coordinator. -/
class DurableCommitLog (W : Type) where
  appendSingleNodeCommit : SingleNodeTxnCommit → EStateM Error W DurableWalExtent

open DurableCommitLog

/-! ## Participants -/

/-- Storage participant controlled by the ordered commit coordinator. -/
class SingleNodeCommitParticipant (P : Type) where
  tableId : P → TableId
  schemaVersion : P → Nat := fun _ => 1
  validateCommit : P → Transaction → Except Error Unit
  applyCommit : Transaction → Timestamp → EStateM Error P Nat

open SingleNodeCommitParticipant

/-- Apply a transaction to the MVCC store of a participant. -/
def commitStorage {P : Type} (storage : P → InMemoryMvcc) (withStorage : P → InMemoryMvcc → P)
    (transaction : Transaction) (commitTimestamp : Timestamp) : EStateM Error P Nat := fun self =>
  match (InMemoryMvcc.commitBatch transaction.id transaction.startTs commitTimestamp
      transaction.writes).run (storage self) with
  | .ok n committed => .ok n (withStorage self committed)
  | .error e committed => .error e (withStorage self committed)

/-- Direct MVCC participant retained for storage-level coordinator use. -/
structure OwnedMvccParticipant where
  tableId : TableId
  storage : InMemoryMvcc

namespace OwnedMvccParticipant

def validateOwnedRow (self : OwnedMvccParticipant) (encodedKey : Bytes) : Except Error Unit := do
  let rowKey ← (decodeRowKey encodedKey).mapError fun error => Error.invalidArgument
    s!"transaction contains a noncanonical row key: {error.display}"
  rejectIf (rowKey.tableId ≠ self.tableId) (.invalidArgument
    (s!"transaction row belongs to table {rowKey.tableId}, but commit participant owns table " ++
      s!"{self.tableId}"))

instance : SingleNodeCommitParticipant OwnedMvccParticipant where
  tableId self := self.tableId
  validateCommit self transaction := do
    transaction.writes.keys.forM self.validateOwnedRow
    self.storage.validateCommitBatch transaction.id transaction.startTs transaction.writes
  applyCommit := commitStorage (·.storage) fun self storage => { self with storage }

end OwnedMvccParticipant

namespace Tablet

def validateOwnedRow (self : Tablet) (key : Bytes) : Except Error Unit := do
  let rowKey ← decodeTransactionRowKey key
  self.validateRowKey rowKey

instance : SingleNodeCommitParticipant Tablet where
  tableId self := self.tableId
  validateCommit self transaction := do
    rejectIf (transaction.writes.isEmpty)
      (Error.invalidArgument "tablet write commit requires at least one mutation")
    transaction.writes.keys.forM self.validateOwnedRow
    self.storage.validateCommitBatch transaction.id transaction.startTs transaction.writes
  applyCommit transaction commitTimestamp := do
    let self : Tablet ← MonadState.get
    (transaction.writes.keys.forM self.validateOwnedRow : Except Error Unit)
    commitStorage (·.storage) (fun self storage => { self with storage }) transaction
      commitTimestamp

end Tablet

/-- A participant whose commits are the commits of its MVCC store. -/
class MvccParticipant (P : Type) extends SingleNodeCommitParticipant P where
  storage : P → InMemoryMvcc
  applied : ∀ {transaction commitTimestamp p n p'},
    (applyCommit transaction commitTimestamp).run p = .ok n p' →
      (InMemoryMvcc.commitBatch transaction.id transaction.startTs commitTimestamp
        transaction.writes).run (storage p) = .ok n (storage p')
  unapplied : ∀ {transaction commitTimestamp p e p'},
    (applyCommit transaction commitTimestamp).run p = .error e p' → storage p' = storage p

open MvccParticipant

section CommitStorage

variable {P : Type} {storage : P → InMemoryMvcc} {withStorage : P → InMemoryMvcc → P}
  {transaction : Transaction} {commitTimestamp : Timestamp} {p p' : P}

theorem applied_commitStorage (hput : ∀ p s, storage (withStorage p s) = s) {n : Nat}
    (h : (commitStorage storage withStorage transaction commitTimestamp).run p = .ok n p') :
    (InMemoryMvcc.commitBatch transaction.id transaction.startTs commitTimestamp
      transaction.writes).run (storage p) = .ok n (storage p') := by
  simp only [commitStorage, EStateM.run] at h ⊢
  split at h
  · next hrun =>
      cases h
      rw [hput]
      exact hrun
  · cases h

theorem unapplied_commitStorage (hput : ∀ p s, storage (withStorage p s) = s) {e : Error}
    (h : (commitStorage storage withStorage transaction commitTimestamp).run p = .error e p') :
    storage p' = storage p := by
  simp only [commitStorage, EStateM.run] at h
  split at h
  · cases h
  · next hrun =>
      cases h
      rw [hput]
      exact MvccOp.atomic_commitBatch _ _ _ hrun

end CommitStorage

instance : MvccParticipant OwnedMvccParticipant where
  storage := OwnedMvccParticipant.storage
  applied := applied_commitStorage fun _ _ => rfl
  unapplied := unapplied_commitStorage fun _ _ => rfl

instance : MvccParticipant Tablet where
  storage := Tablet.storage
  applied h := by
    obtain ⟨_, -, hcommit⟩ := lift_bind_run_eq_ok.mp h
    exact applied_commitStorage (fun _ _ => rfl) hcommit
  unapplied h := by
    rcases lift_bind_run_eq_error.mp h with ⟨-, hsame⟩ | ⟨_, -, hcommit⟩
    · rw [hsame]
    · exact unapplied_commitStorage (fun _ _ => rfl) hcommit

/-! ## The coordinator -/

/-- Published outcome of one completed local commit operation. -/
structure SingleNodeCommitOutcome where
  transactionId : TxnId
  commitTimestamp : Option Timestamp
  committedWrites : Nat
  walExtent : Option DurableWalExtent
  deriving DecidableEq

/-- Serialized writer for one table's commit participant and durable log. -/
structure SingleNodeCommitCoordinator (P W : Type) where
  participant : P
  commitLog : W
  recoveryRequiredReason : Option String

namespace SingleNodeCommitCoordinator

variable {P W : Type}

/-- `CommitTimestampAllocator::finalize_commit_timestamp`, as one call answers it. -/
abbrev CommitTimestampAllocator := Timestamp → Except Error Timestamp

def validateTransactionMetadata (transaction : Transaction) : Except Error Unit := do
  rejectIf (transaction.id = 0) (.invalidArgument "commit transaction ID 0 is reserved")
  rejectIf (transaction.startTs = 0) (.invalidArgument "commit start timestamp 0 is reserved")

def validateAllocatedCommitTimestamp (startTimestamp commitTimestamp : Timestamp) :
    Except Error Unit :=
  rejectIf (commitTimestamp = 0 ∨ commitTimestamp ≤ startTimestamp) (.configuration
    s!"commit timestamp {commitTimestamp} does not advance start timestamp {startTimestamp}")

/-- The first reason stays. -/
def demandRecovery (reason : String) (self : SingleNodeCommitCoordinator P W) :
    SingleNodeCommitCoordinator P W :=
  { self with recoveryRequiredReason := some (self.recoveryRequiredReason.getD reason) }

def ensureWritePathAvailable (self : SingleNodeCommitCoordinator P W) : Except Error Unit :=
  match self.recoveryRequiredReason with
  | some reason => .error (.recoveryRequired reason)
  | none => .ok ()

theorem ensureWritePathAvailable_eq_ok {self : SingleNodeCommitCoordinator P W} {u : Unit} :
    self.ensureWritePathAvailable = .ok u ↔ self.recoveryRequiredReason = none := by
  rw [ensureWritePathAvailable]
  cases self.recoveryRequiredReason <;> simp

def stopForRecovery {α : Type} (reason : String) :
    EStateM Error (SingleNodeCommitCoordinator P W) α := do
  modify (demandRecovery reason)
  let self ← get
  throw (.recoveryRequired (self.recoveryRequiredReason.getD reason))

variable [SingleNodeCommitParticipant P]

/-- Construct a coordinator around a semantic commit participant. -/
def withParticipant (participant : P) (commitLog : W) :
    Except Error (SingleNodeCommitCoordinator P W) := do
  rejectIf (tableId participant = 0)
    (Error.invalidArgument "commit coordinator table ID 0 is reserved")
  return { participant, commitLog, recoveryRequiredReason := none }

def buildCommitRecord (self : SingleNodeCommitCoordinator P W) (transaction : Transaction)
    (commitTimestamp : Timestamp) : SingleNodeTxnCommit where
  tableId := tableId self.participant
  txnId := transaction.id
  startTimestamp := transaction.startTs
  commitTimestamp
  schemaVersion := schemaVersion self.participant
  writes := transaction.writes.map fun _ mutation => WalMutation.ofMutation mutation

/-- Everything of a commit before its append: the preflight, the timestamp and the record. -/
def prepareCommit (self : SingleNodeCommitCoordinator P W) (transaction : Transaction)
    (allocate : CommitTimestampAllocator) : Except Error SingleNodeTxnCommit := do
  self.ensureWritePathAvailable
  validateCommit self.participant transaction
  let commitTimestamp ← allocate transaction.startTs
  validateAllocatedCommitTimestamp transaction.startTs commitTimestamp
  return self.buildCommitRecord transaction commitTimestamp

/-- Apply a durable transaction; a failure stops the write path. -/
def applyDurable (transaction : Transaction) (commitTimestamp : Timestamp) (failed : Error → String)
    (mismatched : Nat → String) : EStateM Error (SingleNodeCommitCoordinator P W) Nat := fun self =>
  match (applyCommit transaction commitTimestamp).run self.participant with
  | .ok appliedWrites participant =>
    if appliedWrites = transaction.writes.size then .ok appliedWrites { self with participant }
    else (stopForRecovery (mismatched appliedWrites)).run { self with participant }
  | .error source participant => (stopForRecovery (failed source)).run { self with participant }

/-- Materialize a commit that was already made authoritative by Raft. -/
def applyReplicatedCommit (transaction : Transaction) (commitTimestamp : Timestamp) :
    EStateM Error (SingleNodeCommitCoordinator P W) Nat := do
  validateTransactionMetadata transaction
  let self ← get
  self.ensureWritePathAvailable
  validateCommit self.participant transaction
  validateAllocatedCommitTimestamp transaction.startTs commitTimestamp
  applyDurable transaction commitTimestamp
    (fun source =>
      s!"replicated commit for transaction {transaction.id} at timestamp {commitTimestamp} " ++
        s!"failed during MVCC application: {source.display}")
    fun appliedWrites =>
      s!"replicated commit for transaction {transaction.id} applied {appliedWrites} " ++
        s!"mutations, but its Raft command contains {transaction.writes.size}"

/-- Append a record.  An unknown outcome demands recovery. -/
def appendRecord [DurableCommitLog W] (record : SingleNodeTxnCommit) :
    EStateM Error (SingleNodeCommitCoordinator P W) DurableWalExtent := fun self =>
  match (appendSingleNodeCommit record).run self.commitLog with
  | .ok extent commitLog => .ok extent { self with commitLog }
  | .error error commitLog =>
    match error with
    | .commitOutcomeUnknown _ _ _ =>
      .error error (demandRecovery error.display { self with commitLog })
    | _ => .error error { self with commitLog }

/-- Commit one local transaction through the complete ordered boundary. -/
def commit [DurableCommitLog W] (transaction : Transaction) (allocate : CommitTimestampAllocator) :
    EStateM Error (SingleNodeCommitCoordinator P W) SingleNodeCommitOutcome := do
  validateTransactionMetadata transaction
  if transaction.writes.isEmpty then
    return { transactionId := transaction.id, commitTimestamp := none, committedWrites := 0,
             walExtent := none }
  else
    let self ← get
    let record ← self.prepareCommit transaction allocate
    let walExtent ← appendRecord record
    let appliedWrites ← applyDurable transaction record.commitTimestamp
      (fun source =>
        s!"durable commit for transaction {transaction.id} at timestamp " ++
          s!"{record.commitTimestamp} failed during atomic MVCC application: {source.display}")
      fun appliedWrites =>
        s!"durable commit for transaction {transaction.id} applied {appliedWrites} mutations, " ++
          s!"but its WAL record contains {transaction.writes.size}"
    return { transactionId := transaction.id, commitTimestamp := some record.commitTimestamp,
             committedWrites := appliedWrites, walExtent := some walExtent }

/-! ## What a call does -/

/-- The call gets as far as appending this record. -/
structure Prepares (coordinator : SingleNodeCommitCoordinator P W) (transaction : Transaction)
    (allocate : CommitTimestampAllocator) (record : SingleNodeTxnCommit) : Prop where
  metadata : validateTransactionMetadata transaction = .ok ()
  nonempty : transaction.writes.isEmpty = false
  prepared : coordinator.prepareCommit transaction allocate = .ok record

/-- The call reaches the application of a replicated commit. -/
structure Replicates (coordinator : SingleNodeCommitCoordinator P W) (transaction : Transaction)
    (commitTimestamp : Timestamp) : Prop where
  metadata : validateTransactionMetadata transaction = .ok ()
  available : coordinator.ensureWritePathAvailable = .ok ()
  valid : validateCommit coordinator.participant transaction = .ok ()
  advances : validateAllocatedCommitTimestamp transaction.startTs commitTimestamp = .ok ()

variable (self : SingleNodeCommitCoordinator P W) (transaction : Transaction)
  (commitTimestamp : Timestamp) (allocate : CommitTimestampAllocator)
  (record : SingleNodeTxnCommit)

/-- The participant does not apply all of the transaction. -/
def FailsToApply : Prop :=
  ∀ participant, (applyCommit transaction commitTimestamp).run self.participant ≠
    .ok transaction.writes.size participant

/-- An application that fails demands recovery, and any other is the participant's. -/
theorem applyDurable_run (failed : Error → String) (mismatched : Nat → String) :
    (∃ participant, (applyCommit transaction commitTimestamp).run self.participant =
        .ok transaction.writes.size participant ∧
      (applyDurable transaction commitTimestamp failed mismatched).run self =
        .ok transaction.writes.size { self with participant }) ∨
    self.FailsToApply transaction commitTimestamp ∧
      ∃ e self', (applyDurable transaction commitTimestamp failed mismatched).run self =
        .error e self' ∧ self'.recoveryRequiredReason ≠ none ∧
          self'.participant = after (applyCommit transaction commitTimestamp) self.participant := by
  simp only [applyDurable, EStateM.run, FailsToApply, after]
  cases hrun : (applyCommit transaction commitTimestamp) self.participant with
  | ok appliedWrites participant =>
    by_cases hsize : appliedWrites = transaction.writes.size
    · subst hsize
      exact .inl ⟨participant, rfl, by simp⟩
    · refine .inr ⟨fun participant' heq => hsize ?_, ?_⟩
      · cases heq
        rfl
      · simp only [hsize, ↓reduceIte]
        exact ⟨_, _, rfl, by simp [demandRecovery], rfl⟩
  | error =>
    exact .inr ⟨by simp, _, _, rfl, by simp [demandRecovery], rfl⟩

/-- A replicated commit is refused, applied or stops the write path. -/
theorem applyReplicatedCommit_run :
    (¬self.Replicates transaction commitTimestamp ∧
      ∃ e, (applyReplicatedCommit transaction commitTimestamp).run self = .error e self) ∨
    self.Replicates transaction commitTimestamp ∧
      ((∃ participant, (applyCommit transaction commitTimestamp).run self.participant =
          .ok transaction.writes.size participant ∧
        (applyReplicatedCommit transaction commitTimestamp).run self =
          .ok transaction.writes.size { self with participant }) ∨
      self.FailsToApply transaction commitTimestamp ∧
        ∃ e self', (applyReplicatedCommit transaction commitTimestamp).run self = .error e self' ∧
          self'.recoveryRequiredReason ≠ none ∧ self'.participant =
            after (applyCommit transaction commitTimestamp) self.participant) := by
  rw [applyReplicatedCommit]
  cases hmetadata : validateTransactionMetadata transaction with
  | error e =>
    exact .inl ⟨fun h => by simp [h.metadata] at hmetadata, e, rfl⟩
  | ok u =>
    rw [lift_bind_run_of_ok rfl, get_bind_run]
    cases havailable : self.ensureWritePathAvailable with
    | error e =>
      exact .inl ⟨fun h => by simp [h.available] at havailable, e, rfl⟩
    | ok u =>
      rw [lift_bind_run_of_ok rfl]
      cases hvalid : validateCommit self.participant transaction with
      | error e =>
        exact .inl ⟨fun h => by simp [h.valid] at hvalid, e, rfl⟩
      | ok u =>
        rw [lift_bind_run_of_ok rfl]
        cases hadvances :
            validateAllocatedCommitTimestamp transaction.startTs commitTimestamp with
        | error e =>
          exact .inl ⟨fun h => by simp [h.advances] at hadvances, e, rfl⟩
        | ok u =>
          exact .inr ⟨⟨hmetadata, havailable, hvalid, hadvances⟩,
            applyDurable_run self transaction commitTimestamp _ _⟩

theorem mutations_buildCommitRecord :
    (self.buildCommitRecord transaction commitTimestamp).mutations = transaction.writes := by
  refine ExtTreeMap.ext_getElem? fun key => ?_
  simp only [SingleNodeTxnCommit.mutations, buildCommitRecord, ExtTreeMap.map_map,
    ExtTreeMap.getElem?_map, WalMutation.toMutation_ofMutation]
  exact Option.map_id_apply

/-- The call appends this record. -/
def Appends [DurableCommitLog W] : Prop :=
  self.Prepares transaction allocate record ∧
    ∃ extent commitLog,
      (appendSingleNodeCommit record).run self.commitLog = .ok extent commitLog

/-- A call is refused or empty, fails to append, or appends and then applies or stops. -/
inductive Commits [DurableCommitLog W] :
    EStateM.Result Error (SingleNodeCommitCoordinator P W) SingleNodeCommitOutcome → Prop
  | refused {e : Error} : (∀ record, ¬self.Prepares transaction allocate record) →
      Commits (.error e self)
  | empty {outcome : SingleNodeCommitOutcome} : transaction.writes.isEmpty →
      Commits (.ok outcome self)
  | unappended {record : SingleNodeTxnCommit} {e : Error} {commitLog : W} {reason : Option String} :
      self.Prepares transaction allocate record →
      (appendSingleNodeCommit record).run self.commitLog = .error e commitLog →
      (reason = none → self.recoveryRequiredReason = none ∧
        ∀ startLsn endLsn text, e ≠ .commitOutcomeUnknown startLsn endLsn text) →
      Commits
        (.error e { self with commitLog, recoveryRequiredReason := reason })
  | applied {record : SingleNodeTxnCommit} {commitLog : W} {participant : P}
      {outcome : SingleNodeCommitOutcome} : self.Appends transaction allocate record →
      (applyCommit transaction record.commitTimestamp).run self.participant =
        .ok transaction.writes.size participant →
      Commits (.ok outcome { self with commitLog, participant })
  | stopped {record : SingleNodeTxnCommit} {e : Error} {self' : SingleNodeCommitCoordinator P W} :
      self.Appends transaction allocate record →
      self.FailsToApply transaction record.commitTimestamp →
      self'.recoveryRequiredReason ≠ none →
      self'.participant =
        after (applyCommit transaction record.commitTimestamp) self.participant →
      Commits (.error e self')

variable {self transaction commitTimestamp allocate record}

theorem eq_of_prepareCommit (h : self.prepareCommit transaction allocate = .ok record) :
    self.recoveryRequiredReason = none ∧
      record = self.buildCommitRecord transaction record.commitTimestamp := by
  simp only [prepareCommit, eq_ok] at h
  obtain ⟨_, havailable, _, -, commitTimestamp, -, _, -, rfl⟩ := h
  exact ⟨ensureWritePathAvailable_eq_ok.mp havailable, rfl⟩

theorem Replicates.recoveryRequiredReason_eq_none
    (h : self.Replicates transaction commitTimestamp) : self.recoveryRequiredReason = none :=
  ensureWritePathAvailable_eq_ok.mp h.available

theorem applyReplicatedCommit_of_recoveryRequired (h : self.recoveryRequiredReason ≠ none) :
    ∃ e, (applyReplicatedCommit transaction commitTimestamp).run self = .error e self := by
  rcases applyReplicatedCommit_run self transaction commitTimestamp with
    ⟨-, hrefused⟩ | ⟨hreplicates, -⟩
  · exact hrefused
  · exact absurd hreplicates.recoveryRequiredReason_eq_none h

variable [DurableCommitLog W]

omit [SingleNodeCommitParticipant P] in
theorem appendRecord_of_error {commitLog : W} {e : Error}
    (h : (appendSingleNodeCommit record).run self.commitLog = .error e commitLog) :
    ∃ reason, (appendRecord record).run self =
        .error e { self with commitLog, recoveryRequiredReason := reason } ∧
      (reason = none → self.recoveryRequiredReason = none ∧
        ∀ startLsn endLsn text, e ≠ .commitOutcomeUnknown startLsn endLsn text) := by
  simp only [appendRecord, EStateM.run] at h ⊢
  rw [h]
  cases e <;> exact ⟨_, rfl, by simp⟩

variable (self transaction allocate) in
theorem commits_of_run :
    self.Commits transaction allocate ((commit transaction allocate).run self) := by
  rw [commit]
  cases hmetadata : validateTransactionMetadata transaction with
  | error =>
    exact .refused fun record h => by simp [h.metadata] at hmetadata
  | ok =>
    rw [lift_bind_run_of_ok rfl]
    by_cases hempty : transaction.writes.isEmpty
    · rw [if_pos hempty]
      exact .empty hempty
    rw [if_neg hempty, get_bind_run]
    cases hprepared : self.prepareCommit transaction allocate with
    | error =>
      exact .refused fun record h => by simp [h.prepared] at hprepared
    | ok record =>
      rw [lift_bind_run_of_ok rfl]
      have hprepares : self.Prepares transaction allocate record :=
        ⟨hmetadata, by simpa using hempty, hprepared⟩
      cases happend : (appendSingleNodeCommit record).run self.commitLog with
      | error =>
        obtain ⟨reason, hrun, hreason⟩ := appendRecord_of_error happend
        rw [bind_run_of_error hrun]
        exact .unappended hprepares happend hreason
      | ok extent commitLog =>
        have hrun : (appendRecord record).run self = .ok extent { self with commitLog } := by
          simp only [appendRecord, EStateM.run] at happend ⊢
          rw [happend]
        rw [bind_run_of_ok hrun]
        have happends : self.Appends transaction allocate record :=
          ⟨hprepares, extent, commitLog, happend⟩
        rcases applyDurable_run { self with commitLog } transaction record.commitTimestamp
          _ _ with ⟨participant, happly, hrun⟩ | ⟨hfails, e, self', hrun, hreason, hafter⟩
        · rw [bind_run_of_ok hrun]
          exact .applied happends happly
        · rw [bind_run_of_error hrun]
          exact .stopped happends hfails hreason hafter

theorem commit_of_recoveryRequired (h : self.recoveryRequiredReason ≠ none)
    (hwrites : transaction.writes.isEmpty = false) :
    ∃ e, (commit transaction allocate).run self = .error e self := by
  have hcommits := commits_of_run self transaction allocate
  generalize (commit transaction allocate).run self = result at hcommits
  cases hcommits with
  | refused => exact ⟨_, rfl⟩
  | empty hempty => simp [hwrites] at hempty
  | unappended hprepares => exact absurd (eq_of_prepareCommit hprepares.prepared).1 h
  | applied happends | stopped happends =>
    exact absurd (eq_of_prepareCommit happends.1.prepared).1 h

end SingleNodeCommitCoordinator

end RagnorDb
