import RagnorDb.MultiRaft.Recovery

/-!
# Ordered persistence of one Raft replica

`RaftWalStorage` of `storage/persistence.rs`.  A batch is prepared against a preview of the
log view at made-up WAL positions, its records are appended and synchronized in one order
(snapshot pointer, entries, hard state), and the logical state is published from the
positions that the WAL returned.
-/

namespace RagnorDb

open Std Checked

/-- One logical persistence generation. -/
structure RaftPersistenceBatch where
  snapshot : Option RaftSnapshotPointerRecord
  entries : List LogEntry
  hardState : Option HardState
  deriving DecidableEq

/-- The encoded records of a batch, with the state that they stand for. -/
structure PreparedBatch where
  records : List RaftWalRecord
  entryRecords : List RaftLogEntryRecord
  snapshot : Option RaftSnapshotPointerRecord
  hardState : Option HardState
  deriving DecidableEq

/-- The bytes of one appended record. -/
structure RecordExtent where
  startLsn : Lsn
  endLsn : Lsn
  deriving DecidableEq

structure BatchAppendResult where
  recordExtents : List RecordExtent
  finalEndLsn : Lsn
  deriving DecidableEq

/-- The durable interval and record count of one successful batch. -/
structure RaftPersistedBatch where
  startLsn : Option Lsn
  endLsn : Option Lsn
  recordCount : Nat
  deriving DecidableEq

inductive RaftPersistenceError where
  | recoveryRequired
  | snapshotWithoutHardState
  | invalidLogEntry (error : RaftLogEntryCodecError)
  | invalidStableState (error : RaftStableStateCodecError)
  | invalidSnapshotTransition (error : SnapshotTransitionError)
  | invalidLogTransition (error : RaftLogViewError)
  | commitBeyondLog (commitIndex lastLogIndex : Nat)
  | previewLsnExhausted
  | notStaged (recoveryRequired : Bool) (reason : String)
  | outcomeUnknown (startLsn endLsn : Lsn) (reason : String)
  | postSyncInvariant (reason : String)
  | postSyncLogTransition (error : RaftLogViewError)
  | internalInvariant (reason : String)
  | snapshotIdentityMismatch (expected received : RaftReplicaIdentity)
  | hardStateBeforeSnapshotTerm (currentTerm snapshotTerm : Nat)
  | hardStateBeforeSnapshotCommit (commitIndex snapshotIndex : Nat)
  | hardStateBeforeLogTerm (currentTerm maximumLogTerm : Nat)
  deriving DecidableEq

/-- Durable storage owner of one replica lifetime. -/
structure RaftWalStorage where
  identity : RaftReplicaIdentity
  logView : RaftReplicaLogView
  confState : Option ConfState
  hardState : Option HardState
  hardStateLsn : Option Lsn
  durableEndLsn : Option Lsn
  recoveryRequired : Bool
  snapshot : Option RaftSnapshotPointerRecord
  snapshotPointerLsn : Option Lsn

namespace RaftWalStorage

def new (identity : RaftReplicaIdentity) : RaftWalStorage :=
  ⟨identity, .new identity, none, none, none, none, false, none, none⟩

variable (core : RaftCore) (self : RaftWalStorage)

/-- The oldest physical record that this replica reports as needed. -/
def minimumRecoveryLsn : Option Lsn :=
  ([self.snapshotPointerLsn, self.hardStateLsn, self.logView.firstRetainedLsn].filterMap id).min?

/-! ## Preparing a batch -/

/-- The log view and the WAL position that a preparation looks ahead with. -/
structure Preview where
  view : RaftReplicaLogView
  lsn : Lsn

def Preview.advance (preview : Preview) : Except RaftPersistenceError Lsn :=
  okOr (checkedAdd preview.lsn 1) .previewLsnExhausted

def previewSnapshot (preview : Preview) :
    Option RaftSnapshotPointerRecord → Except RaftPersistenceError Preview
  | none => .ok preview
  | some snapshot => do
    (snapshot.validate core).mapError .invalidStableState
    rejectIf (snapshot.identity ≠ self.identity)
      (.snapshotIdentityMismatch self.identity snapshot.identity)
    (validateSnapshotSuccessor self.snapshot snapshot).mapError .invalidSnapshotTransition
    let lsn ← preview.advance
    let view ← (preview.view.installSnapshot snapshot.lastIncludedIndex
      snapshot.lastIncludedTerm lsn).mapError .invalidLogTransition
    return ⟨view, lsn⟩

/-- One entry of a batch, with its record. -/
def previewEntry (state : Preview × List RaftLogEntryRecord)
    (entry : LogEntry) : Except RaftPersistenceError (Preview × List RaftLogEntryRecord) := do
  let lsn ← state.1.advance
  let record ← (RaftLogEntryRecord.fromCore self.identity entry).mapError .invalidLogEntry
  let view ← (state.1.view.replay record lsn).mapError .invalidLogTransition
  return (⟨view, lsn⟩, state.2 ++ [record])

/-- The hard state of a batch covers the snapshot of the batch. -/
def checkCovers (hardState : HardState) :
    Option RaftSnapshotPointerRecord → Except RaftPersistenceError Unit
  | none => .ok ()
  | some snapshot => do
    rejectIf (hardState.currentTerm < snapshot.lastIncludedTerm)
      (.hardStateBeforeSnapshotTerm hardState.currentTerm snapshot.lastIncludedTerm)
    rejectIf (hardState.commit < snapshot.lastIncludedIndex)
      (.hardStateBeforeSnapshotCommit hardState.commit snapshot.lastIncludedIndex)

def checkHardState (view : RaftReplicaLogView) (snapshot : Option RaftSnapshotPointerRecord) :
    Option HardState → Except RaftPersistenceError (List RaftWalRecord)
  | none => .ok []
  | some hardState => do
    (validateHardStateSuccessor self.hardState hardState).mapError .invalidStableState
    checkCovers hardState snapshot
    rejectIf (hardState.commit > view.lastIndex.getD 0)
      (.commitBeyondLog hardState.commit (view.lastIndex.getD 0))
    let record ← (RaftHardStateRecord.fromCore self.identity hardState).mapError .invalidStableState
    return [.hardState record]

/-- The term after the batch covers every term that its log shows. -/
def checkTerms (view : RaftReplicaLogView) (hardState : Option HardState) :
    Except RaftPersistenceError Unit :=
  let snapshotTerm := (view.snapshotBoundary.map Prod.snd).getD 0
  let maximumObservedTerm := max view.maximumLogTerm snapshotTerm
  let effectiveCurrentTerm := max
    (((hardState.map HardState.currentTerm).or (self.hardState.map HardState.currentTerm)).getD 0)
    snapshotTerm
  rejectIf (effectiveCurrentTerm < maximumObservedTerm)
    (.hardStateBeforeLogTerm effectiveCurrentTerm maximumObservedTerm)

def prepareBatch (batch : RaftPersistenceBatch) : Except RaftPersistenceError PreparedBatch := do
  rejectIf (batch.snapshot.isSome ∧ batch.hardState.isNone) .snapshotWithoutHardState
  let start : Preview := ⟨self.logView, self.logView.lastReplayedLsn.getD 0⟩
  let preview ← self.previewSnapshot core start batch.snapshot
  let (preview, entryRecords) ← batch.entries.foldlM self.previewEntry (preview, [])
  let hardStateRecords ← self.checkHardState preview.view batch.snapshot batch.hardState
  self.checkTerms preview.view batch.hardState
  return {
    records := batch.snapshot.toList.map .snapshotPointer ++ entryRecords.map .logEntry ++
      hardStateRecords
    entryRecords
    snapshot := batch.snapshot
    hardState := batch.hardState }

/-! ## Publishing a batch -/

/-- The log view after the snapshot of a durable batch. -/
def durableSnapshot (lsn : Lsn) :
    Option RaftSnapshotPointerRecord → Except RaftPersistenceError RaftReplicaLogView
  | none => .ok self.logView
  | some snapshot =>
    (self.logView.installSnapshot snapshot.lastIncludedIndex snapshot.lastIncludedTerm
      lsn).mapError .postSyncLogTransition

/-- The log view after the entries of a durable batch. -/
def durableEntries (view : RaftReplicaLogView)
    (entries : List (RaftLogEntryRecord × RecordExtent)) :
    Except RaftPersistenceError RaftReplicaLogView :=
  entries.foldlM (fun view entry =>
    (view.replay entry.1 entry.2.startLsn).mapError .postSyncLogTransition) view

/-- The storage with the snapshot of a durable batch. -/
def publishSnapshot (lsn : Lsn) : Option RaftSnapshotPointerRecord → RaftWalStorage
  | none => self
  | some snapshot => { self with
      confState := some snapshot.confState
      hardState := some (hardStateOnSnapshot snapshot self.hardState)
      snapshot := some snapshot
      snapshotPointerLsn := some lsn }

/-- The storage with the hard state of a durable batch. -/
def publishHardState (lsn : Lsn) : Option HardState → Except RaftPersistenceError RaftWalStorage
  | none => .ok self
  | some hardState => do
    let logView ← (self.logView.advanceCommit hardState.commit).mapError .postSyncLogTransition
    return { self with logView, hardState := some hardState, hardStateLsn := some lsn }

end RaftWalStorage

abbrev PersistenceM := EStateM RaftPersistenceError RaftWalStorage

namespace RaftWalStorage

/-- A failure behind the append is fail-stop: the storage then requires recovery. -/
def orRequireRecovery {α : Type} (result : Except RaftPersistenceError α) : PersistenceM α :=
  fun self =>
    match result with
    | .ok a => .ok a self
    | .error error => .error error { self with recoveryRequired := true }

/-- Publish a prepared batch after its append. -/
def commitPreparedBatch (prepared : PreparedBatch) (result : BatchAppendResult) :
    PersistenceM RaftPersistedBatch := do
  if prepared.records = [] then
    return ⟨none, none, 0⟩
  else
    let extents := result.recordExtents
    orRequireRecovery (rejectIf (extents.length ≠ prepared.records.length)
      (.postSyncInvariant "A-WAL returned a different extent count for a successful batch"))
    let first ← okOr extents.head?
      (RaftPersistenceError.internalInvariant "non-empty persistence batch produced no WAL extents")
    let last ← okOr extents.getLast? (RaftPersistenceError.internalInvariant
      "non-empty persistence batch produced no final WAL extent")
    orRequireRecovery (rejectIf (result.finalEndLsn ≠ last.endLsn)
      (.postSyncInvariant "A-WAL final durability frontier did not cover the final record"))
    let self ← get
    let view ← orRequireRecovery (self.durableSnapshot first.startLsn prepared.snapshot)
    let logView ← orRequireRecovery (durableEntries view
      (prepared.entryRecords.zip (extents.drop prepared.snapshot.toList.length)))
    modify fun self =>
      ({ self with logView } : RaftWalStorage).publishSnapshot first.startLsn prepared.snapshot
    let self ← get
    let storage ← orRequireRecovery (self.publishHardState last.startLsn prepared.hardState)
    set ({ storage with durableEndLsn := some last.endLsn } : RaftWalStorage)
    return ⟨some first.startLsn, some last.endLsn, prepared.records.length⟩

/-- The WAL is only called for records.  It answers with extents, or with a failure: nothing was
staged, or the outcome is unknown. -/
def appendPreparedBatch (prepared : PreparedBatch)
    (append : List RaftWalRecord → Except RaftPersistenceError BatchAppendResult) :
    PersistenceM BatchAppendResult :=
  if prepared.records = [] then
    return ⟨[], 0⟩
  else
    match append prepared.records with
    | .ok result => return result
    | .error (.notStaged recoveryRequired reason) => do
      modify fun self =>
        { self with recoveryRequired := self.recoveryRequired || recoveryRequired }
      throw (.notStaged recoveryRequired reason)
    | .error error => orRequireRecovery (.error error)

/-- Persist one generation, where the WAL answers with `append`. -/
def persist (core : RaftCore) (batch : RaftPersistenceBatch)
    (append : List RaftWalRecord → Except RaftPersistenceError BatchAppendResult) :
    PersistenceM RaftPersistedBatch := do
  let self ← get
  rejectIf self.recoveryRequired RaftPersistenceError.recoveryRequired
  let prepared ← self.prepareBatch core batch
  let result ← appendPreparedBatch prepared append
  commitPreparedBatch prepared result

/-! ## A batch that succeeds -/

/-- What a durable batch leaves: the state is published from the positions of its records. -/
def publishBatch (self : RaftWalStorage) (prepared : PreparedBatch) (extents : List RecordExtent)
    (first last : RecordExtent) : Except RaftPersistenceError RaftWalStorage := do
  let view ← self.durableSnapshot first.startLsn prepared.snapshot
  let logView ← durableEntries view
    (prepared.entryRecords.zip (extents.drop prepared.snapshot.toList.length))
  let storage := ({ self with logView } : RaftWalStorage).publishSnapshot first.startLsn
    prepared.snapshot
  let storage ← storage.publishHardState last.startLsn prepared.hardState
  return { storage with durableEndLsn := some last.endLsn }

variable {self storage : RaftWalStorage} {prepared : PreparedBatch} {result : BatchAppendResult}
  {persisted : RaftPersistedBatch}

theorem orRequireRecovery_bind_run_eq_ok {α β : Type} {x : Except RaftPersistenceError α}
    {f : α → PersistenceM β} {b : β} :
    (orRequireRecovery x >>= f).run self = .ok b storage ↔
      ∃ a, x = .ok a ∧ (f a).run self = .ok b storage := by
  rw [EStateM.run_bind]
  cases x <;> simp [EStateM.run, orRequireRecovery]

theorem durableEndLsn_of_publishBatch {extents : List RecordExtent} {first last : RecordExtent}
    (h : self.publishBatch prepared extents first last = .ok storage) :
    storage.durableEndLsn = some last.endLsn := by
  simp only [publishBatch, eq_ok] at h
  obtain ⟨_, -, _, -, _, -, rfl⟩ := h
  rfl

theorem commitPreparedBatch_of_nil (hrecords : prepared.records = []) :
    commitPreparedBatch prepared result = pure ⟨none, none, 0⟩ :=
  if_pos hrecords

theorem commitPreparedBatch_run_eq_ok (hrecords : prepared.records ≠ []) :
    (commitPreparedBatch prepared result).run self = .ok persisted storage ↔
      result.recordExtents.length = prepared.records.length ∧
      ∃ first last, result.recordExtents.head? = some first ∧
        result.recordExtents.getLast? = some last ∧ result.finalEndLsn = last.endLsn ∧
        self.publishBatch prepared result.recordExtents first last = .ok storage ∧
        ⟨some first.startLsn, some last.endLsn, prepared.records.length⟩ = persisted := by
  unfold commitPreparedBatch publishBatch
  rw [if_neg hrecords]
  simp only [orRequireRecovery_bind_run_eq_ok, run_eq_ok, modify_bind_run, set_bind_run,
    EStateM.Result.ok.injEq, eq_ok']
  constructor
  · rintro ⟨hlength, first, hfirst, last, hlast, hfinal, view, hview, logView, hlogView, published,
      hpublished, hpersisted, hstorage⟩
    exact ⟨hlength, first, last, hfirst, hlast, hfinal,
      ⟨view, hview, logView, hlogView, published, hpublished, hstorage⟩, hpersisted⟩
  · rintro ⟨hlength, first, last, hfirst, hlast, hfinal,
      ⟨view, hview, logView, hlogView, published, hpublished, hstorage⟩, hpersisted⟩
    exact ⟨hlength, first, hfirst, last, hlast, hfinal, view, hview, logView, hlogView, published,
      hpublished, hpersisted, hstorage⟩

end RaftWalStorage

end RagnorDb
