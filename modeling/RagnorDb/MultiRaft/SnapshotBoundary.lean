import RagnorDb.MultiRaft.Retention

/-!
# Snapshot boundaries of a Ready loop

`persist_external_snapshot_boundary` of `runtime.rs` makes the boundary of a published snapshot
durable and classifies every failure.  A boundary whose term contradicts the retained entry at
its index is refused before anything is written, and the refusal quarantines the group.
-/

namespace RagnorDb

open Std Checked

inductive RuntimeState where
  | active
  | groupQuarantined
  | recoveryRequired
  deriving DecidableEq

inductive ReadyLoopError where
  | recoveryRequired
  | groupQuarantined
  | retryablePersistence (error : RaftPersistenceError)
  | persistenceRejected (error : RaftPersistenceError)
  | snapshotPersistenceShape
  deriving DecidableEq

/-- The failure state of a Ready loop, with its durable storage. -/
structure RaftReadyLoop where
  state : RuntimeState
  persistence : RaftWalStorage

namespace RaftReadyLoop

def ensureActive (self : RaftReadyLoop) : Except ReadyLoopError Unit :=
  match self.state with
  | .active => .ok ()
  | .groupQuarantined => .error .groupQuarantined
  | .recoveryRequired => .error .recoveryRequired

/-- A local quarantine never downgrades the requirement of a recovery. -/
def quarantine (self : RaftReadyLoop) : RaftReadyLoop :=
  if self.state = .recoveryRequired then self else { self with state := .groupQuarantined }

def requireRecovery (self : RaftReadyLoop) : RaftReadyLoop :=
  { self with state := .recoveryRequired }

/-- Classify a failed persistence. -/
def persistenceFailed (self : RaftReadyLoop) (error : RaftPersistenceError) :
    RaftReadyLoop × ReadyLoopError :=
  match error with
  | .outcomeUnknown _ _ _ | .recoveryRequired | .notStaged true _ | .postSyncInvariant _
  | .postSyncLogTransition _ | .internalInvariant _ => (self.requireRecovery, .recoveryRequired)
  | .notStaged false _ => (self, .retryablePersistence error)
  | _ => (self.quarantine, .persistenceRejected error)

variable (core : RaftCore)

/-- Persist the boundary of an external snapshot, where `pinned` tells whether the retention
pin was acquired and the WAL answers with `append`. -/
def persistExternalSnapshotBoundary (pointer : RaftSnapshotPointerRecord) (hardState : HardState)
    (pinned : Bool) (append : List RaftWalRecord → Except RaftPersistenceError BatchAppendResult) :
    EStateM ReadyLoopError RaftReadyLoop RaftPersistedBatch := fun self =>
  match self.ensureActive with
  | .error error => .error error self
  | .ok () =>
    if !pinned then .error .groupQuarantined self.quarantine
    else
      match (RaftWalStorage.persist core ⟨some pointer, [], some hardState⟩ append).run
          self.persistence with
      | .error error persistence =>
        let failed := ({ self with persistence } : RaftReadyLoop).persistenceFailed error
        .error failed.2 failed.1
      | .ok persisted persistence =>
        let self := { self with persistence }
        if persisted.recordCount ≠ 2 ∨ persisted.endLsn = none then
          .error .snapshotPersistenceShape self.requireRecovery
        else
          .ok persisted self

end RaftReadyLoop

/-! ## Contradicting boundaries -/

/-- The entry at the index of a boundary has another term. -/
def RaftReplicaLogView.Contradicts (view : RaftReplicaLogView) (i t : Nat) : Prop :=
  ∃ entry, view.entries[i]? = some entry ∧ entry.record.term ≠ t

variable {core : RaftCore} {pointer : RaftSnapshotPointerRecord} {lsn : Lsn}

theorem RaftReplicaLogView.not_contradicts_of_installSnapshot {view view' : RaftReplicaLogView}
    {i t : Nat} (h : view.installSnapshot i t lsn = .ok view') :
    ¬ view.Contradicts i t ∧ view'.snapshotBoundary = some (i, t) := by
  obtain ⟨hcheck, -, rfl⟩ := installSnapshot_eq_ok.mp h
  simp only [checkSnapshot, eq_ok'] at hcheck
  obtain ⟨hzero, -, -, -, hterm⟩ := hcheck
  refine ⟨?_, by simp [snapshotBoundary, rebase, hzero.1]⟩
  rintro ⟨entry, hentry, hne⟩
  rw [hentry] at hterm
  exact rejectIf_eq_ok.mp hterm hne

/-- The error quarantines the group. -/
def RaftPersistenceError.Rejects (e : RaftPersistenceError) : Prop :=
  ∀ loop : RaftReadyLoop, loop.persistenceFailed e = (loop.quarantine, .persistenceRejected e)

theorem RaftWalStorage.prepareBatch_contradicted {storage : RaftWalStorage}
    (h : storage.logView.Contradicts pointer.lastIncludedIndex pointer.lastIncludedTerm)
    (hardState : HardState) :
    ∃ e, storage.prepareBatch core ⟨some pointer, [], some hardState⟩ = .error e ∧ e.Rejects := by
  have hrejects : FailsWith RaftPersistenceError.Rejects (storage.previewSnapshot core
      ⟨storage.logView, storage.logView.lastReplayedLsn.getD 0⟩ (some pointer)) := by
    simp [previewSnapshot, Preview.advance, RaftPersistenceError.Rejects,
      RaftReadyLoop.persistenceFailed]
  cases hpreview : storage.previewSnapshot core
      ⟨storage.logView, storage.logView.lastReplayedLsn.getD 0⟩ (some pointer) with
  | error e =>
    refine ⟨e, ?_, hrejects e hpreview⟩
    simp [prepareBatch, rejectIf, hpreview]
  | ok preview =>
    simp only [previewSnapshot, eq_ok] at hpreview
    obtain ⟨_, -, _, -, _, -, lsn, -, view', hinstall, -⟩ := hpreview
    exact absurd h (RaftReplicaLogView.not_contradicts_of_installSnapshot hinstall).1

/-- A snapshot boundary that contradicts a retained entry is refused: it is not installed at any
position, and an active Ready loop that is asked to persist it fails in the preparation, before
anything is written, and quarantines its group; without its retention pin it does so even before.
A boundary that is installed agrees with the log and is the new base. -/
theorem contradicting_boundary_refused (core : RaftCore) (loop : RaftReadyLoop)
    (pointer : RaftSnapshotPointerRecord) (hardState : HardState) (lsn : Lsn)
    (append : List RaftWalRecord → Except RaftPersistenceError BatchAppendResult) :
    let view := loop.persistence.logView
    let (index, term) := (pointer.lastIncludedIndex, pointer.lastIncludedTerm)
    (view.Contradicts index term →
      (∃ e, view.installSnapshot index term lsn = .error e) ∧
      ∃ e, loop.persistence.prepareBatch core ⟨some pointer, [], some hardState⟩ = .error e ∧
        (loop.state = .active → loop.persistence.recoveryRequired = false → ∀ pinned,
          (RaftReadyLoop.persistExternalSnapshotBoundary core pointer hardState pinned append).run
            loop = .error (if pinned then .persistenceRejected e else .groupQuarantined)
              { loop with state := .groupQuarantined })) ∧
      ∀ view', view.installSnapshot index term lsn = .ok view' →
        ¬ view.Contradicts index term ∧ view'.snapshotBoundary = some (index, term) := by
  refine ⟨fun hcontradicts => ⟨?_, ?_⟩,
    fun view' => RaftReplicaLogView.not_contradicts_of_installSnapshot⟩
  · cases hinstall : loop.persistence.logView.installSnapshot pointer.lastIncludedIndex
        pointer.lastIncludedTerm lsn with
    | error e => exact ⟨e, rfl⟩
    | ok view' =>
      exact absurd hcontradicts (RaftReplicaLogView.not_contradicts_of_installSnapshot hinstall).1
  · obtain ⟨e, hprepare, hrejects⟩ :=
      RaftWalStorage.prepareBatch_contradicted hcontradicts hardState
    refine ⟨e, hprepare, fun hactive hready pinned => ?_⟩
    have hpersist : (RaftWalStorage.persist core ⟨some pointer, [], some hardState⟩ append).run
        loop.persistence = .error e loop.persistence := by
      simp only [RaftWalStorage.persist, get_bind_run, hready, hprepare]
      rfl
    obtain ⟨state, persistence⟩ := loop
    obtain rfl : state = .active := hactive
    change RaftReadyLoop.persistExternalSnapshotBoundary core pointer hardState pinned append _ = _
    rw [RaftReadyLoop.persistExternalSnapshotBoundary, hpersist]
    cases pinned with
    | false => rfl
    | true =>
      dsimp only [RaftReadyLoop.ensureActive]
      rw [hrejects]
      rfl

/-- A replica that has persisted one entry, of term 2, and committed nothing. -/
def divergedLoop : RaftReadyLoop where
  state := .active
  persistence := after (RaftWalStorage.persist RaftNode.sampleCore
    ⟨none, [⟨1, 2, .normal [7]⟩], some ⟨2, none, 0⟩⟩ fun _ => .ok ⟨[⟨0, 10⟩, ⟨10, 20⟩], 20⟩)
    (.new ⟨1, 1⟩)

/-- The boundary of a verified snapshot of term 1 does not replace the entry: the replica is
quarantined. -/
theorem diverged_boundary_quarantined :
    let view := divergedLoop.persistence.logView
    view.committedIndex < 1 ∧ (view.entries[1]?.map fun entry => entry.record.term) = some 2 ∧
      errorOf (view.installSnapshot 1 1 20) = some (.snapshotBoundaryTermMismatch 1 2 1) ∧
      (after (RaftReadyLoop.persistExternalSnapshotBoundary RaftNode.sampleCore
        (RetainedNode.samplePointer 1) ⟨2, none, 1⟩ true fun _ => .ok ⟨[⟨20, 30⟩, ⟨30, 40⟩], 40⟩)
        divergedLoop).state = .groupQuarantined := by
  decide +kernel

theorem contradicting_boundary_refused_sample :
    ∃ e, (RaftReadyLoop.persistExternalSnapshotBoundary RaftNode.sampleCore
        (RetainedNode.samplePointer 1) ⟨2, none, 1⟩ true fun _ =>
          .ok ⟨[⟨20, 30⟩, ⟨30, 40⟩], 40⟩).run
      divergedLoop = .error (.persistenceRejected e)
        { divergedLoop with state := .groupQuarantined } := by
  have hentry : divergedLoop.persistence.logView.entries[1]? =
      some ⟨⟨1, ⟨1, 1⟩, 1, 2, .normal [7]⟩, 0⟩ := by
    decide +kernel
  have hrefused := (contradicting_boundary_refused RaftNode.sampleCore divergedLoop
    (RetainedNode.samplePointer 1) ⟨2, none, 1⟩ 20
    (fun _ => .ok ⟨[⟨20, 30⟩, ⟨30, 40⟩], 40⟩)).1 ⟨_, hentry, by decide⟩
  obtain ⟨e, -, hquarantined⟩ := hrefused.2
  exact ⟨e, hquarantined rfl (by decide +kernel) true⟩

end RagnorDb
