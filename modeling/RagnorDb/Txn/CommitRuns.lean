import RagnorDb.Storage.MvccInvariant
import RagnorDb.Txn.CommitCoordinator

/-!
# Runs of the single-node commit coordinator

A run calls `commit`, `apply_replicated_commit` and `replace_commit_log` in any order, over any
commit log.  Beside the coordinator it records the commits made durable so far: the records whose
append succeeded, and the replicated commits whose application was begun.  While recovery is not
demanded the MVCC state is the replay of that list.
-/

namespace RagnorDb

open Std Checked DurableCommitLog SingleNodeCommitParticipant MvccParticipant

/-- A commit that is durable: in the local log, or in the Raft log of the tablet. -/
inductive DurableCommit where
  | appended (record : SingleNodeTxnCommit)
  | replicated (record : SingleNodeTxnCommit)

def DurableCommit.record : DurableCommit → SingleNodeTxnCommit
  | .appended record | .replicated record => record

namespace SingleNodeCommitCoordinator

variable {P W : Type} [MvccParticipant P]
variable {n : Nat} {next : SingleNodeCommitCoordinator P W}

/-! ## What a call does to the MVCC state -/

variable {self : SingleNodeCommitCoordinator P W} {transaction : Transaction}
  {allocate : CommitTimestampAllocator} {record : SingleNodeTxnCommit}
  {commitTimestamp : Timestamp}

theorem replay_of_applyCommit {participant : P}
    (h : (applyCommit transaction commitTimestamp).run self.participant = .ok n participant) :
    (self.buildCommitRecord transaction commitTimestamp).replay.run (storage self.participant) =
      .ok n (storage participant) := by
  have happlied := applied h
  rw [SingleNodeTxnCommit.replay, mutations_buildCommitRecord]
  exact happlied

variable (self transaction commitTimestamp) in
theorem storage_after_applyCommit :
    storage (after (applyCommit transaction commitTimestamp) self.participant) =
        storage self.participant ∨
      ∃ n, (self.buildCommitRecord transaction commitTimestamp).replay.run
        (storage self.participant) =
          .ok n (storage (after (applyCommit transaction commitTimestamp) self.participant)) := by
  cases hrun : (applyCommit transaction commitTimestamp).run self.participant with
  | ok n =>
    rw [after_of_ok hrun]
    exact .inr ⟨n, replay_of_applyCommit hrun⟩
  | error =>
    rw [after_of_error hrun]
    exact .inl (unapplied hrun)

/-- The state after a durable record: a changed MVCC state is its replay, and only a state that
demands recovery is not. -/
structure Follows (before : SingleNodeCommitCoordinator P W) (record : SingleNodeTxnCommit)
    (next : SingleNodeCommitCoordinator P W) : Prop where
  changed : storage next.participant ≠ storage before.participant →
    ∃ n, record.replay.run (storage before.participant) = .ok n (storage next.participant)
  replayed : next.recoveryRequiredReason = none →
    ∃ n, record.replay.run (storage before.participant) = .ok n (storage next.participant)

theorem Follows.of_applied
    (happly : (applyCommit transaction commitTimestamp).run self.participant =
      .ok n next.participant) :
    self.Follows (self.buildCommitRecord transaction commitTimestamp) next :=
  ⟨fun _ => ⟨n, replay_of_applyCommit happly⟩, fun _ => ⟨n, replay_of_applyCommit happly⟩⟩

theorem Follows.of_stopped (hafter : next.participant =
      after (applyCommit transaction commitTimestamp) self.participant)
    (hreason : next.recoveryRequiredReason ≠ none) :
    self.Follows (self.buildCommitRecord transaction commitTimestamp) next := by
  refine ⟨fun hchanged => ?_, fun hnone => absurd hnone hreason⟩
  rw [hafter] at hchanged ⊢
  exact (storage_after_applyCommit self transaction commitTimestamp).resolve_left hchanged

theorem follows_applyReplicatedCommit (h : self.Replicates transaction commitTimestamp) :
    self.Follows (self.buildCommitRecord transaction commitTimestamp)
      (after (applyReplicatedCommit transaction commitTimestamp) self) := by
  rcases applyReplicatedCommit_run self transaction commitTimestamp with
    ⟨hnot, -⟩ | ⟨-, ⟨participant, happly, hrun⟩ | ⟨-, e, next, hrun, hreason, hafter⟩⟩
  · exact absurd h hnot
  · rw [after_of_ok hrun]
    exact .of_applied happly
  · rw [after_of_error hrun]
    exact .of_stopped hafter hreason

theorem applyReplicatedCommit_of_not_replicates (h : ¬self.Replicates transaction commitTimestamp) :
    after (applyReplicatedCommit transaction commitTimestamp) self = self := by
  rcases applyReplicatedCommit_run self transaction commitTimestamp with
    ⟨-, e, hrun⟩ | ⟨hreplicates, -⟩
  · exact after_of_error hrun
  · exact absurd hreplicates h

theorem recoveryRequired_of_replicates (h : self.Replicates transaction commitTimestamp)
    (hfails : self.FailsToApply transaction commitTimestamp) :
    (after (applyReplicatedCommit transaction commitTimestamp) self).recoveryRequiredReason ≠
      none := by
  rcases applyReplicatedCommit_run self transaction commitTimestamp with
    ⟨hnot, -⟩ | ⟨-, ⟨participant, happly, hrun⟩ | ⟨-, e, next, hrun, hreason, -⟩⟩
  · exact absurd h hnot
  · exact absurd happly (hfails _)
  · rw [after_of_error hrun]
    exact hreason

theorem Prepares.unique {record' : SingleNodeTxnCommit}
    (h : self.Prepares transaction allocate record)
    (h' : self.Prepares transaction allocate record') : record = record' := by
  have heq := h.prepared.symm.trans h'.prepared
  injection heq

variable [DurableCommitLog W]

section

variable (h : self.Appends transaction allocate record)
include h

/-- A commit that appends a record applies its transaction or stops the write path. -/
theorem commit_of_appends : (applyCommit transaction record.commitTimestamp).run self.participant =
        .ok transaction.writes.size (after (commit transaction allocate) self).participant ∨
      self.FailsToApply transaction record.commitTimestamp ∧
        (after (commit transaction allocate) self).recoveryRequiredReason ≠ none ∧
          (after (commit transaction allocate) self).participant =
            after (applyCommit transaction record.commitTimestamp) self.participant := by
  have hcommits := commits_of_run self transaction allocate
  unfold after
  generalize (commit transaction allocate).run self = result at hcommits ⊢
  cases hcommits with
  | refused hrefused => exact absurd h.1 (hrefused _)
  | empty hempty => exact absurd hempty (by simp [h.1.nonempty])
  | unappended hprepares happend =>
    cases h.1.unique hprepares
    obtain ⟨extent, commitLog, hextent⟩ := h.2
    rw [hextent] at happend
    cases happend
  | applied happends happly =>
    cases h.1.unique happends.1
    exact .inl happly
  | stopped happends hfails hreason hafter =>
    cases h.1.unique happends.1
    exact .inr ⟨hfails, hreason, hafter⟩

theorem follows_commit : self.Follows record (after (commit transaction allocate) self) := by
  rw [(eq_of_prepareCommit h.1.prepared).2]
  rcases commit_of_appends h with happly | ⟨-, hreason, hafter⟩
  · exact .of_applied happly
  · exact .of_stopped hafter hreason

end

theorem commit_of_not_appends (h : ∀ record, ¬self.Appends transaction allocate record) :
    (after (commit transaction allocate) self).participant = self.participant ∧
      ((after (commit transaction allocate) self).recoveryRequiredReason = none →
        self.recoveryRequiredReason = none) := by
  have hcommits := commits_of_run self transaction allocate
  unfold after
  generalize (commit transaction allocate).run self = result at hcommits ⊢
  cases hcommits with
  | refused | empty => exact ⟨rfl, id⟩
  | unappended hprepares happend hreason => exact ⟨rfl, fun hnone => (hreason hnone).1⟩
  | applied happends | stopped happends => exact absurd happends (h _)

/-- The append of this commit ends unknown. -/
def AppendsUnknown (self : SingleNodeCommitCoordinator P W) (transaction : Transaction)
    (allocate : CommitTimestampAllocator) : Prop :=
  ∃ record, self.Prepares transaction allocate record ∧ ∃ startLsn endLsn reason commitLog,
    (appendSingleNodeCommit record).run self.commitLog =
      .error (.commitOutcomeUnknown startLsn endLsn reason) commitLog

theorem recoveryRequired_of_appendsUnknown (h : self.AppendsUnknown transaction allocate) :
    (after (commit transaction allocate) self).recoveryRequiredReason ≠ none := by
  obtain ⟨record, hprepares, startLsn, endLsn, reason, commitLog, happend⟩ := h
  have hcommits := commits_of_run self transaction allocate
  unfold after
  generalize (commit transaction allocate).run self = result at hcommits ⊢
  cases hcommits with
  | refused hrefused => exact absurd hprepares (hrefused _)
  | empty hempty => exact absurd hempty (by simp [hprepares.nonempty])
  | unappended hprepares' happend' hreason =>
    cases hprepares.unique hprepares'
    rw [happend] at happend'
    cases happend'
    exact fun hnone => (hreason hnone).2 _ _ _ rfl
  | applied happends =>
    cases hprepares.unique happends.1
    obtain ⟨extent, commitLog', hextent⟩ := happends.2
    rw [happend] at hextent
    cases hextent
  | stopped _ _ hreason => exact hreason

theorem recoveryRequired_of_failsToApply (h : self.Appends transaction allocate record)
    (hfails : self.FailsToApply transaction record.commitTimestamp) :
    (after (commit transaction allocate) self).recoveryRequiredReason ≠ none := by
  rcases commit_of_appends h with happly | ⟨-, hreason, -⟩
  · exact absurd happly (hfails _)
  · exact hreason

/-- A coordinator that refuses every commit that writes, and changes nothing. -/
def RefusesWrites (self : SingleNodeCommitCoordinator P W) : Prop :=
  (∀ transaction allocate, transaction.writes.isEmpty = false →
    ∃ e, (commit transaction allocate).run self = .error e self) ∧
  ∀ transaction commitTimestamp,
    ∃ e, (applyReplicatedCommit transaction commitTimestamp).run self = .error e self

theorem refusesWrites_of_recoveryRequired (h : self.recoveryRequiredReason ≠ none) :
    self.RefusesWrites :=
  ⟨fun _ _ hwrites => commit_of_recoveryRequired h hwrites,
    fun _ _ => applyReplicatedCommit_of_recoveryRequired h⟩

end SingleNodeCommitCoordinator

/-! ## Runs -/

open SingleNodeCommitCoordinator

inductive CommitCall (W : Type) where
  | commit (transaction : Transaction) (allocate : CommitTimestampAllocator)
  | applyReplicatedCommit (transaction : Transaction) (commitTimestamp : Timestamp)
  | replaceCommitLog (commitLog : W)

/-- A coordinator and the commits made durable so far, oldest first. -/
structure CommitRun (P W : Type) where
  coordinator : SingleNodeCommitCoordinator P W
  durable : List DurableCommit

variable {P W : Type} [MvccParticipant P] [DurableCommitLog W]

namespace CommitRun

/-- One call.  What it makes durable is recorded. -/
inductive Step : CommitRun P W → CommitCall W → CommitRun P W → Prop
  | appended {self : CommitRun P W} {transaction : Transaction}
      {allocate : CommitTimestampAllocator} {record : SingleNodeTxnCommit} :
      self.coordinator.Appends transaction allocate record →
      Step self (.commit transaction allocate)
        ⟨after (commit transaction allocate) self.coordinator, self.durable ++ [.appended record]⟩
  | unappended {self : CommitRun P W} {transaction : Transaction}
      {allocate : CommitTimestampAllocator} :
      (∀ record, ¬self.coordinator.Appends transaction allocate record) →
      Step self (.commit transaction allocate)
        ⟨after (commit transaction allocate) self.coordinator, self.durable⟩
  | replicated {self : CommitRun P W} {transaction : Transaction} {commitTimestamp : Timestamp} :
      self.coordinator.Replicates transaction commitTimestamp →
      Step self (.applyReplicatedCommit transaction commitTimestamp)
        ⟨after (applyReplicatedCommit transaction commitTimestamp) self.coordinator,
          self.durable ++
            [.replicated (self.coordinator.buildCommitRecord transaction commitTimestamp)]⟩
  | unreplicated {self : CommitRun P W} {transaction : Transaction}
      {commitTimestamp : Timestamp} :
      ¬self.coordinator.Replicates transaction commitTimestamp →
      Step self (.applyReplicatedCommit transaction commitTimestamp)
        ⟨after (applyReplicatedCommit transaction commitTimestamp) self.coordinator, self.durable⟩
  | replaceCommitLog {self : CommitRun P W} (commitLog : W) :
      Step self (.replaceCommitLog commitLog)
        ⟨{ self.coordinator with commitLog }, self.durable⟩

end CommitRun

/-- All runs from a participant with this MVCC state and any log. -/
def commitRuns (P W : Type) [MvccParticipant P] [DurableCommitLog W] (initial : InMemoryMvcc) :
    Lts (CommitRun P W) (CommitCall W) where
  init run := ∃ participant commitLog, storage participant = initial ∧
    withParticipant participant commitLog = .ok run.coordinator ∧ run.durable = []
  step := CommitRun.Step

namespace CommitRun

variable {initial : InMemoryMvcc} {run next : CommitRun P W} {call : CommitCall W}

/-- The MVCC state is the replay of what is durable, unless recovery is demanded. -/
def Replayed (initial : InMemoryMvcc) (run : CommitRun P W) : Prop :=
  run.coordinator.recoveryRequiredReason = none →
    SingleNodeTxnCommit.replayAll (run.durable.map DurableCommit.record) initial =
      .ok (storage run.coordinator.participant)

omit [DurableCommitLog W] in
theorem Replayed.follows {commit : DurableCommit} {coordinator : SingleNodeCommitCoordinator P W}
    (h : run.Replayed initial) (havailable : run.coordinator.recoveryRequiredReason = none)
    (hfollows : run.coordinator.Follows commit.record coordinator) :
    Replayed initial ⟨coordinator, run.durable ++ [commit]⟩ := by
  intro hnone
  obtain ⟨n, hreplay⟩ := hfollows.replayed hnone
  rw [List.map_append]
  exact SingleNodeTxnCommit.replayAll_append (h havailable) hreplay

theorem Replayed.step (h : run.Replayed initial) (hstep : Step run call next) :
    next.Replayed initial := by
  cases hstep with
  | appended happends =>
    exact h.follows (eq_of_prepareCommit happends.1.prepared).1 (follows_commit happends)
  | unappended hnot =>
    intro hnone
    obtain ⟨hparticipant, hreason⟩ := commit_of_not_appends hnot
    rw [hparticipant]
    exact h (hreason hnone)
  | replicated hreplicates =>
    exact h.follows hreplicates.recoveryRequiredReason_eq_none
      (follows_applyReplicatedCommit hreplicates)
  | unreplicated hnot =>
    rw [applyReplicatedCommit_of_not_replicates hnot]
    exact h
  | replaceCommitLog => exact h

theorem replayed_of_reachable (h : (commitRuns P W initial).Reachable run) :
    run.Replayed initial := by
  refine Lts.Reachable.invariant ?_ (fun _ hreplayed hstep => hreplayed.step hstep) h
  rintro s ⟨participant, commitLog, rfl, hnew, hdurable⟩ -
  simp only [withParticipant, eq_ok] at hnew
  obtain ⟨_, -, hnew⟩ := hnew
  rw [hdurable, ← hnew]
  rfl

/-- The call ends an append unknown or fails to apply a durable commit. -/
def Stops (run : CommitRun P W) : CommitCall W → Prop
  | .commit transaction allocate =>
    run.coordinator.AppendsUnknown transaction allocate ∨
      ∃ record, run.coordinator.Appends transaction allocate record ∧
        run.coordinator.FailsToApply transaction record.commitTimestamp
  | .applyReplicatedCommit transaction commitTimestamp =>
    run.coordinator.Replicates transaction commitTimestamp ∧
      run.coordinator.FailsToApply transaction commitTimestamp
  | .replaceCommitLog _ => False

theorem recoveryRequired_of_stops (h : run.Stops call) (hstep : Step run call next) :
    next.coordinator.recoveryRequiredReason ≠ none := by
  have hcommit {transaction : Transaction} {allocate : CommitTimestampAllocator}
      (h : run.Stops (.commit transaction allocate)) :
      (after (commit transaction allocate) run.coordinator).recoveryRequiredReason ≠ none := by
    rcases h with hunknown | ⟨record, happends, hfails⟩
    · exact recoveryRequired_of_appendsUnknown hunknown
    · exact recoveryRequired_of_failsToApply happends hfails
  cases hstep with
  | appended | unappended => exact hcommit h
  | replicated => exact recoveryRequired_of_replicates h.1 h.2
  | unreplicated hnot => exact absurd h.1 hnot
  | replaceCommitLog => exact h.elim

theorem recoveryRequired_step (h : run.coordinator.recoveryRequiredReason ≠ none)
    (hstep : Step run call next) : next.coordinator.recoveryRequiredReason ≠ none := by
  cases hstep with
  | appended happends => exact absurd (eq_of_prepareCommit happends.1.prepared).1 h
  | unappended hnot => exact fun hnone => h ((commit_of_not_appends hnot).2 hnone)
  | replicated hreplicates => exact absurd hreplicates.recoveryRequiredReason_eq_none h
  | unreplicated hnot =>
    rw [applyReplicatedCommit_of_not_replicates hnot]
    exact h
  | replaceCommitLog => exact h

/-- In every run: a commit changes the MVCC state only into the replay of a record it appended;
after an unknown append or a failed application every later commit that writes is refused; and
while recovery is not demanded the MVCC state is the replay of the durable commits. -/
theorem durable_before_visible (h : (commitRuns P W initial).Reachable run) :
    (∀ transaction allocate,
      storage (after (commit transaction allocate) run.coordinator).participant ≠
          storage run.coordinator.participant →
        ∃ record n, run.coordinator.Appends transaction allocate record ∧
          record.replay.run (storage run.coordinator.participant) =
            .ok n (storage (after (commit transaction allocate) run.coordinator).participant)) ∧
    (∀ call next calls later, run.Stops call → (commitRuns P W initial).step run call next →
      (commitRuns P W initial).Steps next calls later → later.coordinator.RefusesWrites) ∧
    (run.coordinator.recoveryRequiredReason = none →
      SingleNodeTxnCommit.replayAll (run.durable.map DurableCommit.record) initial =
        .ok (storage run.coordinator.participant)) := by
  refine ⟨fun transaction allocate hchanged => ?_,
    fun call next calls later hstops hstep hsteps => ?_, replayed_of_reachable h⟩
  · by_cases happends : ∃ record, run.coordinator.Appends transaction allocate record
    · obtain ⟨record, happends⟩ := happends
      obtain ⟨n, hreplay⟩ := (follows_commit happends).changed hchanged
      exact ⟨record, n, happends, hreplay⟩
    · push Not at happends
      exact absurd (congrArg storage (commit_of_not_appends happends).1) hchanged
  · refine refusesWrites_of_recoveryRequired ?_
    exact hsteps.preserves (P := fun s => s.coordinator.recoveryRequiredReason ≠ none)
      recoveryRequired_step (recoveryRequired_of_stops hstops hstep)

/-- A log that answers its appends from a list. -/
structure ScriptedCommitLog where
  answers : List (Except Error DurableWalExtent)

instance : DurableCommitLog ScriptedCommitLog where
  appendSingleNodeCommit _ := fun self =>
    match self.answers with
    | .ok extent :: answers => .ok extent ⟨answers⟩
    | .error e :: answers => .error e ⟨answers⟩
    | [] => .error (.configuration "commit log is closed") self

/-- A coordinator of an empty table, over a log with these answers. -/
def scripted (answers : List (Except Error DurableWalExtent)) :
    CommitRun OwnedMvccParticipant ScriptedCommitLog :=
  ⟨⟨⟨1, .new⟩, ⟨answers⟩, none⟩, []⟩

theorem reachable_scripted (answers : List (Except Error DurableWalExtent)) :
    (commitRuns OwnedMvccParticipant ScriptedCommitLog .new).Reachable (scripted answers) :=
  .of_init ⟨⟨1, .new⟩, ⟨answers⟩, rfl, rfl, rfl⟩

def sampleTransaction : Transaction :=
  { id := 5, startTs := 5, createdAt := 0,
    writes := (∅ : Mutations).insert InMemoryMvcc.sampleKey (.put InMemoryMvcc.sampleRow) }

/-- The commit timestamp directly above the start timestamp. -/
def nextTimestamp : CommitTimestampAllocator := fun startTs => .ok (startTs + 1)

theorem durable_before_visible_sample :
    storage (after (commit sampleTransaction nextTimestamp)
        (scripted [.ok ⟨0, 40⟩]).coordinator).participant ≠ .new ∧
      ∃ record n, (scripted [.ok ⟨0, 40⟩]).coordinator.Appends sampleTransaction nextTimestamp
          record ∧
        record.replay.run .new = .ok n (storage (after (commit sampleTransaction nextTimestamp)
          (scripted [.ok ⟨0, 40⟩]).coordinator).participant) := by
  have hchanged : storage (after (commit sampleTransaction nextTimestamp)
      (scripted [.ok ⟨0, 40⟩]).coordinator).participant ≠ .new := by decide +kernel
  exact ⟨hchanged, (durable_before_visible (reachable_scripted [.ok ⟨0, 40⟩])).1
    sampleTransaction nextTimestamp hchanged⟩

/-- A log whose first append ends unknown. -/
def unknownAppend : List (Except Error DurableWalExtent) :=
  [.error (.commitOutcomeUnknown 0 40 "sync failed")]

theorem stops_unknownAppend :
    (scripted unknownAppend).Stops (.commit sampleTransaction nextTimestamp) := by
  have hok : ((scripted unknownAppend).coordinator.prepareCommit sampleTransaction
      nextTimestamp).isOk = true := by decide +kernel
  obtain ⟨record, hprepared⟩ := isOk_iff.mp hok
  exact .inl ⟨record, ⟨by decide +kernel, by decide +kernel, hprepared⟩, 0, 40, _, _, rfl⟩

theorem replicates_sampleTransaction :
    (scripted []).coordinator.Replicates sampleTransaction 6 :=
  ⟨by decide +kernel, by decide +kernel, by decide +kernel, by decide +kernel⟩

/-- After an unknown append an empty transaction still commits, and a replicated commit changes
the MVCC state though nothing was appended. -/
theorem commit_without_append :
    (∃ run call next, (commitRuns OwnedMvccParticipant ScriptedCommitLog .new).Reachable run ∧
      run.Stops call ∧ (commitRuns OwnedMvccParticipant ScriptedCommitLog .new).step run call next ∧
      ∃ transaction outcome,
        (commit transaction nextTimestamp).run next.coordinator = .ok outcome next.coordinator) ∧
    ∃ run, (commitRuns OwnedMvccParticipant ScriptedCommitLog .new).Reachable run ∧
      run.coordinator.recoveryRequiredReason = none ∧
      (∀ record, .appended record ∉ run.durable) ∧
      storage run.coordinator.participant ≠ .new := by
  have hunappended (record : SingleNodeTxnCommit) :
      ¬(scripted unknownAppend).coordinator.Appends sampleTransaction nextTimestamp record := by
    rintro ⟨-, extent, commitLog, happend⟩
    cases happend
  refine ⟨⟨scripted unknownAppend, .commit sampleTransaction nextTimestamp, _,
    reachable_scripted _, stops_unknownAppend, .unappended hunappended,
    { sampleTransaction with writes := ∅ }, _, rfl⟩, ?_⟩
  refine ⟨_, (reachable_scripted []).step (.replicated replicates_sampleTransaction), ?_, ?_, ?_⟩
  · decide +kernel
  · intro record hmem
    simp [scripted] at hmem
  · decide +kernel

end CommitRun

end RagnorDb
